import SolidWorkshop.Proofs.Source.Preamble

/-!
# Headings of definitions

A line is the heading of a definition if its first word begins definitions and ends at a blank
character or with the line.  The scan of a text ends at the first heading that has more than this
word on its line.  A word that has the line to itself is passed over, so that the assignments
behind it are found as if they stood in front of the definition; this is the only way for one of
them to be found behind a heading.
-/

namespace SolidWorkshop.Source

open Text

/-! ## First words -/

/-- The first word of a line: the characters of names behind the blank ones at the start. -/
def firstWord (line : List Char) : List Char :=
  (trimStart line).takeWhile isNameChar

/-- What stands behind the first word of a line. -/
def behindFirstWord (line : List Char) : List Char :=
  (trimStart line).dropWhile isNameChar

/-- The first word of a line begins definitions, and a blank character or the end of the line
follows it. -/
structure IsHeading (line : List Char) : Prop where
  word : ∃ word ∈ stopWords, firstWord line = word.toList
  isApart : ∀ c, (behindFirstWord line).head? = some c → isBlank c = true

/-- The first word has the line to itself. -/
def IsLone (line : List Char) : Prop :=
  AllBlank (behindFirstWord line)

section Words

variable {word : String} {line rest : List Char}

theorem firstWord_append_behind (line : List Char) :
    firstWord line ++ behindFirstWord line = trimStart line :=
  List.takeWhile_append_dropWhile

theorem isNameChar_of_mem_stopWords
    (hword : word ∈ stopWords) :
    ∀ c ∈ word.toList, isNameChar c = true := by
  rw [← List.all_eq_true]
  simp only [stopWords, List.mem_cons, List.not_mem_nil, or_false] at hword
  rcases hword with rfl | rfl
  · decide
  · decide

theorem isNameChar_eq_false_of_isBlank
    {c : Char} (hc : isBlank c = true) :
    isNameChar c = false := by
  cases hname : isNameChar c with
  | false => rfl
  | true =>
    rw [isBlank_eq_false_of_isNameChar hname] at hc
    contradiction

/-- A line with a word that begins definitions, apart from what follows it, has this word first. -/
theorem firstWord_eq
    (hword : word ∈ stopWords) (hline : trimStart line = word.toList ++ rest)
    (hrest : ∀ c, rest.head? = some c → isBlank c = true) :
    firstWord line = word.toList ∧ behindFirstWord line = rest := by
  rw [firstWord, behindFirstWord, hline]
  exact takeWhile_append_of_all (isNameChar_of_mem_stopWords hword) fun c hc =>
    isNameChar_eq_false_of_isBlank (hrest c hc)

/-- A text begins with a word and a blank character exactly if it can be cut there. -/
theorem stopWord?_eq_some_iff
    {s : List Char} :
    (∃ word, stopWord? s = some word) ↔
      ∃ word ∈ stopWords, ∃ c rest, s = word.toList ++ c :: rest ∧ isBlank c = true := by
  rw [← Option.isSome_iff_exists, stopWord?, List.find?_isSome]
  refine exists_congr fun word => and_congr_right fun _ => ?_
  rw [Bool.and_eq_true, List.isPrefixOf_iff_prefix, Option.any_eq_true]
  constructor
  · rintro ⟨⟨rest, rfl⟩, c, hc, hblank⟩
    rw [List.drop_left] at hc
    obtain ⟨tail, rfl⟩ := List.head?_eq_some_iff.mp hc
    exact ⟨c, tail, rfl, hblank⟩
  · rintro ⟨c, rest, rfl, hblank⟩
    exact ⟨List.prefix_append _ _, c, by rw [List.drop_left]; rfl, hblank⟩

/-- A text that begins with such a word is no section header. -/
theorem headerTitle?_eq_none_of_mem_stopWords
    (hword : word ∈ stopWords) :
    headerTitle? (word.toList ++ rest) = none := by
  simp only [stopWords, List.mem_cons, List.not_mem_nil, or_false] at hword
  rcases hword with rfl | rfl
  · exact Layout.headerTitle?_eq_none (by decide) _
  · exact Layout.headerTitle?_eq_none (by decide) _

/-- The scan ends at a line exactly if its text, without blank ends, begins with a word that
begins definitions and a blank character. -/
theorem beginsDefinition_iff_stopWord?
    (line : List Char) :
    beginsDefinition line = true ↔ ∃ word, stopWord? (trim line) = some word := by
  unfold beginsDefinition Shape.ofLine?
  dsimp only
  cases hstop : stopWord? (trim line) with
  | none =>
    refine iff_of_false ?_ nofun
    cases (trim line).isEmpty with
    | true => exact Bool.false_ne_true
    | false =>
      cases headerTitle? (trim line) with
      | some title => exact Bool.false_ne_true
      | none =>
        cases Assignment.ofLine? line with
        | none => exact Bool.false_ne_true
        | some a => exact Bool.false_ne_true
  | some word =>
    obtain ⟨found, hfound, c, rest, htrim, -⟩ := stopWord?_eq_some_iff.mp ⟨word, hstop⟩
    have hheader : headerTitle? (trim line) = none := by
      rw [htrim]
      exact headerTitle?_eq_none_of_mem_stopWords hfound
    have hne : (trim line).isEmpty = false := by
      rw [htrim]
      simp
    rw [hne, hheader]
    exact iff_of_true rfl ⟨word, rfl⟩

/-- The scan ends at a line exactly if this is a heading with more than a word on it. -/
theorem beginsDefinition_iff (line : List Char) :
    beginsDefinition line = true ↔ IsHeading line ∧ ¬IsLone line := by
  rw [beginsDefinition_iff_stopWord?, stopWord?_eq_some_iff]
  constructor
  · rintro ⟨word, hword, c, rest, htrim, hc⟩
    obtain ⟨hend, blank, hblank, hline⟩ := trimEnd_eq_iff.mp htrim
    rw [List.append_assoc] at hline
    obtain ⟨hfirst, hbehind⟩ := firstWord_eq hword hline <| by
      rintro d ⟨⟩
      exact hc
    refine ⟨⟨⟨word, hword, hfirst⟩, ?_⟩, ?_⟩
    · rw [hbehind]
      rintro d ⟨⟩
      exact hc
    · intro hlone
      have hlast := List.getLast?_eq_some_getLast (List.cons_ne_nil c rest)
      have hplain : isBlank ((c :: rest).getLast (List.cons_ne_nil c rest)) = false := by
        apply hend
        rw [List.getLast?_append_of_ne_nil _ (List.cons_ne_nil c rest), hlast]
      rw [hlone _ (by rw [hbehind]; exact List.mem_append_left _ (List.getLast_mem _))] at hplain
      contradiction
  · rintro ⟨⟨⟨word, hword, hfirst⟩, happart⟩, hmore⟩
    obtain ⟨hcut, hhead⟩ := trimEnd_append_of_not_allBlank (s := firstWord line) hmore
    have hne : behindFirstWord line ≠ [] := by
      intro hnil
      refine hmore ?_
      rw [IsLone, hnil]
      exact List.forall_mem_nil _
    obtain ⟨c, rest, hbehind⟩ := List.exists_cons_of_ne_nil hne
    rw [hbehind, List.head?_cons] at hhead
    obtain ⟨tail, htail⟩ := List.head?_eq_some_iff.mp hhead
    refine ⟨word, hword, c, tail, ?_, happart c (by rw [hbehind]; rfl)⟩
    rw [trim, ← firstWord_append_behind, hcut, hfirst, hbehind, htail]

end Words

/-! ## Behind a heading -/

/-- A line of the preamble is one that no line up to it begins a definition in. -/
theorem getElem?_preamble_eq_some_iff
    {ls : List (List Char)} {j : Nat} {line : List Char} :
    (preamble ls)[j]? = some line ↔
      ls[j]? = some line ∧
        ∀ k ≤ j, ∀ other, ls[k]? = some other → beginsDefinition other = false := by
  induction ls generalizing j with
  | nil => simp [preamble]
  | cons first rest ih =>
    cases hfirst : beginsDefinition first with
    | true =>
      have hnil : preamble (first :: rest) = [] :=
        List.takeWhile_cons_of_neg (by rw [hfirst]; decide)
      rw [hnil, List.getElem?_nil]
      refine iff_of_false (Option.some_ne_none line).symm ?_
      rintro ⟨-, hall⟩
      rw [hall 0 (Nat.zero_le j) first rfl] at hfirst
      contradiction
    | false =>
      have hcons : preamble (first :: rest) = first :: preamble rest :=
        List.takeWhile_cons_of_pos (by rw [hfirst]; rfl)
      rw [hcons]
      cases j with
      | zero =>
        refine ⟨fun h => ⟨h, ?_⟩, fun h => h.1⟩
        intro k hk other hother
        obtain rfl : k = 0 := by omega
        obtain rfl := Option.some.inj hother
        exact hfirst
      | succ j =>
        rw [List.getElem?_cons_succ, List.getElem?_cons_succ, ih]
        refine and_congr_right fun _ => ⟨fun h k hk other hother => ?_, fun h k hk => ?_⟩
        · cases k with
          | zero =>
            obtain rfl := Option.some.inj hother
            exact hfirst
          | succ k => exact h k (by omega) other hother
        · exact h (k + 1) (by omega)

/-- No line in front of a descriptor is a heading. -/
def InFrontOfHeadings (ls : List (List Char)) (d : Descriptor) : Prop :=
  ∀ (i : Nat) (line : List Char), i < d.line → ls[i]? = some line → ¬IsHeading line

/-- A heading is passed over on the way to an assignment of a literal: every heading on this way
has a line to itself. -/
structure PassesOver (ls : List (List Char)) (i j : Nat) : Prop where
  lt : i < j
  heading : ∃ line, ls[i]? = some line ∧ IsHeading line
  site : ∃ s : Site, ls[j]? = some s.line ∧ s.IsEditable
  lone : ∀ k < j, ∀ line, ls[k]? = some line → IsHeading line → IsLone line

section Scan

variable {source : List Char} {found : List Descriptor}

/-- A descriptor stands on a line with a literal, and whatever heading is in front of it has a
line to itself. -/
theorem exists_site_of_mem_extract
    (h : extract source = .ok found) {d : Descriptor} (hd : d ∈ found) :
    ∃ (j : Nat) (s : Site), d.line = j ∧ (lines source)[j]? = some s.line ∧ s.IsEditable ∧
      ∀ k < j, ∀ line, (lines source)[k]? = some line → IsHeading line → IsLone line := by
  obtain ⟨j, s, hget, hs, hdescribes⟩ := (scan_describesLines h).sound d hd
  obtain ⟨hget, hpreamble⟩ := getElem?_preamble_eq_some_iff.mp hget
  refine ⟨j, s, ?_, hget, hs, ?_⟩
  · rw [hdescribes.line, Nat.zero_add]
  · intro k hk line hline hheading
    by_contra hmore
    have hbegins := (beginsDefinition_iff line).mpr ⟨hheading, hmore⟩
    rw [hpreamble k (Nat.le_of_lt hk) line hline] at hbegins
    contradiction

/-- An assignment behind headings that all have a line to themselves is found. -/
theorem PassesOver.exists_mem_extract
    (h : extract source = .ok found) {i j : Nat} (hij : PassesOver (lines source) i j) :
    ∃ d ∈ found, d.line = j := by
  obtain ⟨s, hget, hs⟩ := hij.site
  have hpreamble : (preamble (lines source))[j]? = some s.line := by
    refine getElem?_preamble_eq_some_iff.mpr ⟨hget, fun k hk other hother => ?_⟩
    rcases Nat.lt_or_eq_of_le hk with hlt | rfl
    · apply Bool.eq_false_iff.mpr
      intro hbegins
      obtain ⟨hheading, hmore⟩ := (beginsDefinition_iff other).mp hbegins
      exact hmore (hij.lone k hlt other hother hheading)
    · obtain rfl := Option.some.inj (hget.symm.trans hother)
      rw [beginsDefinition, hs.shape]
  obtain ⟨d, hd, hdescribes⟩ := (scan_describesLines h).complete j s hpreamble hs
  exact ⟨d, hd, by rw [hdescribes.line, Nat.zero_add]⟩

/-- Nothing is found behind a heading that has more than a word on its line.  Nothing is found
behind any heading exactly if no heading with a line to itself is passed over on the way to an
assignment of a literal. -/
theorem extract_in_front_of_headings_iff
    (h : extract source = .ok found) :
    (∀ d ∈ found, ∀ (i : Nat) (line : List Char), i < d.line → (lines source)[i]? = some line →
      IsHeading line → IsLone line) ∧
    ((∀ d ∈ found, InFrontOfHeadings (lines source) d) ↔
      ∀ i j, ¬PassesOver (lines source) i j) := by
  refine ⟨?_, ?_, ?_⟩
  · intro d hd i line hi
    obtain ⟨j, s, hline, -, -, hlone⟩ := exists_site_of_mem_extract h hd
    exact hlone i (by omega) line
  · intro hfront i j hij
    obtain ⟨d, hd, hline⟩ := hij.exists_mem_extract h
    obtain ⟨line, hget, hheading⟩ := hij.heading
    have hlt := hij.lt
    exact hfront d hd i line (by omega) hget hheading
  · intro hnone d hd i line hi hget hheading
    obtain ⟨j, s, hline, hsite, hs, hlone⟩ := exists_site_of_mem_extract h hd
    exact hnone i j ⟨by omega, ⟨line, hget, hheading⟩, ⟨s, hsite, hs⟩, hlone⟩

end Scan

/-- A definition whose name is on the line below its word, with an assignment in its body, and a
definition with both on one line. -/
def twoModules : List Char :=
  "wide = 2;\nmodule\nbox() \x7b\n  size = 5;\n\x7d\nmodule lid();\nhigh = 3;".toList

/-- The assignment in front of the definitions. -/
def frontParameter : Descriptor :=
  Assignment.descriptor ⟨"wide", "2".toList, 7, 8, ""⟩ 0 "wide = 2;".toList none .number (.int 2)

/-- The assignment in the body of the first one. -/
def bodyParameter : Descriptor :=
  Assignment.descriptor ⟨"size", "5".toList, 9, 10, ""⟩ 3 "  size = 5;".toList none .number
    (.int 5)

theorem extract_twoModules : extract twoModules = .ok [frontParameter, bodyParameter] :=
  Failure.eq_ok_of_toOption (by decide +kernel)

theorem isHeading_module : IsHeading "module".toList where
  word := ⟨"module", by decide, by decide +kernel⟩
  isApart c hc := by
    have hnil : behindFirstWord "module".toList = [] := by decide +kernel
    rw [hnil] at hc
    contradiction

theorem extract_in_front_of_headings_of_twoModules :
    extract twoModules = .ok [frontParameter, bodyParameter] ∧
      (∃ i j, PassesOver (lines twoModules) i j) ∧
      ∀ line, (lines twoModules)[1]? = some line → IsLone line := by
  obtain ⟨hlone, hiff⟩ := extract_in_front_of_headings_iff extract_twoModules
  have hget : (lines twoModules)[1]? = some "module".toList := by decide +kernel
  refine ⟨extract_twoModules, ?_, ?_⟩
  · by_contra hnone
    push Not at hnone
    exact hiff.mpr hnone bodyParameter (by simp) 1 _ (by decide) hget isHeading_module
  · intro line hline
    obtain rfl := Option.some.inj (hget.symm.trans hline)
    exact hlone bodyParameter (by simp) 1 _ (by decide) hget isHeading_module

/-- What is found may stand behind a heading. -/
theorem not_forall_inFrontOfHeadings :
    ¬∀ source found, extract source = .ok found →
      ∀ d ∈ found, InFrontOfHeadings (lines source) d := by
  intro hall
  have hget : (lines twoModules)[1]? = some "module".toList := by decide +kernel
  exact hall twoModules _ extract_twoModules bodyParameter (by simp) 1 _ (by decide) hget
    isHeading_module

end SolidWorkshop.Source
