import Mathlib.Data.List.DropRight
import SolidWorkshop.Text.Split

/-!
# Cutting texts

Trimming cuts a text into a blank end and the rest, which has no blank end on that side; this
pair of properties determines the cut.  Splitting and joining are inverse to each other as long
as no piece holds the separator, so a text and its lines determine each other.
-/

namespace SolidWorkshop.Text

/-! ## Characters of one kind -/

/-- A row of characters of one kind ends where a character of another kind follows. -/
theorem takeWhile_append_of_all
    {p : Char → Bool} {word rest : List Char} (hword : ∀ c ∈ word, p c = true)
    (hrest : ∀ c, rest.head? = some c → p c = false) :
    (word ++ rest).takeWhile p = word ∧ (word ++ rest).dropWhile p = rest := by
  rw [List.takeWhile_append_of_pos hword, List.dropWhile_append_of_pos hword]
  cases rest with
  | nil => simp
  | cons c rest => simp [hrest c rfl]

theorem dropEndWhile_eq_rdropWhile
    (p : Char → Bool) (s : List Char) :
    dropEndWhile p s = s.rdropWhile p := by
  induction s with
  | nil => rfl
  | cons c s ih =>
    rw [dropEndWhile_cons, ih]
    simp only [List.rdropWhile, List.reverse_cons, List.dropWhile_append, List.isEmpty_reverse]
    by_cases hempty : (List.dropWhile p s.reverse).isEmpty
    · cases hc : p c <;> simp_all [List.dropWhile]
    · simp [hempty]

section Drop

variable {p : Char → Bool} {c : Char} {s : List Char}

theorem dropWhile_eq_self
    (hs : ∀ c, s.head? = some c → p c = false) :
    s.dropWhile p = s := by
  cases s with
  | nil => rfl
  | cons c s =>
    have hc : p c = false := hs c rfl
    simp [hc]

theorem dropEndWhile_eq_self
    (hs : ∀ c, s.getLast? = some c → p c = false) :
    dropEndWhile p s = s := by
  rw [dropEndWhile_eq_rdropWhile, List.rdropWhile_eq_self_iff]
  intro hne
  rw [hs _ (List.getLast?_eq_some_getLast hne)]
  exact Bool.false_ne_true

theorem head?_dropWhile
    (hc : (s.dropWhile p).head? = some c) :
    p c = false := by
  simpa [hc] using List.head?_dropWhile_not p s

theorem getLast?_dropEndWhile
    (hc : (dropEndWhile p s).getLast? = some c) :
    p c = false := by
  rw [dropEndWhile_eq_rdropWhile] at hc
  have hne : s.rdropWhile p ≠ [] := by
    intro hnil
    simp [hnil] at hc
  have hlast := List.rdropWhile_last_not p s hne
  rw [List.getLast?_eq_some_getLast hne, Option.some.injEq] at hc
  rw [hc] at hlast
  exact Bool.eq_false_iff.mpr hlast

/-- Dropping characters at the end leaves the first one that is left at the start. -/
theorem head?_dropBoth
    (hc : (dropEndWhile p (s.dropWhile p)).head? = some c) :
    p c = false := by
  rw [dropEndWhile_eq_rdropWhile] at hc
  obtain ⟨back, hback⟩ := List.rdropWhile_prefix p (s.dropWhile p)
  refine head?_dropWhile (s := s) ?_
  rw [← hback, List.head?_append, hc]
  rfl

theorem mem_of_mem_dropBoth
    (hc : c ∈ dropEndWhile p (s.dropWhile p)) :
    c ∈ s := by
  rw [dropEndWhile_eq_rdropWhile] at hc
  exact (List.dropWhile_sublist p).mem ((List.rdropWhile_prefix p _).mem hc)

end Drop

/-! ## Blank ends -/

/-- Every character is blank. -/
def AllBlank (s : List Char) : Prop :=
  ∀ c ∈ s, isBlank c = true

/-- The text does not begin with a blank character. -/
def NoBlankStart (s : List Char) : Prop :=
  ∀ c, s.head? = some c → isBlank c = false

/-- The text does not end with a blank character. -/
def NoBlankEnd (s : List Char) : Prop :=
  ∀ c, s.getLast? = some c → isBlank c = false

theorem noBlankStart_cons
    {c : Char} {s : List Char} (hc : isBlank c = false) :
    NoBlankStart (c :: s) := by
  simpa [NoBlankStart] using hc

theorem noBlankStart_append
    {s t : List Char} (hne : s ≠ []) (hs : NoBlankStart s) :
    NoBlankStart (s ++ t) := by
  intro c hc
  apply hs c
  rwa [List.head?_append_of_ne_nil s hne] at hc

theorem noBlankEnd_concat
    {c : Char} {s : List Char} (hc : isBlank c = false) :
    NoBlankEnd (s ++ [c]) := by
  simpa [NoBlankEnd] using hc

theorem trimStart_eq_self
    {s : List Char} (hs : NoBlankStart s) :
    trimStart s = s :=
  dropWhile_eq_self hs

theorem trimStart_append_of_allBlank
    {blank : List Char} (hblank : AllBlank blank) (s : List Char) :
    trimStart (blank ++ s) = trimStart s :=
  List.dropWhile_append_of_pos hblank

theorem noBlankStart_trimStart (s : List Char) :
    NoBlankStart (trimStart s) :=
  fun _ => head?_dropWhile

/-- What trimming leaves at the start is the part behind the blank characters. -/
theorem trimStart_eq_iff
    {s t : List Char} :
    trimStart s = t ↔ NoBlankStart t ∧ ∃ blank, AllBlank blank ∧ s = blank ++ t := by
  constructor
  · rintro rfl
    refine ⟨noBlankStart_trimStart s, s.takeWhile isBlank, ?_, ?_⟩
    · intro c hc
      exact List.mem_takeWhile_imp hc
    · exact List.takeWhile_append_dropWhile.symm
  · rintro ⟨ht, blank, hblank, rfl⟩
    rw [trimStart_append_of_allBlank hblank, trimStart_eq_self ht]

theorem trimEnd_eq_self
    {s : List Char} (hs : NoBlankEnd s) :
    trimEnd s = s :=
  dropEndWhile_eq_self hs

theorem trimEnd_append_of_allBlank
    {blank : List Char} (hblank : AllBlank blank) (s : List Char) :
    trimEnd (s ++ blank) = trimEnd s := by
  rw [trimEnd, trimEnd, dropEndWhile_eq_rdropWhile, dropEndWhile_eq_rdropWhile,
    List.rdropWhile, List.reverse_append, List.dropWhile_append_of_pos]
  · rfl
  · intro c hc
    exact hblank c (List.mem_reverse.mp hc)

theorem noBlankEnd_trimEnd (s : List Char) :
    NoBlankEnd (trimEnd s) :=
  fun _ => getLast?_dropEndWhile

/-- What trimming leaves at the end is the part in front of the blank characters. -/
theorem trimEnd_eq_iff
    {s t : List Char} :
    trimEnd s = t ↔ NoBlankEnd t ∧ ∃ blank, AllBlank blank ∧ s = t ++ blank := by
  constructor
  · rintro rfl
    refine ⟨noBlankEnd_trimEnd s, s.rtakeWhile isBlank, ?_, ?_⟩
    · intro c hc
      exact List.mem_rtakeWhile_imp hc
    · rw [trimEnd, dropEndWhile_eq_rdropWhile]
      exact List.rdropWhile_append_rtakeWhile.symm
  · rintro ⟨ht, blank, hblank, rfl⟩
    rw [trimEnd_append_of_allBlank hblank, trimEnd_eq_self ht]

/-- Only what stands behind the last character that is not blank is trimmed at the end. -/
theorem trimEnd_append_cons
    {c : Char} (hc : isBlank c = false) (s t : List Char) :
    trimEnd (s ++ c :: t) = s ++ c :: trimEnd t := by
  obtain ⟨hend, blank, hblank, ht⟩ := trimEnd_eq_iff.mp (rfl : trimEnd t = trimEnd t)
  refine trimEnd_eq_iff.mpr ⟨?_, blank, hblank, ?_⟩
  · intro d hd
    cases hrest : trimEnd t with
    | nil =>
      rw [hrest, List.getLast?_append_of_ne_nil _ (by simp)] at hd
      simp only [List.getLast?_singleton, Option.some.injEq] at hd
      rwa [← hd]
    | cons e rest =>
      rw [List.getLast?_append_of_ne_nil _ (by simp), hrest, List.getLast?_cons_cons, ← hrest]
        at hd
      exact hend d hd
  · rw [List.append_assoc, List.cons_append, ← ht]

/-- Trimming a text at its end keeps what stands in front of a character that is not blank. -/
theorem trimEnd_append_of_not_allBlank
    {s t : List Char} (ht : ¬AllBlank t) :
    trimEnd (s ++ t) = s ++ trimEnd t ∧ (trimEnd t).head? = t.head? := by
  obtain ⟨hend, blank, hblank, hcut⟩ := trimEnd_eq_iff.mp (rfl : trimEnd t = trimEnd t)
  have hne : trimEnd t ≠ [] := by
    intro hnil
    rw [hnil, List.nil_append] at hcut
    exact ht (hcut ▸ hblank)
  constructor
  · refine trimEnd_eq_iff.mpr ⟨?_, blank, hblank, ?_⟩
    · intro c hc
      rw [List.getLast?_append_of_ne_nil _ hne] at hc
      exact hend c hc
    · rw [List.append_assoc, ← hcut]
  · conv_rhs => rw [hcut]
    exact (List.head?_append_of_ne_nil _ hne).symm

theorem trim_eq_self
    {s : List Char} (hstart : NoBlankStart s) (hend : NoBlankEnd s) :
    trim s = s := by
  rw [trim, trimStart_eq_self hstart, trimEnd_eq_self hend]

theorem trim_append_of_allBlank
    {blank : List Char} (hblank : AllBlank blank) (s : List Char) :
    trim (s ++ blank) = trim s := by
  rw [trim, trim, trimStart, trimStart, List.dropWhile_append]
  split_ifs with hempty
  · rw [List.isEmpty_iff] at hempty
    rw [hempty, List.dropWhile_eq_nil_iff.mpr hblank]
  · exact trimEnd_append_of_allBlank hblank _

theorem trim_trimEnd (s : List Char) :
    trim (trimEnd s) = trim s := by
  obtain ⟨-, blank, hblank, hs⟩ := trimEnd_eq_iff.mp (rfl : trimEnd s = trimEnd s)
  conv_rhs => rw [hs, trim_append_of_allBlank hblank]

theorem mem_of_mem_trim
    {c : Char} {s : List Char} (h : c ∈ trim s) :
    c ∈ s :=
  mem_of_mem_dropBoth h

/-- There is only one way to cut a text into blank characters and a rest that does not begin with
one. -/
theorem eq_of_blank_append
    {blank blank' s s' : List Char} (hblank : AllBlank blank) (hblank' : AllBlank blank')
    (hs : NoBlankStart s) (hs' : NoBlankStart s') (h : blank ++ s = blank' ++ s') :
    blank = blank' ∧ s = s' := by
  have hrest : s = s' := by
    rw [← trimStart_eq_self hs, ← trimStart_eq_self hs', ← trimStart_append_of_allBlank hblank, h,
      trimStart_append_of_allBlank hblank']
  rw [hrest] at h
  exact ⟨List.append_cancel_right h, hrest⟩

/-! ## Pieces and lines -/

theorem splitOn_cons (sep c : Char) (s : List Char) :
    splitOn sep (c :: s) = splitStep sep c (splitOn sep s) :=
  rfl

/-- The pieces of a text are those of the list library. -/
theorem splitOn_eq_list_splitOn
    (sep : Char) (s : List Char) :
    splitOn sep s = s.splitOn sep := by
  induction s with
  | nil => rfl
  | cons c s ih =>
    rw [splitOn_cons, ih, List.splitOn_cons_eq_if_modifyHead]
    cases hpieces : s.splitOn sep with
    | nil => exact absurd hpieces (List.splitOn_ne_nil sep s)
    | cons piece pieces => simp [splitStep]

/-- Pieces without the separator are found again in their joined text. -/
theorem splitOn_joinWith
    {sep : Char} {pieces : List (List Char)} (hne : pieces ≠ [])
    (hfree : ∀ piece ∈ pieces, sep ∉ piece) :
    splitOn sep (joinWith sep pieces) = pieces := by
  rw [splitOn_eq_list_splitOn, joinWith, List.splitOn_intercalate sep hfree hne]

theorem splitOn_eq_singleton
    {sep : Char} {s : List Char} (hfree : sep ∉ s) :
    splitOn sep s = [s] := by
  have hpieces : splitOn sep (joinWith sep [s]) = [s] :=
    splitOn_joinWith (List.cons_ne_nil s []) (by simpa using hfree)
  simpa [joinWith] using hpieces

/-- A character in front of a text starts a piece of its own, or is in front of the first one. -/
theorem mem_splitOn_cons_cases
    {sep c : Char} {s piece : List Char} (hpiece : piece ∈ splitOn sep (c :: s)) :
    piece = [] ∨ piece ∈ splitOn sep s ∨
      c ≠ sep ∧ ∃ first ∈ splitOn sep s, piece = c :: first := by
  rw [splitOn_cons] at hpiece
  cases hpieces : splitOn sep s with
  | nil => exact absurd hpieces (splitOn_ne_nil sep s)
  | cons first others =>
    rw [hpieces] at hpiece
    by_cases hc : c = sep
    · rw [splitStep, if_pos hc] at hpiece
      rcases List.mem_cons.mp hpiece with rfl | hmem
      · exact Or.inl rfl
      · exact Or.inr (Or.inl hmem)
    · rw [splitStep, if_neg hc] at hpiece
      rcases List.mem_cons.mp hpiece with rfl | hmem
      · exact Or.inr (Or.inr ⟨hc, first, List.mem_cons_self, rfl⟩)
      · exact Or.inr (Or.inl (List.mem_cons_of_mem first hmem))

/-- No piece holds the separator. -/
theorem not_mem_of_mem_splitOn
    {sep : Char} {s piece : List Char} (hpiece : piece ∈ splitOn sep s) :
    sep ∉ piece := by
  induction s generalizing piece with
  | nil =>
    have hnil : piece = [] := by simpa [splitOn] using hpiece
    simp [hnil]
  | cons c s ih =>
    rcases mem_splitOn_cons_cases hpiece with rfl | hmem | ⟨hc, first, hfirst, rfl⟩
    · exact List.not_mem_nil
    · exact ih hmem
    · rw [List.mem_cons, not_or]
      exact ⟨Ne.symm hc, ih hfirst⟩

theorem mem_of_mem_splitOn
    {sep c : Char} {s piece : List Char} (hpiece : piece ∈ splitOn sep s) (hc : c ∈ piece) :
    c ∈ s := by
  induction s generalizing piece with
  | nil =>
    have hnil : piece = [] := by simpa [splitOn] using hpiece
    rwa [hnil] at hc
  | cons d s ih =>
    rcases mem_splitOn_cons_cases hpiece with rfl | hmem | ⟨-, first, hfirst, rfl⟩
    · contradiction
    · exact List.mem_cons_of_mem d (ih hmem hc)
    · rcases List.mem_cons.mp hc with rfl | hc
      · exact List.mem_cons_self
      · exact List.mem_cons_of_mem d (ih hfirst hc)

theorem lines_ne_nil (s : List Char) : lines s ≠ [] :=
  splitOn_ne_nil '\n' s

/-- A text is its lines put together. -/
theorem unlines_lines (s : List Char) : unlines (lines s) = s :=
  joinWith_splitOn '\n' s

theorem unlines_singleton (line : List Char) : unlines [line] = line := by
  simp [unlines, joinWith]

theorem unlines_cons_cons (line next : List Char) (ls : List (List Char)) :
    unlines (line :: next :: ls) = line ++ '\n' :: unlines (next :: ls) := by
  simp [unlines, joinWith, List.intercalate, List.intersperse]

/-- Lines without a line end are the lines of the text that they make. -/
theorem lines_unlines
    {ls : List (List Char)} (hne : ls ≠ []) (hfree : ∀ line ∈ ls, '\n' ∉ line) :
    lines (unlines ls) = ls :=
  splitOn_joinWith hne hfree

theorem newline_not_mem_of_mem_lines
    {s line : List Char} (hline : line ∈ lines s) :
    '\n' ∉ line :=
  not_mem_of_mem_splitOn hline

end SolidWorkshop.Text
