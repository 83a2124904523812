import Mathlib.Data.List.Forall2
import SolidWorkshop.Proofs.Source.Range

/-!
# Lists of options

A trailing comment is a list of options that can be read in one way only exactly if it is one
pair of brackets around options with commas between them, each of them bare or in quotes.  The
reader looks for a range first: a colon can stand in quotes only, and no number has a quote in it.
-/

namespace SolidWorkshop

open Text

/-! ## Characters of cut texts -/

namespace Text

theorem mem_trim
    {c : Char} {s : List Char} (hmem : c ∈ s) (hc : isBlank c = false) :
    c ∈ trim s := by
  have hcut {blank : List Char} (hblank : AllBlank blank) : c ∉ blank := by
    intro hmem'
    exact absurd (hblank c hmem') (by simp [hc])
  obtain ⟨-, front, hfront, hs⟩ := trimStart_eq_iff.mp (rfl : trimStart s = trimStart s)
  obtain ⟨-, back, hback, hs'⟩ := trimEnd_eq_iff.mp (rfl : trimEnd (trimStart s) = trim s)
  rw [hs, hs', List.mem_append, List.mem_append] at hmem
  exact (hmem.resolve_left (hcut hfront)).resolve_right (hcut hback)

theorem exists_mem_splitOn
    {sep c : Char} {s : List Char} (hmem : c ∈ s) (hc : c ≠ sep) :
    ∃ piece ∈ splitOn sep s, c ∈ piece := by
  induction s with
  | nil => contradiction
  | cons d s ih =>
    obtain ⟨first, others, hpieces⟩ := List.exists_cons_of_ne_nil (splitOn_ne_nil sep s)
    rw [hpieces] at ih
    rw [splitOn_cons, hpieces, splitStep]
    split_ifs with hd
    · subst hd
      obtain ⟨piece, hpiece, hin⟩ := ih (List.mem_of_ne_of_mem hc hmem)
      exact ⟨piece, List.mem_cons_of_mem [] hpiece, hin⟩
    · rcases List.mem_cons.mp hmem with rfl | hmem
      · exact ⟨_, List.mem_cons_self, List.mem_cons_self⟩
      · obtain ⟨piece, hpiece, hin⟩ := ih hmem
        rcases List.mem_cons.mp hpiece with rfl | hpiece
        · exact ⟨_, List.mem_cons_self, List.mem_cons_of_mem d hin⟩
        · exact ⟨piece, List.mem_cons_of_mem _ hpiece, hin⟩

end Text

/-! ## Number tokens -/

namespace Numeral

/-- The characters of number tokens. -/
def IsTokenChar (c : Char) : Prop :=
  isDigit c = true ∨ c ∈ ['+', '-', '.', 'e', 'E']

instance (c : Char) : Decidable (IsTokenChar c) :=
  inferInstanceAs (Decidable (_ ∨ _))

theorem isTokenChar_of_takeSign
    {s : List Char} (h : ∀ c ∈ (takeSign s).2, IsTokenChar c) :
    ∀ c ∈ s, IsTokenChar c := by
  unfold takeSign at h
  split at h
  · exact List.forall_mem_cons.mpr ⟨by decide, h⟩
  · exact List.forall_mem_cons.mpr ⟨by decide, h⟩
  · exact h

theorem isTokenChar_of_exponentOf?
    {s : List Char} {exponent : Option (Bool × List Char)}
    (h : exponentOf? s = some exponent) :
    ∀ c ∈ s, IsTokenChar c := by
  cases s with
  | nil => exact List.forall_mem_nil _
  | cons letter rest =>
    unfold exponentOf? at h
    dsimp only at h
    split_ifs at h with hform
    simp only [Bool.and_eq_true, Bool.or_eq_true, decide_eq_true_eq, List.all_eq_true] at hform
    obtain ⟨⟨hletter, -⟩, hdigits⟩ := hform
    refine List.forall_mem_cons.mpr ⟨?_, isTokenChar_of_takeSign fun c hc => Or.inl (hdigits c hc)⟩
    rcases hletter with rfl | rfl
    · decide
    · decide

/-- A number token has nothing but digits, signs, a point and the letter of an exponent in it. -/
theorem isTokenChar_of_ofChars?
    {s : List Char} {n : Numeral} (h : Numeral.ofChars? s = some n) :
    ∀ c ∈ s, IsTokenChar c := by
  have hdigits (s : List Char) : ∀ c ∈ s.takeWhile isDigit, IsTokenChar c :=
    fun c hc => Or.inl (List.mem_takeWhile_imp hc)
  unfold Numeral.ofChars? at h
  apply isTokenChar_of_takeSign
  generalize takeSign s = signed at h
  obtain ⟨negative, s⟩ := signed
  dsimp only at h ⊢
  rw [← List.takeWhile_append_dropWhile (p := isDigit) (l := s)]
  split at h
  · next rest hrest =>
    split_ifs at h
    obtain ⟨exponent, hexponent, -⟩ := Option.map_eq_some_iff.mp h
    rw [hrest, List.forall_mem_append, List.forall_mem_cons,
      ← List.takeWhile_append_dropWhile (p := isDigit) (l := rest), List.forall_mem_append]
    exact ⟨hdigits s, by decide, hdigits rest, isTokenChar_of_exponentOf? hexponent⟩
  · split_ifs at h
    obtain ⟨exponent, hexponent, -⟩ := Option.map_eq_some_iff.mp h
    exact List.forall_mem_append.mpr ⟨hdigits s, isTokenChar_of_exponentOf? hexponent⟩

end Numeral

theorem quote_not_mem_of_isNumeral
    {token : List Char} (h : isNumeral token = true) :
    '"' ∉ token := by
  intro hmem
  obtain ⟨n, hn⟩ := Option.isSome_iff_exists.mp h
  exact absurd (Numeral.isTokenChar_of_ofChars? hn _ (mem_trim hmem (by decide))) (by decide)

namespace Source

/-! ## The forms of an option -/

/-- A text that can stand in quotes: it has none of the characters in it that end a quoted option,
a piece of a list, or the list. -/
def IsQuotable (text : List Char) : Prop :=
  ∀ c ∈ text, c ≠ '"' ∧ c ≠ ',' ∧ c ≠ ']'

/-- The forms of an option in a list: in quotes, without a quote inside, or bare, if it is not
empty and none of the characters that structure a comment is in it. -/
inductive SpellsOption : List Char → List Char → Prop
  | quoted {text : List Char} (hfree : '"' ∉ text) : SpellsOption ('"' :: (text ++ ['"'])) text
  | bare {text : List Char} (hne : text ≠ [])
      (hfree : ∀ c ∈ text, c ∉ ['"', ',', ':', '[', ']']) : SpellsOption text text

theorem isBareOption_iff {token : List Char} :
    isBareOption token = true ↔ token ≠ [] ∧ ∀ c ∈ token, c ∉ ['"', ',', ':', '[', ']'] := by
  simp [isBareOption]

theorem isQuotedOption_iff {token : List Char} :
    isQuotedOption token = true ↔ ∃ text, '"' ∉ text ∧ token = '"' :: (text ++ ['"']) := by
  constructor
  · intro h
    unfold isQuotedOption at h
    split at h
    · next rest =>
      simp only [Bool.and_eq_true, beq_iff_eq, List.all_eq_true, bne_iff_ne] at h
      obtain ⟨hlast, hfree⟩ := h
      refine ⟨rest.dropLast, fun hmem => hfree _ hmem rfl, ?_⟩
      rw [List.dropLast_append_getLast? _ hlast]
    · contradiction
  · rintro ⟨text, hfree, rfl⟩
    simpa [isQuotedOption] using fun c hc => ne_of_mem_of_not_mem hc hfree

theorem unquote_quoted (text : List Char) :
    unquote ('"' :: (text ++ ['"'])) = text := by
  simp [unquote]

theorem unquote_of_not_mem
    {token : List Char} (hfree : '"' ∉ token) :
    unquote token = token := by
  have hhead : token.head? ≠ some '"' := fun h => hfree (List.mem_of_mem_head? h)
  have hlast : token.getLast? ≠ some '"' := fun h => hfree (List.mem_of_mem_getLast? h)
  simp [unquote, hhead, hlast]

/-- The forms of an option are those that the reader does not flag, and it takes the quotes
off. -/
theorem spellsOption_iff {token text : List Char} :
    SpellsOption token text ↔
      (isBareOption token || isQuotedOption token) = true ∧ unquote token = text := by
  rw [Bool.or_eq_true, isBareOption_iff, isQuotedOption_iff]
  constructor
  · rintro (hfree | ⟨hne, hfree⟩)
    · exact ⟨Or.inr ⟨text, hfree, rfl⟩, unquote_quoted text⟩
    · exact ⟨Or.inl ⟨hne, hfree⟩, unquote_of_not_mem fun hmem => hfree _ hmem (by simp)⟩
  · rintro ⟨⟨hne, hfree⟩ | ⟨text', hfree, rfl⟩, rfl⟩
    · rw [unquote_of_not_mem fun hmem => hfree _ hmem (by simp)]
      exact .bare hne hfree
    · rw [unquote_quoted]
      exact .quoted hfree

theorem SpellsOption.mem
    {token text : List Char} (h : SpellsOption token text) {c : Char} (hc : c ∈ text) :
    c ∈ token ∧ c ≠ '"' := by
  cases h with
  | quoted hfree => exact ⟨by simp [hc], ne_of_mem_of_not_mem hc hfree⟩
  | bare _ hfree =>
    refine ⟨hc, ?_⟩
    rintro rfl
    exact hfree _ hc (by simp)

/-! ## Lists -/

/-- The pieces between the commas, blank ends aside, are the options in some form. -/
def SpellsList (inner : List Char) (tokens : List String) : Prop :=
  List.Forall₂ (fun piece token => SpellsOption (trim piece) token.toList) (splitOn ',' inner)
    tokens

theorem spellsList_iff {inner : List Char} {tokens : List String} :
    SpellsList inner tokens ↔
      (∀ piece ∈ splitOn ',' inner, SpellsOption (trim piece) (unquote (trim piece))) ∧
      (splitOn ',' inner).map (fun piece => String.ofList (unquote (trim piece))) = tokens := by
  have hform (piece : List Char) (token : String) :
      SpellsOption (trim piece) token.toList ↔
        SpellsOption (trim piece) (unquote (trim piece)) ∧
          String.ofList (unquote (trim piece)) = token := by
    rw [spellsOption_iff, spellsOption_iff, ← String.toList_inj, String.toList_ofList]
    simp only [and_true]
  simp only [SpellsList, hform]
  rw [List.forall₂_and_left, ← List.forall₂_map_left_iff, List.forall₂_eq_eq_eq]

theorem optionsOf_eq_iff {inner : List Char} {tokens : List String} :
    optionsOf inner = .options tokens false ↔ SpellsList inner tokens := by
  rw [spellsList_iff, optionsOf, Annotation.options.injEq, and_comm]
  simp [spellsOption_iff, Function.comp_def, or_iff_not_imp_left]

/-- A comment that spells a list of options is no range: an option with a colon in it stands in
quotes, and one of these would be in an operand. -/
theorem SpellsList.not_isRange
    {inner : List Char} {tokens : List String} (h : SpellsList inner tokens) :
    ¬IsRange inner := by
  rintro ⟨hoperands, hnumerals⟩
  have hcolon : ':' ∈ inner := by
    by_contra hfree
    have hparts : rangeParts inner = [trim inner] :=
      splitOn_eq_singleton fun hmem => hfree (mem_of_mem_trim hmem)
    simp [hparts, operands?] at hoperands
  obtain ⟨piece, hpiece, hmem⟩ := exists_mem_splitOn hcolon (by decide : ':' ≠ ',')
  have hquote : '"' ∈ trim piece := by
    have hmem' := mem_trim hmem isBlank_colon
    have hoption := (spellsList_iff.mp h).1 piece hpiece
    generalize trim piece = token, unquote (trim piece) = text at hoption hmem' ⊢
    cases hoption with
    | quoted => exact List.mem_cons_self
    | bare _ hfree => exact absurd (hfree _ hmem') (by decide)
  have hquote' := mem_of_mem_splitOn hpiece (mem_of_mem_trim hquote)
  obtain ⟨part, hpart, hin⟩ :=
    exists_mem_splitOn (mem_trim hquote' (by decide)) (by decide : '"' ≠ ':')
  exact quote_not_mem_of_isNumeral (List.all_eq_true.mp hnumerals part hpart) hin

theorem SpellsList.ne_nil
    {inner : List Char} {tokens : List String} (h : SpellsList inner tokens) :
    inner ≠ [] := by
  rintro rfl
  have hoption := (spellsList_iff.mp h).1 [] (List.mem_singleton_self [])
  cases hoption with
  | bare hne => exact hne rfl

/-- A list has at least one option, and none has a character in it that ends it. -/
theorem SpellsList.isQuotable
    {inner : List Char} {tokens : List String} (h : SpellsList inner tokens)
    (hbracket : ']' ∉ inner) :
    tokens ≠ [] ∧ ∀ token ∈ tokens, IsQuotable token.toList := by
  obtain ⟨hoptions, rfl⟩ := spellsList_iff.mp h
  refine ⟨by simp [splitOn_ne_nil], ?_⟩
  intro token htoken
  obtain ⟨piece, hpiece, rfl⟩ := List.mem_map.mp htoken
  rw [String.toList_ofList]
  intro c hc
  obtain ⟨hmem, hquote⟩ := (hoptions piece hpiece).mem hc
  have hmem' := mem_of_mem_trim hmem
  refine ⟨hquote, ?_, ?_⟩
  · rintro rfl
    exact not_mem_of_mem_splitOn hpiece hmem'
  · rintro rfl
    exact hbracket (mem_of_mem_splitOn hpiece hmem')

/-! ## Comments -/

/-- The comment, blank ends aside, is one pair of brackets without a closing bracket inside, and
what is inside spells the list. -/
def SpellsOptions (comment : List Char) (tokens : List String) : Prop :=
  ∃ inner, trim comment = '[' :: (inner ++ [']']) ∧ ']' ∉ inner ∧ SpellsList inner tokens

theorem range?_eq_none
    {inner : List Char} (h : ¬IsRange inner) :
    range? inner = .ok none := by
  unfold range?
  dsimp only
  split
  · rfl
  · next low step high hoperands =>
    rw [if_pos]
    by_contra hnumerals
    exact h ⟨by rw [rangeParts, hoperands]; rfl, by simpa [rangeParts] using hnumerals⟩

/-- Nothing but a range is read as one. -/
theorem exists_range_of_range?
    {inner : List Char} {note : Annotation} (h : range? inner = .ok (some note)) :
    ∃ low step high, note = .range low step high := by
  unfold range? at h
  dsimp only at h
  split at h
  · cases h
  · split_ifs at h
    · cases h
    obtain ⟨low, -, h⟩ := Failure.bind_eq_ok_iff.mp h
    obtain ⟨step, -, h⟩ := Failure.bind_eq_ok_iff.mp h
    obtain ⟨high, -, h⟩ := Failure.bind_eq_ok_iff.mp h
    split at h
    · obtain ⟨⟩ := h
      exact ⟨_, _, _, rfl⟩
    · obtain ⟨⟩ := h
      exact ⟨_, _, _, rfl⟩
    · cases h

theorem ofChars_eq_options_iff {comment : List Char} {tokens : List String} :
    Annotation.ofChars comment = .ok (.options tokens false) ↔ SpellsOptions comment tokens := by
  constructor
  · intro h
    unfold Annotation.ofChars at h
    dsimp only at h
    split_ifs at h with hempty
    · cases h
    split at h
    · cases h
    · next inner hbracket =>
      obtain ⟨-, hfree, htrim⟩ := wholeBracket?_eq_some_iff.mp hbracket
      obtain ⟨found, hfound, hnote⟩ := Failure.bind_eq_ok_iff.mp h
      refine ⟨inner, htrim, hfree, optionsOf_eq_iff.mp ?_⟩
      cases found with
      | none => exact Except.ok.inj hnote
      | some note =>
        obtain ⟨_, _, _, rfl⟩ := exists_range_of_range? hfound
        cases hnote
  · rintro ⟨inner, htrim, hfree, hlist⟩
    have hbracket := wholeBracket?_eq_some_iff.mpr ⟨hlist.ne_nil, hfree, htrim⟩
    have hempty : (trim comment).isEmpty = false := by simp [htrim]
    unfold Annotation.ofChars
    simp only [hempty, hbracket, range?_eq_none hlist.not_isRange]
    exact congrArg Except.ok (optionsOf_eq_iff.mpr hlist)

/-! ## Written lists -/

/-- A text in quotes with white space around it. -/
structure QuotedOption where
  front : List Char
  text : String
  back : List Char

namespace QuotedOption

/-- The characters of a quoted option. -/
def chars (e : QuotedOption) : List Char :=
  e.front ++ '"' :: (e.text.toList ++ '"' :: e.back)

/-- Nothing in the text ends it early, and there is only white space around the quotes. -/
structure WellFormed (e : QuotedOption) : Prop where
  front : AllBlank e.front
  text : IsQuotable e.text.toList
  back : AllBlank e.back

instance (e : QuotedOption) : Decidable e.WellFormed :=
  decidable_of_iff
    (e.front.all isBlank = true ∧
      (e.text.toList.all fun c => c ≠ '"' ∧ c ≠ ',' ∧ c ≠ ']') = true ∧
      e.back.all isBlank = true)
    ⟨fun ⟨hfront, htext, hback⟩ => ⟨List.all_eq_true.mp hfront,
        fun c hc => of_decide_eq_true (List.all_eq_true.mp htext c hc),
        List.all_eq_true.mp hback⟩,
      fun h => ⟨List.all_eq_true.mpr h.front,
        List.all_eq_true.mpr fun c hc => decide_eq_true (h.text c hc),
        List.all_eq_true.mpr h.back⟩⟩

theorem WellFormed.trim_chars
    {e : QuotedOption} (he : e.WellFormed) :
    trim e.chars = '"' :: (e.text.toList ++ ['"']) := by
  have hchars : e.chars = e.front ++ ('"' :: (e.text.toList ++ ['"']) ++ e.back) := by
    simp [chars]
  have hstart : trimStart e.chars = trimStart ('"' :: (e.text.toList ++ ['"']) ++ e.back) := by
    rw [hchars, trimStart_append_of_allBlank he.front]
  have hquotes : trim ('"' :: (e.text.toList ++ ['"'])) = '"' :: (e.text.toList ++ ['"']) :=
    trim_eq_self (noBlankStart_cons (by decide))
      (noBlankEnd_concat (s := '"' :: e.text.toList) (by decide))
  calc trim e.chars = trim ('"' :: (e.text.toList ++ ['"']) ++ e.back) := congrArg trimEnd hstart
    _ = trim ('"' :: (e.text.toList ++ ['"'])) := trim_append_of_allBlank he.back _
    _ = '"' :: (e.text.toList ++ ['"']) := hquotes

/-- No separator is in a quoted option. -/
theorem WellFormed.not_mem_chars
    {e : QuotedOption} (he : e.WellFormed) {c : Char} (hc : c = ',' ∨ c = ']') :
    c ∉ e.chars := by
  have hblank : isBlank c = false := by
    rcases hc with rfl | rfl
    · decide
    · decide
  have hcut {blank : List Char} (h : AllBlank blank) : c ∉ blank := by
    intro hmem
    exact absurd (h c hmem) (by simp [hblank])
  have htext : c ∉ e.text.toList := by
    intro hmem
    obtain ⟨-, hcomma, hbracket⟩ := he.text c hmem
    exact hc.elim hcomma hbracket
  have hquote : c ≠ '"' := by
    rcases hc with rfl | rfl
    · decide
    · decide
  simp [chars, hcut he.front, hcut he.back, htext, hquote]

end QuotedOption

/-- A pair of brackets around quoted options with commas between them. -/
def bracketOptions (entries : List QuotedOption) : List Char :=
  '[' :: (joinWith ',' (entries.map QuotedOption.chars) ++ [']'])

theorem spellsOptions_bracketOptions
    {entries : List QuotedOption} (hne : entries ≠ []) (hentries : ∀ e ∈ entries, e.WellFormed) :
    SpellsOptions (bracketOptions entries) (entries.map QuotedOption.text) := by
  have hpieces : splitOn ',' (joinWith ',' (entries.map QuotedOption.chars)) =
      entries.map QuotedOption.chars := by
    apply splitOn_joinWith (by simpa using hne)
    rw [List.forall_mem_map]
    exact fun e he => (hentries e he).not_mem_chars (Or.inl rfl)
  refine ⟨joinWith ',' (entries.map QuotedOption.chars), ?_, ?_, ?_⟩
  · exact trim_eq_self (noBlankStart_cons (by decide))
      (noBlankEnd_concat (s := '[' :: joinWith ',' (entries.map QuotedOption.chars)) (by decide))
  · intro hmem
    obtain ⟨piece, hpiece, hin⟩ := exists_mem_splitOn hmem (by decide : ']' ≠ ',')
    rw [hpieces] at hpiece
    obtain ⟨e, he, rfl⟩ := List.mem_map.mp hpiece
    exact (hentries e he).not_mem_chars (Or.inr rfl) hin
  · rw [SpellsList, hpieces, List.forall₂_map_left_iff, List.forall₂_map_right_iff,
      List.forall₂_same]
    intro e he
    rw [(hentries e he).trim_chars]
    exact .quoted fun hmem => ((hentries e he).text _ hmem).1 rfl

/-- A text in quotes without white space around it. -/
def QuotedOption.plain (text : String) : QuotedOption :=
  ⟨[], text, []⟩

/-- A comment is read as a list of options without a flag exactly if it spells the list.  Texts
without double quotes, commas and closing brackets are read back from a list of quoted options,
whatever white space is around the quotes, and every option that is read without a flag is such a
text, so the options can be written in quotes again. -/
theorem ofChars_reads_options_exactly :
    (∀ comment tokens, Annotation.ofChars comment = .ok (.options tokens false) ↔
      SpellsOptions comment tokens) ∧
    (∀ entries : List QuotedOption, entries ≠ [] → (∀ e ∈ entries, e.WellFormed) →
      Annotation.ofChars (bracketOptions entries) =
        .ok (.options (entries.map QuotedOption.text) false)) ∧
    ∀ comment tokens, Annotation.ofChars comment = .ok (.options tokens false) →
      tokens ≠ [] ∧ (∀ token ∈ tokens, IsQuotable token.toList) ∧
      Annotation.ofChars (bracketOptions (tokens.map .plain)) =
        .ok (.options tokens false) := by
  refine ⟨fun _ _ => ofChars_eq_options_iff, ?_, ?_⟩
  · intro entries hne hentries
    exact ofChars_eq_options_iff.mpr (spellsOptions_bracketOptions hne hentries)
  · intro comment tokens hread
    obtain ⟨inner, -, hbracket, hlist⟩ := ofChars_eq_options_iff.mp hread
    obtain ⟨hne, hquotable⟩ := hlist.isQuotable hbracket
    refine ⟨hne, hquotable, ?_⟩
    have hwellFormed : ∀ e ∈ tokens.map QuotedOption.plain, e.WellFormed := by
      rw [List.forall_mem_map]
      exact fun token htoken =>
        ⟨List.forall_mem_nil _, hquotable token htoken, List.forall_mem_nil _⟩
    have hspells := spellsOptions_bracketOptions (by simpa using hne) hwellFormed
    have htexts : (tokens.map QuotedOption.plain).map QuotedOption.text = tokens := by
      rw [List.map_map]
      exact List.map_id tokens
    rw [htexts] at hspells
    exact ofChars_eq_options_iff.mpr hspells

/-- A colon in quotes makes no range, an empty text and an opening bracket can stand in quotes, and
white space inside the quotes belongs to the text.  Options can be bare and in quotes in one
list. -/
theorem ofChars_reads_options_exactly_of_mixed :
    Annotation.ofChars "[ \"1:2\",\t\"\" , \"[ x \"]".toList =
      .ok (.options ["1:2", "", "[ x "] false) ∧
    Annotation.ofChars " [ 10, \"b:c\",x-y ] ".toList =
      .ok (.options ["10", "b:c", "x-y"] false) ∧
    SpellsOptions " [ 10, \"b:c\",x-y ] ".toList ["10", "b:c", "x-y"] ∧
    Annotation.ofChars "[\"10\",\"b:c\",\"x-y\"]".toList =
      .ok (.options ["10", "b:c", "x-y"] false) := by
  obtain ⟨hiff, hwritten, hread⟩ := ofChars_reads_options_exactly
  have hmixed : Annotation.ofChars " [ 10, \"b:c\",x-y ] ".toList =
      .ok (.options ["10", "b:c", "x-y"] false) :=
    Failure.eq_ok_of_toOption (by decide +kernel)
  refine ⟨?_, hmixed, (hiff _ _).mp hmixed, (hread _ _ hmixed).2.2⟩
  exact hwritten [⟨[' '], "1:2", []⟩, ⟨['\t'], "", [' ']⟩, ⟨[' '], "[ x ", []⟩] nofun
    (by decide +kernel)

end Source

end SolidWorkshop
