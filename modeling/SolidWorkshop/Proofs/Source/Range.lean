import SolidWorkshop.Proofs.Number.Exact
import SolidWorkshop.Proofs.Source.Reading

/-!
# Ranges

A trailing comment is a range exactly if it is one pair of brackets around two or three numbers
with colons between them.  The reader trims what stands in the brackets, cuts it at the colons,
looks at the form of the pieces and reads them, in this order; cutting alone and reading each
piece comes to the same.
-/

namespace SolidWorkshop

open Text

/-! ## Pieces and their blank ends -/

namespace Text

/-- What is in front of a piece is trimmed with it, if it is blank. -/
theorem map_trim_splitOn_append_left
    {sep : Char} (hsep : isBlank sep = false) {blank : List Char} (hblank : AllBlank blank)
    (s : List Char) :
    (splitOn sep (blank ++ s)).map trim = (splitOn sep s).map trim := by
  induction blank with
  | nil => rfl
  | cons c blank ih =>
    obtain ⟨hc, hblank⟩ := List.forall_mem_cons.mp hblank
    have hne : c ≠ sep := by
      rintro rfl
      exact absurd hc (by simp [hsep])
    rw [← ih hblank, List.cons_append, splitOn_cons]
    obtain ⟨piece, pieces, hpieces⟩ :=
      List.exists_cons_of_ne_nil (splitOn_ne_nil sep (blank ++ s))
    have htrim : trim (c :: piece) = trim piece := by
      rw [trim, trimStart, List.dropWhile_cons_of_pos hc]
      rfl
    rw [hpieces, splitStep, if_neg hne, List.map_cons, List.map_cons, htrim]

theorem map_trimEnd_splitStep
    {sep c : Char} {ps qs : List (List Char)} (h : ps.map trimEnd = qs.map trimEnd) :
    (splitStep sep c ps).map trimEnd = (splitStep sep c qs).map trimEnd := by
  cases ps with
  | nil =>
    obtain rfl : qs = [] := by simpa using h.symm
    rfl
  | cons p ps =>
    obtain ⟨q, qs, rfl⟩ := List.exists_cons_of_ne_nil (l := qs) (by rintro rfl; simp at h)
    obtain ⟨hhead, htail⟩ := List.cons.inj h
    have hcons : trimEnd (c :: p) = trimEnd (c :: q) := by
      unfold trimEnd at hhead ⊢
      rw [dropEndWhile_cons, dropEndWhile_cons, hhead]
    by_cases hc : c = sep
    · simp [splitStep, hc, hhead, htail]
    · simp [splitStep, hc, hcons, htail]

/-- What is behind a piece is trimmed with it, if it is blank.  Only the end is trimmed at first,
since a blank start of a piece is part of the text in front. -/
theorem map_trim_splitOn_append_right
    {sep : Char} (hsep : isBlank sep = false) {blank : List Char} (hblank : AllBlank blank)
    (s : List Char) :
    (splitOn sep (s ++ blank)).map trim = (splitOn sep s).map trim := by
  have hend : (splitOn sep (s ++ blank)).map trimEnd = (splitOn sep s).map trimEnd := by
    induction s with
    | nil =>
      have hfree : sep ∉ blank := fun hmem => absurd (hblank sep hmem) (by simp [hsep])
      have hnil : trimEnd blank = trimEnd [] := trimEnd_append_of_allBlank hblank []
      rw [List.nil_append, splitOn_eq_singleton hfree, splitOn_eq_singleton List.not_mem_nil,
        List.map_singleton, List.map_singleton, hnil]
    | cons c s ih =>
      rw [List.cons_append, splitOn_cons, splitOn_cons]
      exact map_trimEnd_splitStep ih
  have htrim : trim ∘ trimEnd = trim := funext trim_trimEnd
  have hmap := congrArg (List.map trim) hend
  rwa [List.map_map, List.map_map, htrim] at hmap

/-- Trimming a text and trimming its pieces comes to trimming its pieces. -/
theorem map_trim_splitOn_trim
    {sep : Char} (hsep : isBlank sep = false) (s : List Char) :
    (splitOn sep (trim s)).map trim = (splitOn sep s).map trim := by
  obtain ⟨-, front, hfront, hs⟩ := trimStart_eq_iff.mp (rfl : trimStart s = trimStart s)
  obtain ⟨-, back, hback, hs'⟩ := trimEnd_eq_iff.mp (rfl : trimEnd (trimStart s) = trim s)
  change trimStart s = trim s ++ back at hs'
  rw [← map_trim_splitOn_append_right hsep hback (trim s), ← hs',
    ← map_trim_splitOn_append_left hsep hfront (trimStart s), ← hs]

end Text

/-! ## Operands -/

theorem Number.ofChars?_trim (token : List Char) :
    Number.ofChars? (trim token) = Number.ofChars? token := by
  rw [Number.ofChars?, Number.ofChars?, trim_trim]

theorem isNumeral_of_ofChars?
    {token : List Char} {x : Number} (h : Number.ofChars? token = .ok (some x)) :
    isNumeral token = true := by
  unfold Number.ofChars? at h
  unfold isNumeral
  cases hn : Numeral.ofChars? (trim token) with
  | none => simp [hn] at h
  | some n => rfl

namespace Source

/-- Two or three pieces that are read, blank ends aside, as the numbers of a range: the smallest
value, the step if there is one, and the largest value. -/
inductive ReadAsRange : List (List Char) → Number → Option Number → Number → Prop
  | pair {first last : List Char} {low high : Number}
      (hlow : Number.ofChars? (trim first) = .ok (some low))
      (hhigh : Number.ofChars? (trim last) = .ok (some high)) :
      ReadAsRange [first, last] low none high
  | triple {first middle last : List Char} {low step high : Number}
      (hlow : Number.ofChars? (trim first) = .ok (some low))
      (hstep : Number.ofChars? (trim middle) = .ok (some step))
      (hhigh : Number.ofChars? (trim last) = .ok (some high)) :
      ReadAsRange [first, middle, last] low (some step) high

/-- Blank ends of the pieces do not matter. -/
theorem ReadAsRange.of_map_trim_eq
    {ps qs : List (List Char)} {low high : Number} {step : Option Number}
    (h : ReadAsRange ps low step high) (hsame : ps.map trim = qs.map trim) :
    ReadAsRange qs low step high := by
  cases h with
  | @pair first last _ _ hlow hhigh =>
    rw [List.map_cons, List.map_cons, List.map_nil, eq_comm, List.map_eq_cons_iff] at hsame
    obtain ⟨first', rest, rfl, hfirst, hrest⟩ := hsame
    obtain ⟨last', rfl, hlast⟩ := List.map_eq_singleton_iff.mp hrest
    exact .pair (hfirst ▸ hlow) (hlast ▸ hhigh)
  | @triple first middle last _ _ _ hlow hstep hhigh =>
    rw [List.map_cons, List.map_cons, List.map_cons, List.map_nil, eq_comm,
      List.map_eq_cons_iff] at hsame
    obtain ⟨first', rest, rfl, hfirst, hrest⟩ := hsame
    obtain ⟨middle', rest', rfl, hmiddle, hrest'⟩ := List.map_eq_cons_iff.mp hrest
    obtain ⟨last', rfl, hlast⟩ := List.map_eq_singleton_iff.mp hrest'
    exact .triple (hfirst ▸ hlow) (hmiddle ▸ hstep) (hlast ▸ hhigh)

theorem isBlank_colon : isBlank ':' = false := by decide

theorem readAsRange_rangeParts_iff
    {inner : List Char} {low high : Number} {step : Option Number} :
    ReadAsRange (rangeParts inner) low step high ↔
      ReadAsRange (splitOn ':' inner) low step high := by
  have hsame := map_trim_splitOn_trim isBlank_colon inner
  exact ⟨fun h => h.of_map_trim_eq hsame, fun h => h.of_map_trim_eq hsame.symm⟩

theorem isRange_of_readAsRange
    {inner : List Char} {low high : Number} {step : Option Number}
    (h : ReadAsRange (rangeParts inner) low step high) :
    IsRange inner := by
  have hnumeral {token : List Char} {x : Number}
      (hread : Number.ofChars? (trim token) = .ok (some x)) : isNumeral token = true :=
    isNumeral_of_ofChars? (Number.ofChars?_trim token ▸ hread)
  unfold IsRange
  generalize rangeParts inner = parts at h
  cases h with
  | pair hlow hhigh => simp [operands?, hnumeral hlow, hnumeral hhigh]
  | triple hlow hstep hhigh =>
    simp [operands?, hnumeral hlow, hnumeral hstep, hnumeral hhigh]

/-- What stands in brackets is read as a range exactly if its pieces are. -/
theorem range?_eq_iff
    {inner : List Char} {low high : Number} {step : Option Number} :
    range? inner = .ok (some (.range low step high)) ↔
      ReadAsRange (rangeParts inner) low step high := by
  constructor
  · intro h
    unfold range? at h
    dsimp only at h
    split at h
    · cases h
    · next first middle last hoperands =>
      have hparts : rangeParts inner = first :: (middle.toList ++ [last]) :=
        operands?_eq_some_iff.mp hoperands
      rw [hparts]
      split_ifs at h with hnumerals
      · cases h
      obtain ⟨low', hlow, h⟩ := Failure.bind_eq_ok_iff.mp h
      obtain ⟨step', hstep, h⟩ := Failure.bind_eq_ok_iff.mp h
      obtain ⟨high', hhigh, h⟩ := Failure.bind_eq_ok_iff.mp h
      cases middle with
      | none =>
        obtain rfl : none = step' := Except.ok.inj hstep
        match low', high', h with
        | some low', some high', h =>
          obtain ⟨⟩ := h
          exact .pair (Number.ofChars?_trim first ▸ hlow) (Number.ofChars?_trim last ▸ hhigh)
      | some middle =>
        obtain ⟨step'', hmiddle, hsome⟩ := Failure.bind_eq_ok_iff.mp hstep
        obtain rfl : some step'' = step' := Except.ok.inj hsome
        match low', step'', high', h with
        | some low', some step'', some high', h =>
          obtain ⟨⟩ := h
          exact .triple (Number.ofChars?_trim first ▸ hlow)
            (Number.ofChars?_trim middle ▸ hmiddle) (Number.ofChars?_trim last ▸ hhigh)
  · intro h
    have hnumerals := (isRange_of_readAsRange h).2
    unfold range?
    unfold rangeParts at h hnumerals
    dsimp only
    generalize splitOn ':' (trim inner) = parts at h hnumerals
    cases h with
    | pair hlow hhigh =>
      rw [Number.ofChars?_trim] at hlow hhigh
      simp only [operands?, hnumerals, hlow, hhigh]
      rfl
    | triple hlow hstep hhigh =>
      rw [Number.ofChars?_trim] at hlow hstep hhigh
      simp only [operands?, hnumerals, hlow, hhigh, Option.mapM_some, hstep]
      rfl

/-! ## Brackets -/

theorem bracketed?_eq_some_iff
    {s inner after : List Char} :
    bracketed? s = some (inner, after) ↔
      inner ≠ [] ∧ ']' ∉ inner ∧ s = '[' :: (inner ++ ']' :: after) := by
  constructor
  · intro h
    unfold bracketed? at h
    split at h
    · next rest =>
      dsimp only at h
      split at h
      · next after' hafter =>
        split_ifs at h with hempty
        obtain ⟨rfl, rfl⟩ := Prod.mk.inj (Option.some.inj h)
        refine ⟨by simpa using hempty, fun hmem => ?_, ?_⟩
        · simpa using List.mem_takeWhile_imp hmem
        · rw [← hafter, List.takeWhile_append_dropWhile]
      · contradiction
    · contradiction
  · rintro ⟨hne, hfree, rfl⟩
    have hword : ∀ c ∈ inner, (c != ']') = true := by
      rintro c hc
      exact bne_iff_ne.mpr (ne_of_mem_of_not_mem hc hfree)
    have hend : ∀ c, (']' :: after).head? = some c → (c != ']') = false := by simp
    obtain ⟨htake, hdrop⟩ := takeWhile_append_of_all hword hend
    have hempty : inner.isEmpty = false := by simpa using hne
    simp only [bracketed?, htake, hdrop, hempty]
    rfl

theorem wholeBracket?_eq_some_iff
    {s inner : List Char} :
    wholeBracket? s = some inner ↔
      inner ≠ [] ∧ ']' ∉ inner ∧ s = '[' :: (inner ++ [']']) := by
  rw [← bracketed?_eq_some_iff]
  unfold wholeBracket?
  split
  · next inner' h => simp [h]
  · next hother =>
    refine iff_of_false nofun fun h => ?_
    exact hother inner h

/-! ## Comments -/

/-- The comment, blank ends aside, is one pair of brackets without a closing bracket inside, and
the pieces between the colons inside are read as the numbers of a range. -/
def SpellsRange (comment : List Char) (low : Number) (step : Option Number) (high : Number) :
    Prop :=
  ∃ inner, trim comment = '[' :: (inner ++ [']']) ∧ ']' ∉ inner ∧
    ReadAsRange (splitOn ':' inner) low step high

/-- The pieces between the colons in a comment that is one pair of brackets. -/
def IsOperand (comment token : List Char) : Prop :=
  ∃ inner, trim comment = '[' :: (inner ++ [']']) ∧ ']' ∉ inner ∧ token ∈ splitOn ':' inner

theorem ofChars_eq_range_iff
    {comment : List Char} {low high : Number} {step : Option Number} :
    Annotation.ofChars comment = .ok (.range low step high) ↔
      SpellsRange comment low step high := by
  constructor
  · intro h
    unfold Annotation.ofChars at h
    dsimp only at h
    split_ifs at h with hempty
    · cases h
    split at h
    · cases h
    · next inner hbracket =>
      obtain ⟨-, hfree, htrim⟩ := wholeBracket?_eq_some_iff.mp hbracket
      obtain ⟨found, hfound, hnote⟩ := Failure.bind_eq_ok_iff.mp h
      cases found with
      | none => cases hnote
      | some note =>
        obtain rfl : note = .range low step high := Except.ok.inj hnote
        exact ⟨inner, htrim, hfree, readAsRange_rangeParts_iff.mp (range?_eq_iff.mp hfound)⟩
  · rintro ⟨inner, htrim, hfree, hread⟩
    have hne : inner ≠ [] := by
      rintro rfl
      cases hread
    have hbracket := wholeBracket?_eq_some_iff.mpr ⟨hne, hfree, htrim⟩
    have hfound := range?_eq_iff.mpr (readAsRange_rangeParts_iff.mpr hread)
    have hempty : (trim comment).isEmpty = false := by simp [htrim]
    unfold Annotation.ofChars
    simp only [hempty, hbracket, hfound]
    rfl

/-- A comment is read unless one of its operands has too many digits. -/
theorem exists_ofChars_eq_ok
    {comment : List Char} (hshort : ∀ token, IsOperand comment token → ¬IsOverlong token) :
    ∃ note, Annotation.ofChars comment = .ok note := by
  apply (stopsIf_comment comment).ok
  rintro ⟨inner, hbracket, -, token, htoken, hlong⟩
  obtain ⟨-, hfree, htrim⟩ := wholeBracket?_eq_some_iff.mp hbracket
  have hpiece : trim token ∈ (splitOn ':' inner).map trim := by
    rw [← map_trim_splitOn_trim isBlank_colon]
    exact List.mem_map_of_mem htoken
  obtain ⟨piece, hmem, hsame⟩ := List.mem_map.mp hpiece
  apply hshort piece ⟨inner, htrim, hfree, hmem⟩
  rw [← isOverlong_trim_iff, hsame]
  exact isOverlong_trim_iff.mpr hlong

end Source

/-! ## Ranges of written numbers -/

/-- A finite number that is short enough to be written. -/
structure Number.IsWritable (x : Number) : Prop where
  isFinite : x.isFinite = true
  short : ∀ n, x = .int n → (toString n.natAbs).length ≤ Numeral.digitLimit

/-- A number can be written as a text without colons and brackets that is read as an equal
number. -/
theorem Number.IsWritable.exists_literal
    {x : Number} (hx : x.IsWritable) :
    ∃ s, numberLiteral x.toValue = .ok s ∧ (∀ c ∈ s.toList, Numeral.IsNumeralChar c) ∧
      ∃ y, Number.ofChars? (trim s.toList) = .ok (some y) ∧ x.eq y = true := by
  have hplain : (Scalar.ofNumber x).IsPlain := by
    cases x with
    | int n => exact hx.short n rfl
    | float x => exact trivial
  obtain ⟨n, hn, hliteral, y, hnumber, heq⟩ := exists_plain_numberLiteral hx.isFinite hplain
  refine ⟨_, hliteral, ?_, y, ?_, ?_⟩
  · rw [String.toList_ofList]
    exact fun c hc => hn.isNumeralChar hc
  · rw [Number.ofChars?_trim, String.toList_ofList, hn.ofChars?_eq_number?, hnumber]
  · rwa [Scalar.eq_ofNumber] at heq

namespace Source

/-- Numbers that are written between brackets, with colons between them, are read back. -/
theorem exists_ofChars_of_isWritable
    {low step high : Number} (hlow : low.IsWritable) (hstep : step.IsWritable)
    (hhigh : high.IsWritable) :
    ∃ first middle last, numberLiteral low.toValue = .ok first ∧
      numberLiteral step.toValue = .ok middle ∧ numberLiteral high.toValue = .ok last ∧
      ∃ low' step' high',
        Annotation.ofChars ("[" ++ first ++ ":" ++ middle ++ ":" ++ last ++ "]").toList =
          .ok (.range low' (some step') high') ∧
        low.eq low' = true ∧ step.eq step' = true ∧ high.eq high' = true := by
  obtain ⟨first, hfirst, hfirstChars, low', hlow', hlowEq⟩ := hlow.exists_literal
  obtain ⟨middle, hmiddle, hmiddleChars, step', hstep', hstepEq⟩ := hstep.exists_literal
  obtain ⟨last, hlast, hlastChars, high', hhigh', hhighEq⟩ := hhigh.exists_literal
  refine ⟨first, middle, last, hfirst, hmiddle, hlast, low', step', high', ?_, hlowEq, hstepEq,
    hhighEq⟩
  let inner := joinWith ':' [first.toList, middle.toList, last.toList]
  have hchars : ∀ part ∈ [first.toList, middle.toList, last.toList],
      ∀ c ∈ part, Numeral.IsNumeralChar c := by
    simpa using ⟨hfirstChars, hmiddleChars, hlastChars⟩
  have hcolon : ∀ part ∈ [first.toList, middle.toList, last.toList], ':' ∉ part :=
    fun part hpart hmem => absurd (hchars part hpart _ hmem) (by decide)
  have hbracket : ∀ part ∈ [first.toList, middle.toList, last.toList], ']' ∉ part :=
    fun part hpart hmem => absurd (hchars part hpart _ hmem) (by decide)
  have htext : ("[" ++ first ++ ":" ++ middle ++ ":" ++ last ++ "]").toList =
      '[' :: (inner ++ [']']) := by
    simp [inner, joinWith, List.intercalate, List.intersperse]
  refine ofChars_eq_range_iff.mpr ⟨inner, ?_, ?_, ?_⟩
  · rw [htext]
    exact trim_eq_self (noBlankStart_cons (by decide))
      (noBlankEnd_concat (s := '[' :: inner) (by decide))
  · simpa [inner, joinWith, List.intercalate, List.intersperse] using hbracket
  · rw [splitOn_joinWith (by simp) hcolon]
    exact .triple hlow' hstep' hhigh'

/-- A comment is read as a range exactly if it spells the range, and it is read as something else
otherwise, unless an operand has too many digits.  A range of written numbers is read back as
equal numbers. -/
theorem ofChars_reads_ranges_exactly :
    (∀ comment low step high, Annotation.ofChars comment = .ok (.range low step high) ↔
      SpellsRange comment low step high) ∧
    (∀ comment, (∀ token, IsOperand comment token → ¬IsOverlong token) →
      ∃ note, Annotation.ofChars comment = .ok note) ∧
    ∀ low step high : Number, low.IsWritable → step.IsWritable → high.IsWritable →
      ∃ first middle last, numberLiteral low.toValue = .ok first ∧
        numberLiteral step.toValue = .ok middle ∧ numberLiteral high.toValue = .ok last ∧
        ∃ low' step' high',
          Annotation.ofChars ("[" ++ first ++ ":" ++ middle ++ ":" ++ last ++ "]").toList =
            .ok (.range low' (some step') high') ∧
          low.eq low' = true ∧ step.eq step' = true ∧ high.eq high' = true :=
  ⟨fun _ _ _ _ => ofChars_eq_range_iff, fun _ => exists_ofChars_eq_ok,
    fun _ _ _ => exists_ofChars_of_isWritable⟩

/-- The one half, as a double. -/
def half : Number :=
  .float (.ofDecimal false 5 (-1))

/-- Blank ends and a leading plus do not matter.  A number beyond the range of doubles is no
operand, so its brackets are a list of options.  A double that is whole is written, and read back,
as an integer. -/
theorem ofChars_reads_ranges_exactly_of_half :
    SpellsRange " [ 0:.5 : +10 ] ".toList (.int 0) (some half) (.int 10) ∧
    (∀ low step high, ¬SpellsRange "[0:1e999]".toList low step high) ∧
    (∃ note, Annotation.ofChars "[0:1e999]".toList = .ok note) ∧
    ∃ low step high,
      Annotation.ofChars "[0:0.5:1000]".toList = .ok (.range low (some step) high) ∧
      (Number.int 0).eq low = true ∧ half.eq step = true ∧
      (Number.float (.ofDecimal false 1 3)).eq high = true := by
  obtain ⟨hiff, htotal, hwritten⟩ := ofChars_reads_ranges_exactly
  refine ⟨?_, ?_, ?_, ?_⟩
  · exact (hiff _ _ _ _).mp (Failure.eq_ok_of_toOption (by decide +kernel))
  · intro low step high hspells
    have hoptions : Annotation.ofChars "[0:1e999]".toList = .ok (.options ["0:1e999"] true) :=
      Failure.eq_ok_of_toOption (by decide +kernel)
    exact absurd (hoptions.symm.trans ((hiff _ _ _ _).mpr hspells)) nofun
  · apply htotal
    rintro token ⟨inner, htrim, -, htoken⟩ hlong
    have hinner : inner = "0:1e999".toList :=
      List.append_cancel_right (List.cons.inj htrim.symm).2
    have hpieces : splitOn ':' inner = ["0".toList, "1e999".toList] := by
      rw [hinner]
      decide
    rw [hpieces, List.mem_pair] at htoken
    obtain ⟨n, hn, hinteger, hdigits⟩ := hlong
    rcases htoken with rfl | rfl
    · obtain rfl := Option.some.inj hn
      exact absurd hdigits (by decide)
    · obtain rfl := Option.some.inj hn
      exact absurd hinteger (by decide)
  · have hzero : Number.IsWritable (.int 0) := ⟨rfl, by rintro n ⟨⟩; decide⟩
    have hhalf : half.IsWritable := ⟨by decide +kernel, nofun⟩
    have hthousand : Number.IsWritable (.float (.ofDecimal false 1 3)) :=
      ⟨by decide +kernel, nofun⟩
    obtain ⟨first, middle, last, hfirst, hmiddle, hlast, hread⟩ :=
      hwritten _ _ _ hzero hhalf hthousand
    obtain rfl : first = "0" := Except.ok.inj <|
      hfirst.symm.trans (Failure.eq_ok_of_toOption (by decide +kernel))
    obtain rfl : middle = "0.5" := Except.ok.inj <|
      hmiddle.symm.trans (Failure.eq_ok_of_toOption (by decide +kernel))
    obtain rfl : last = "1000" := Except.ok.inj <|
      hlast.symm.trans (Failure.eq_ok_of_toOption (by decide +kernel))
    exact hread

end Source

end SolidWorkshop
