import Mathlib.Algebra.Ring.Nat
import SolidWorkshop.Number.Numeral
import SolidWorkshop.Proofs.Text.Cutting

/-!
# Number tokens as they are written

A number token in the form that numbers are written in: ASCII digits, a minus only as its sign,
and digits on the sides where the grammar would let them be missing.  The reader takes such a
token apart into exactly the parts that it was put together from.
-/

namespace SolidWorkshop

open Text

namespace Numeral

/-! ## Rows of digits -/

/-- Every character is an ASCII digit. -/
def AllDigits (s : List Char) : Prop :=
  ∀ c ∈ s, c.isDigit = true

theorem AllDigits.append
    {s t : List Char} (hs : AllDigits s) (ht : AllDigits t) :
    AllDigits (s ++ t) := by
  intro c hc
  rcases List.mem_append.mp hc with hc | hc
  · exact hs c hc
  · exact ht c hc

theorem allDigits_toDigits (n : Nat) : AllDigits (Nat.toDigits 10 n) :=
  fun _ hc => Nat.isDigit_of_mem_toDigits (by decide) (by decide) hc

theorem allDigits_replicate_zero (n : Nat) : AllDigits (List.replicate n '0') := by
  intro c hc
  rw [List.eq_of_mem_replicate hc]
  rfl

theorem AllDigits.isDigit
    {s : List Char} (hs : AllDigits s) :
    ∀ c ∈ s, Text.isDigit c = true :=
  fun c hc => isDigit_of_ascii (hs c hc)

theorem toNat_of_isDigit
    {c : Char} (hc : c.isDigit = true) :
    48 ≤ c.toNat ∧ c.toNat ≤ 57 := by
  simpa using Char.isDigit_iff_toNat.mp hc

/-- A row of ASCII digits has the value that it has for the library. -/
theorem digitsValue_eq_ofDigitChars
    {s : List Char} (hs : AllDigits s) :
    digitsValue s = Nat.ofDigitChars 10 s 0 := by
  rw [digitsValue, Nat.ofDigitChars_eq_foldl]
  apply List.foldl_ext
  intro n c hc
  have hrange := toNat_of_isDigit (hs c hc)
  rw [digitValue?, if_pos (by omega), if_pos (hs c hc)]
  rfl

theorem digitsValue_toDigits (n : Nat) : digitsValue (Nat.toDigits 10 n) = n := by
  rw [digitsValue_eq_ofDigitChars (allDigits_toDigits n), Nat.ofDigitChars_ten_toDigits]

theorem digitsValue_zeros_append
    (k : Nat) {s : List Char} (hs : AllDigits s) :
    digitsValue (List.replicate k '0' ++ s) = digitsValue s := by
  rw [digitsValue_eq_ofDigitChars ((allDigits_replicate_zero k).append hs),
    digitsValue_eq_ofDigitChars hs, Nat.ofDigitChars_append, Nat.ofDigitChars_replicate_zero,
    Nat.mul_zero]

theorem digitsValue_append_zeros
    {s : List Char} (hs : AllDigits s) (k : Nat) :
    digitsValue (s ++ List.replicate k '0') = digitsValue s * 10 ^ k := by
  rw [digitsValue_eq_ofDigitChars (hs.append (allDigits_replicate_zero k)),
    digitsValue_eq_ofDigitChars hs, Nat.ofDigitChars_append, Nat.ofDigitChars_replicate_zero,
    Nat.mul_comm]

/-! ## Written tokens -/

/-- The characters of an exponent part. -/
def exponentChars : Option (Bool × List Char) → List Char
  | none => []
  | some (negative, digits) => 'e' :: (if negative then '-' else '+') :: digits

/-- The characters of a token. -/
def written (n : Numeral) : List Char :=
  (if n.negative then ['-'] else []) ++
    (n.whole ++ ((if n.point then '.' :: n.fraction else []) ++ exponentChars n.exponent))

/-- The token is made of ASCII digits, and none of its parts is empty. -/
structure IsPlain (n : Numeral) : Prop where
  whole_ne_nil : n.whole ≠ []
  whole : AllDigits n.whole
  fraction : AllDigits n.fraction
  fraction_eq_nil : n.point = false → n.fraction = []
  exponent : ∀ negative digits, n.exponent = some (negative, digits) →
    digits ≠ [] ∧ AllDigits digits

/-- What stands behind a row of digits does not go on with a digit. -/
def EndsDigits (rest : List Char) : Prop :=
  ∀ c, rest.head? = some c → Text.isDigit c = false

theorem takeSign_append
    (negative : Bool) {s : List Char} (hne : s ≠ []) (hs : AllDigits s) (rest : List Char) :
    takeSign ((if negative then ['-'] else []) ++ (s ++ rest)) = (negative, s ++ rest) := by
  cases negative with
  | true => rfl
  | false =>
    obtain ⟨c, s, rfl⟩ := List.exists_cons_of_ne_nil hne
    have hrange := toNat_of_isDigit (hs c List.mem_cons_self)
    have hplus : c ≠ '+' := by
      rintro rfl
      contradiction
    have hminus : c ≠ '-' := by
      rintro rfl
      contradiction
    simp only [Bool.false_eq_true, if_false, List.nil_append, List.cons_append]
    unfold takeSign
    split
    · next h => exact absurd (List.cons.inj h).1 hplus
    · next h => exact absurd (List.cons.inj h).1 hminus
    · rfl

theorem endsDigits_exponentChars (exponent : Option (Bool × List Char)) :
    EndsDigits (exponentChars exponent) := by
  intro c hc
  cases exponent with
  | none => contradiction
  | some e =>
    obtain rfl : 'e' = c := by simpa [exponentChars] using hc
    decide

theorem exponentOf?_exponentChars
    {exponent : Option (Bool × List Char)}
    (hexponent : ∀ negative digits, exponent = some (negative, digits) →
      digits ≠ [] ∧ AllDigits digits) :
    exponentOf? (exponentChars exponent) = some exponent := by
  cases exponent with
  | none => rfl
  | some e =>
    obtain ⟨negative, digits⟩ := e
    obtain ⟨hne, hdigits⟩ := hexponent negative digits rfl
    have hall : digits.all Text.isDigit = true := List.all_eq_true.mpr hdigits.isDigit
    have hempty : digits.isEmpty = false := by simpa using hne
    cases negative <;>
      simp [exponentChars, exponentOf?, takeSign, hall, hempty]

/-- A written token is taken apart into the parts that it was written from. -/
theorem ofChars?_written
    {n : Numeral} (hn : n.IsPlain) :
    Numeral.ofChars? n.written = some n := by
  have hexponent := exponentOf?_exponentChars hn.exponent
  have hends := endsDigits_exponentChars n.exponent
  obtain ⟨negative, whole, point, fraction, exponent⟩ := n
  have hempty : whole.isEmpty = false := by simpa using hn.whole_ne_nil
  unfold Numeral.ofChars? written
  rw [takeSign_append negative hn.whole_ne_nil hn.whole]
  dsimp only at hexponent hends ⊢
  cases point with
  | true =>
    have hdot : EndsDigits ('.' :: (fraction ++ exponentChars exponent)) := by
      intro c hc
      obtain rfl : '.' = c := by simpa using hc
      decide
    obtain ⟨htake, hdrop⟩ := takeWhile_append_of_all hn.whole.isDigit hdot
    obtain ⟨htake', hdrop'⟩ := takeWhile_append_of_all hn.fraction.isDigit hends
    simp only [if_true, List.cons_append, htake, hdrop, htake', hdrop', hempty, hexponent,
      Bool.false_and, Bool.false_eq_true, if_false, Option.map_some]
  | false =>
    obtain rfl : fraction = [] := hn.fraction_eq_nil rfl
    obtain ⟨htake, hdrop⟩ := takeWhile_append_of_all hn.whole.isDigit hends
    simp only [Bool.false_eq_true, if_false, List.nil_append, htake, hdrop, hempty]
    split
    · next rest h =>
      cases exponent with
      | none => contradiction
      | some e => exact absurd (List.cons.inj h).1 (by decide)
    · rw [hexponent]
      rfl

/-! ## Characters of written tokens -/

/-- The characters that tokens are written with. -/
def IsNumeralChar (c : Char) : Prop :=
  c.isDigit = true ∨ c ∈ ['-', '+', '.', 'e']

instance (c : Char) : Decidable (IsNumeralChar c) :=
  inferInstanceAs (Decidable (_ ∨ _))

theorem IsNumeralChar.isBlank
    {c : Char} (hc : IsNumeralChar c) :
    Text.isBlank c = false := by
  rcases hc with hdigit | hother
  · have hrange := toNat_of_isDigit hdigit
    simp only [Text.isBlank, Bool.or_eq_false_iff, Bool.and_eq_false_iff, decide_eq_false_iff_not,
      beq_eq_false_iff_ne]
    omega
  · simp only [List.mem_cons, List.not_mem_nil, or_false] at hother
    rcases hother with rfl | rfl | rfl | rfl <;> rfl

theorem isNumeralChar_of_mem_exponentChars
    {exponent : Option (Bool × List Char)}
    (hexponent : ∀ negative digits, exponent = some (negative, digits) →
      digits ≠ [] ∧ AllDigits digits)
    {c : Char} (hc : c ∈ exponentChars exponent) :
    IsNumeralChar c := by
  cases exponent with
  | none => contradiction
  | some e =>
    obtain ⟨negative, digits⟩ := e
    obtain ⟨-, hdigits⟩ := hexponent negative digits rfl
    rcases List.mem_cons.mp hc with rfl | hc
    · decide
    · rcases List.mem_cons.mp hc with rfl | hc
      · cases negative <;> decide
      · exact Or.inl (hdigits c hc)

theorem IsPlain.isNumeralChar
    {n : Numeral} (hn : n.IsPlain) {c : Char} (hc : c ∈ n.written) :
    IsNumeralChar c := by
  simp only [written, List.mem_append] at hc
  rcases hc with hsign | hwhole | hpoint | hexponent
  · split at hsign
    · obtain rfl := List.mem_singleton.mp hsign
      decide
    · contradiction
  · exact Or.inl (hn.whole c hwhole)
  · split at hpoint
    · rcases List.mem_cons.mp hpoint with rfl | hfraction
      · decide
      · exact Or.inl (hn.fraction c hfraction)
    · contradiction
  · exact isNumeralChar_of_mem_exponentChars hn.exponent hexponent

theorem IsPlain.written_ne_nil
    {n : Numeral} (hn : n.IsPlain) :
    n.written ≠ [] := by
  simp [written, hn.whole_ne_nil]

/-- A written token has no blank ends. -/
theorem IsPlain.noBlankEnds
    {n : Numeral} (hn : n.IsPlain) :
    NoBlankStart n.written ∧ NoBlankEnd n.written :=
  ⟨fun _ hc => (hn.isNumeralChar (List.mem_of_mem_head? hc)).isBlank,
    fun _ hc => (hn.isNumeralChar (List.mem_of_mem_getLast? hc)).isBlank⟩

/-- A written token is read as the number that it stands for. -/
theorem IsPlain.ofChars?_eq_number?
    {n : Numeral} (hn : n.IsPlain) :
    Number.ofChars? n.written = n.number? := by
  obtain ⟨hstart, hend⟩ := hn.noBlankEnds
  rw [Number.ofChars?, trim_eq_self hstart hend, ofChars?_written hn]

end Numeral

end SolidWorkshop
