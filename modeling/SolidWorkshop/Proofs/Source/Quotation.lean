import SolidWorkshop.Proofs.Source.Override
import SolidWorkshop.Proofs.Source.Reading

/-!
# Quotes in a line and in a token

The quote that closes a text is looked for twice: in the line, where the rest of the line follows,
and in the right-hand side that has been cut out of it.  Cutting a text does not move the quote that
closes it, so both searches end at the same place.  A right-hand side that begins with a quote is
therefore always a text; and a token is a text exactly if it is, blank ends aside, one text in
quotes from end to end.
-/

namespace SolidWorkshop.Source

open Text

/-! ## Where a quote is closed -/

/-- One text in quotes from end to end: the quote that closes it is its last character. -/
def IsQuotedText (s : List Char) : Prop :=
  ∃ body, EscapeClosed body ∧ s = '"' :: (body ++ ['"'])

/-- A text that begins with a quote and goes on behind the quote that closes it. -/
def ClosesEarly (s : List Char) : Prop :=
  ∃ body rest, EscapeClosed body ∧ rest ≠ [] ∧ s = '"' :: (body ++ '"' :: rest)

theorem isQuotedText_iff
    {s : List Char} :
    IsQuotedText s ↔ quotedLength? s = some s.length := by
  rw [quotedLength?_eq_some_iff]
  constructor
  · rintro ⟨body, hbody, rfl⟩
    exact ⟨body, [], hbody, rfl, by simp⟩
  · rintro ⟨body, tail, hbody, rfl, hlength⟩
    have hnil : tail = [] := by
      rw [← List.length_eq_zero_iff]
      simp only [List.length_cons, List.length_append] at hlength
      omega
    subst hnil
    exact ⟨body, hbody, rfl⟩

theorem closesEarly_iff
    {s : List Char} :
    ClosesEarly s ↔ ∃ n < s.length, quotedLength? s = some n := by
  constructor
  · rintro ⟨body, rest, hbody, hrest, rfl⟩
    refine ⟨body.length + 2, ?_, quotedLength?_eq_some_iff.mpr ⟨body, rest, hbody, rfl, rfl⟩⟩
    have hpos := List.length_pos_of_ne_nil hrest
    simp only [List.length_cons, List.length_append]
    omega
  · rintro ⟨n, hn, hlength⟩
    obtain ⟨body, rest, hbody, rfl, rfl⟩ := quotedLength?_eq_some_iff.mp hlength
    refine ⟨body, rest, hbody, ?_, rfl⟩
    rintro rfl
    simp at hn

theorem quotedLength?_eq_none_of_head?
    {s : List Char} (h : s.head? ≠ some '"') :
    quotedLength? s = none := by
  rw [Option.eq_none_iff_forall_ne_some]
  intro n hn
  obtain ⟨body, tail, -, rfl, -⟩ := quotedLength?_eq_some_iff.mp hn
  exact h rfl

/-- In the first part of a text the quote is closed where it is closed in the whole text, if that
is in this part, and nowhere otherwise. -/
theorem quotedLength?_take (s : List Char) (n : Nat) :
    quotedLength? (s.take n) = (quotedLength? s).filter (· ≤ n) := by
  ext m
  rw [Option.filter_eq_some_iff, decide_eq_true_eq]
  constructor
  · intro hcut
    obtain ⟨body, tail, hbody, hpart, rfl⟩ := quotedLength?_eq_some_iff.mp hcut
    have hwhole : s = '"' :: (body ++ '"' :: (tail ++ s.drop n)) := by
      calc
        s = s.take n ++ s.drop n := (List.take_append_drop n s).symm
        _ = '"' :: (body ++ '"' :: (tail ++ s.drop n)) := by simp [hpart]
    have hlength := congrArg List.length hpart
    simp only [List.length_take, List.length_cons, List.length_append] at hlength
    exact ⟨quotedLength?_eq_some_iff.mpr ⟨body, _, hbody, hwhole, rfl⟩, by omega⟩
  · rintro ⟨hwhole, hm⟩
    obtain ⟨body, tail, hbody, rfl, rfl⟩ := quotedLength?_eq_some_iff.mp hwhole
    obtain ⟨k, rfl⟩ := Nat.exists_eq_add_of_le hm
    refine quotedLength?_eq_some_iff.mpr ⟨body, tail.take k, hbody, ?_, rfl⟩
    have hsplit : '"' :: (body ++ '"' :: tail) = ('"' :: (body ++ ['"'])) ++ tail := by simp
    have hcount : body.length + 2 = ('"' :: (body ++ ['"'])).length := by simp
    rw [hsplit, hcount, List.take_length_add_append]
    simp

section

variable {s : List Char}

theorem IsQuotedText.head?_eq (h : IsQuotedText s) : s.head? = some '"' := by
  obtain ⟨body, -, rfl⟩ := h
  rfl

theorem ClosesEarly.head?_eq (h : ClosesEarly s) : s.head? = some '"' := by
  obtain ⟨body, rest, -, -, rfl⟩ := h
  rfl

theorem ClosesEarly.not_isQuotedText (h : ClosesEarly s) : ¬IsQuotedText s := by
  intro hquoted
  obtain ⟨n, hn, hlength⟩ := closesEarly_iff.mp h
  have hsame := Option.some.inj (hlength.symm.trans (isQuotedText_iff.mp hquoted))
  omega

/-- What follows a text in quotes does not change where it is closed. -/
theorem IsQuotedText.quotedLength?_append
    (h : IsQuotedText s) (rest : List Char) :
    quotedLength? (s ++ rest) = some s.length := by
  have hcut := quotedLength?_take (s ++ rest) s.length
  rw [List.take_left, isQuotedText_iff.mp h] at hcut
  exact (Option.filter_eq_some_iff.mp hcut.symm).1

theorem IsQuotedText.closesEarly_append
    {rest : List Char} (h : IsQuotedText s) (hrest : rest ≠ []) :
    ClosesEarly (s ++ rest) := by
  refine closesEarly_iff.mpr ⟨s.length, ?_, h.quotedLength?_append rest⟩
  have hpos := List.length_pos_of_ne_nil hrest
  rw [List.length_append]
  omega

theorem ClosesEarly.append (h : ClosesEarly s) (more : List Char) : ClosesEarly (s ++ more) := by
  obtain ⟨body, rest, hbody, hrest, rfl⟩ := h
  refine ⟨body, rest ++ more, hbody, ?_, by simp⟩
  exact List.append_ne_nil_of_left_ne_nil hrest more

end

/-! ## Concatenations -/

/-- A plus sign behind an operand.  When the operand begins with a quote, this quote is closed in
it, so that the sign stands in no text. -/
def IsConcatenation (s : List Char) : Prop :=
  ∃ left right, (left.head? = some '"' → IsQuotedText left ∨ ClosesEarly left) ∧
    s = left ++ '+' :: right

theorem IsConcatenation.not_isQuotedText
    {s : List Char} (h : IsConcatenation s) :
    ¬IsQuotedText s := by
  obtain ⟨left, right, hleft, rfl⟩ := h
  intro hquoted
  have hhead := hquoted.head?_eq
  cases left with
  | nil => exact absurd hhead (by simp)
  | cons c rest =>
    rcases hleft hhead with hwhole | hearly
    · exact (hwhole.closesEarly_append (List.cons_ne_nil '+' right)).not_isQuotedText hquoted
    · exact (hearly.append ('+' :: right)).not_isQuotedText hquoted

/-! ## Right-hand sides of lines -/

theorem RightHandSide.isQuotedText_iff_head?
    {s : List Char} (h : RightHandSide s) :
    IsQuotedText s ↔ s.head? = some '"' := by
  refine ⟨IsQuotedText.head?_eq, ?_⟩
  intro hquote
  cases h with
  | @quoted body hbody => exact ⟨body, hbody, rfl⟩
  | bare hne hfree hnone => contradiction

/-- In the line the quote of a right-hand side is closed where it is closed in the right-hand side
alone. -/
theorem Layout.WellFormed.quotedLength?_drop_line
    {p : Layout} (hp : p.WellFormed) :
    quotedLength? (p.line.drop p.assignment.start) = quotedLength? p.assignment.literal := by
  change quotedLength? (p.line.drop p.front.length) = quotedLength? p.literal
  rw [Layout.line, List.drop_left]
  by_cases hquote : p.literal.head? = some '"'
  · have hquoted := hp.literal.isQuotedText_iff_head?.mpr hquote
    rw [hquoted.quotedLength?_append, isQuotedText_iff.mp hquoted]
  · have hhead : (p.literal ++ p.back).head? ≠ some '"' := by
      rwa [List.head?_append_of_ne_nil _ hp.literal.ne_nil]
    rw [quotedLength?_eq_none_of_head? hhead, quotedLength?_eq_none_of_head? hquote]

/-! ## Tokens that are texts -/

theorem Literal.ofChars?_trim (token : List Char) :
    Literal.ofChars? (trim token) = Literal.ofChars? token := by
  rw [Literal.ofChars?, Literal.ofChars?, trim_trim]

/-- Between blank ends a text in quotes is read as what stands between its quotes. -/
theorem IsQuotedText.ofChars?_eq
    {token : List Char} (h : IsQuotedText (trim token)) :
    Literal.ofChars? token =
      .ok (some (.text, .text (String.ofList ((trim token).drop 1).dropLast))) := by
  obtain ⟨body, hbody, htoken⟩ := h
  have hinside : ((trim token).drop 1).dropLast = body := by simp [htoken]
  have hquotes : trim token = ("\"" ++ String.ofList body ++ "\"").toList := by simp [htoken]
  have hclosed : EscapeClosed (String.ofList body).toList := by rwa [String.toList_ofList]
  rw [← Literal.ofChars?_trim token, hinside, hquotes]
  exact (Literal.ofChars?_quoted (String.ofList body)).1 hclosed

/-- A token that begins with a quote is a text or an expression. -/
theorem ofChars?_eq_none_of_head?_quote
    {token : List Char} (hquote : (trim token).head? = some '"')
    (h : ¬IsQuotedText (trim token)) :
    Literal.ofChars? token = .ok none := by
  have hword (word : List Char) (hhead : word.head? ≠ some '"') : trim token ≠ word := by
    rintro rfl
    exact hhead hquote
  have hnumber : Number.ofChars? (trim token) = .ok none := by
    unfold Number.ofChars?
    rw [trim_trim, numeral_eq_none_of_head? hquote]
  unfold Literal.ofChars?
  dsimp only
  rw [if_neg (hword _ (by simp)), if_neg (hword _ (by simp)), hnumber]
  split_ifs with hends hlength
  · exact absurd (isQuotedText_iff.mpr (eq_of_beq hlength)) h
  · rfl
  · rfl

theorem Literal.ofChars?_eq_text_iff
    {token : List Char} {v : Scalar} :
    Literal.ofChars? token = .ok (some (.text, v)) ↔
      IsQuotedText (trim token) ∧ v = .text (String.ofList ((trim token).drop 1).dropLast) := by
  constructor
  · intro hread
    have hquote : (trim token).head? = some '"' := by
      rcases Literal.ofChars?_cases hread with ⟨_, hbool, -⟩ | ⟨s, -, -, htoken⟩ | ⟨_, hnumber, -⟩
      · contradiction
      · simp [htoken]
      · contradiction
    by_cases hquoted : IsQuotedText (trim token)
    · rw [hquoted.ofChars?_eq] at hread
      obtain ⟨⟩ := hread
      exact ⟨hquoted, rfl⟩
    · rw [ofChars?_eq_none_of_head?_quote hquote hquoted] at hread
      cases hread
  · rintro ⟨hquoted, rfl⟩
    exact hquoted.ofChars?_eq

/-- The reader of lines and the reader of tokens agree on texts.  In a line the quote of a right-hand
side is closed where it is closed in the right-hand side alone, which is read as a text exactly if
it begins with a quote.  Any token is read as a text exactly if it is, blank ends aside, one text in
quotes; one that goes on behind the closing quote is an expression, and no concatenation is a
text. -/
theorem texts_are_closed_by_their_last_quote (line token : List Char) :
    (∀ a, Assignment.ofLine? line = some a →
      quotedLength? (line.drop a.start) = quotedLength? a.literal ∧
      (Literal.ofChars? a.literal =
          .ok (some (.text, .text (String.ofList (a.literal.drop 1).dropLast))) ↔
        a.literal.head? = some '"') ∧
      (a.literal.head? = some '"' → Literal.ofChars? a.literal ≠ .ok none)) ∧
    (∀ v, Literal.ofChars? token = .ok (some (.text, v)) ↔
      IsQuotedText (trim token) ∧ v = .text (String.ofList ((trim token).drop 1).dropLast)) ∧
    (ClosesEarly (trim token) → Literal.ofChars? token = .ok none) ∧
    (IsConcatenation (trim token) → ∀ v, Literal.ofChars? token ≠ .ok (some (.text, v))) := by
  refine ⟨?_, fun v => Literal.ofChars?_eq_text_iff, ?_, ?_⟩
  · intro a hread
    obtain ⟨p, hp, rfl, rfl⟩ := Layout.exists_of_ofLine? hread
    have htrim : trim p.literal = p.literal :=
      trim_eq_self hp.literal.noBlankStart hp.literal.noBlankEnd
    have htext : Literal.ofChars? p.literal =
          .ok (some (.text, .text (String.ofList (p.literal.drop 1).dropLast))) ↔
        p.literal.head? = some '"' := by
      rw [Literal.ofChars?_eq_text_iff, htrim, hp.literal.isQuotedText_iff_head?]
      exact and_iff_left rfl
    refine ⟨hp.quotedLength?_drop_line, htext, ?_⟩
    intro hquote hnone
    exact absurd ((htext.mpr hquote).symm.trans hnone) nofun
  · intro hearly
    exact ofChars?_eq_none_of_head?_quote hearly.head?_eq hearly.not_isQuotedText
  · intro hsum v hread
    exact hsum.not_isQuotedText (Literal.ofChars?_eq_text_iff.mp hread).1

/-- A text that ends with an escaped backslash, and a comment with quotes of its own. -/
def pathLine : List Char :=
  "path = \"C:\\\\\" ; // \"x\"; ".toList

/-- Two texts in quotes, put together. -/
def sumToken : List Char :=
  " \"a\" + \"b\" ".toList

theorem texts_are_closed_by_their_last_quote_of_pathLine :
    Assignment.ofLine? pathLine =
      some ⟨"path", ['"', 'C', ':', '\\', '\\', '"'], 7, 13, "\"x\";"⟩ ∧
    quotedLength? (pathLine.drop 7) = quotedLength? ['"', 'C', ':', '\\', '\\', '"'] ∧
    Literal.ofChars? ['"', 'C', ':', '\\', '\\', '"'] =
      .ok (some (.text, .text "C:\\\\")) ∧
    ClosesEarly (trim sumToken) ∧ Literal.ofChars? sumToken = .ok none ∧
    IsConcatenation (trim sumToken) ∧ ∀ v, Literal.ofChars? sumToken ≠ .ok (some (.text, v)) := by
  obtain ⟨hlines, -, hearly, hsum⟩ := texts_are_closed_by_their_last_quote pathLine sumToken
  have hread : Assignment.ofLine? pathLine =
      some ⟨"path", ['"', 'C', ':', '\\', '\\', '"'], 7, 13, "\"x\";"⟩ := by
    decide +kernel
  obtain ⟨hscan, htext, -⟩ := hlines _ hread
  have htrim : trim sumToken = ['"', 'a', '"', ' ', '+', ' ', '"', 'b', '"'] := by
    decide +kernel
  have hplain : EscapeClosed ['a'] := .plain (by decide) (by decide) .nil
  have hcloses : ClosesEarly (trim sumToken) := by
    rw [htrim]
    exact ⟨['a'], [' ', '+', ' ', '"', 'b', '"'], hplain, nofun, rfl⟩
  have hconcatenation : IsConcatenation (trim sumToken) := by
    rw [htrim]
    refine ⟨['"', 'a', '"', ' '], [' ', '"', 'b', '"'], fun _ => Or.inr ?_, rfl⟩
    exact ⟨['a'], [' '], hplain, nofun, rfl⟩
  exact ⟨hread, hscan, htext.mpr rfl, hcloses, hearly hcloses, hconcatenation,
    hsum hconcatenation⟩

end SolidWorkshop.Source
