import SolidWorkshop.Proofs.Text.Cutting
import SolidWorkshop.Source.Line

/-!
# The layout of an assignment line

The reader of assignments walks along a line; here the same lines are described by how they are
put together: indentation, name, sign, literal, semicolon and tail, with blank characters in
between.  The reader accepts exactly these lines, and it reports the parts they are made of.
-/

namespace SolidWorkshop.Source

open Text

/-! ## Quoted texts -/

/-- What may stand between two quotes: plain characters, and backslashes each with the character
behind it. -/
inductive EscapeClosed : List Char → Prop
  | nil : EscapeClosed []
  | plain {c : Char} {s : List Char} (hquote : c ≠ '"') (hslash : c ≠ '\\')
      (hs : EscapeClosed s) : EscapeClosed (c :: s)
  | pair {c : Char} {s : List Char} (hs : EscapeClosed s) : EscapeClosed ('\\' :: c :: s)

theorem closingQuote?_append
    {body : List Char} (hbody : EscapeClosed body) (count : Nat) (tail : List Char) :
    closingQuote? count (body ++ '"' :: tail) = some (count + body.length + 1) := by
  induction hbody generalizing count with
  | nil => rfl
  | @plain c s hquote hslash _ ih =>
    rw [List.cons_append, closingQuote?.eq_5]
    · rw [ih, List.length_cons]
      congr 1
      omega
    · exact hquote
    · intro hc
      exact absurd hc hslash
    · intro d rest hc
      exact absurd hc hslash
  | @pair c s _ ih =>
    have hstep : closingQuote? count ('\\' :: c :: (s ++ '"' :: tail)) =
        closingQuote? (count + 2) (s ++ '"' :: tail) := rfl
    rw [List.cons_append, List.cons_append, hstep, ih, List.length_cons, List.length_cons]
    congr 1
    omega

theorem exists_body_of_closingQuote?
    {count n : Nat} {s : List Char} (h : closingQuote? count s = some n) :
    ∃ body tail, EscapeClosed body ∧ s = body ++ '"' :: tail ∧ n = count + body.length + 1 := by
  fun_induction closingQuote? count s with
  | case1 => contradiction
  | case2 count tail => exact ⟨[], tail, .nil, rfl, by simpa using h.symm⟩
  | case3 => contradiction
  | case4 count c rest ih =>
    obtain ⟨body, tail, hbody, rfl, rfl⟩ := ih h
    refine ⟨'\\' :: c :: body, tail, .pair hbody, rfl, ?_⟩
    simp only [List.length_cons]
    omega
  | case5 count c rest hquote hlone hpair ih =>
    obtain ⟨body, tail, hbody, rfl, rfl⟩ := ih h
    have hslash : c ≠ '\\' := by
      intro hc
      cases body with
      | nil => exact hpair _ _ hc rfl
      | cons d body => exact hpair _ _ hc rfl
    refine ⟨c :: body, tail, .plain hquote hslash hbody, rfl, ?_⟩
    simp only [List.length_cons]
    omega

/-- A text in quotes is as long as what is between its quotes and the quotes. -/
theorem quotedLength?_eq_some_iff
    {s : List Char} {n : Nat} :
    quotedLength? s = some n ↔
      ∃ body tail, EscapeClosed body ∧ s = '"' :: (body ++ '"' :: tail) ∧ n = body.length + 2 := by
  constructor
  · intro h
    unfold quotedLength? at h
    split at h
    · next rest =>
      obtain ⟨m, hm, rfl⟩ := Option.map_eq_some_iff.mp h
      obtain ⟨body, tail, hbody, rfl, rfl⟩ := exists_body_of_closingQuote? hm
      exact ⟨body, tail, hbody, rfl, by omega⟩
    · contradiction
  · rintro ⟨body, tail, hbody, rfl, rfl⟩
    simp [quotedLength?, closingQuote?_append hbody]

/-! ## Names -/

/-- A name: an optional sigil, and a word. -/
def IsName (name : List Char) : Prop :=
  ∃ mark word, name = mark ++ word ∧ (mark = [] ∨ mark = [sigil]) ∧ word ≠ [] ∧
    ∀ c ∈ word, isNameChar c = true

/-- The characters of names stand in four ranges of ASCII. -/
theorem toNat_of_isNameChar
    {c : Char} (hc : isNameChar c = true) :
    (48 ≤ c.toNat ∧ c.toNat ≤ 57) ∨ (65 ≤ c.toNat ∧ c.toNat ≤ 90) ∨
      c.toNat = 95 ∨ (97 ≤ c.toNat ∧ c.toNat ≤ 122) := by
  change (decide ('A'.val ≤ c.val ∧ c.val ≤ 'Z'.val) || ('a'.val ≤ c.val && c.val ≤ 'z'.val) ||
    ('0'.val ≤ c.val && c.val ≤ '9'.val) || c = '_') = true at hc
  simp only [Bool.or_eq_true, Bool.and_eq_true, decide_eq_true_eq, UInt32.le_iff_toNat_le] at hc
  rcases hc with ((hupper | hlower) | hdigit) | rfl
  · exact Or.inr (Or.inl hupper)
  · exact Or.inr (Or.inr (Or.inr hlower))
  · exact Or.inl hdigit
  · exact Or.inr (Or.inr (Or.inl rfl))

theorem isBlank_eq_false_of_isNameChar
    {c : Char} (hc : isNameChar c = true) :
    isBlank c = false := by
  have hrange := toNat_of_isNameChar hc
  simp only [isBlank, Bool.or_eq_false_iff, Bool.and_eq_false_iff, decide_eq_false_iff_not,
    beq_eq_false_iff_ne]
  omega

/-- A name starts with a character that is neither blank nor a slash nor a sign. -/
theorem IsName.exists_cons
    {name : List Char} (hname : IsName name) :
    ∃ c rest, name = c :: rest ∧ (c = sigil ∨ isNameChar c = true) := by
  obtain ⟨mark, word, rfl, rfl | rfl, hne, hword⟩ := hname
  · obtain ⟨c, rest, rfl⟩ := List.exists_cons_of_ne_nil hne
    exact ⟨c, rest, rfl, Or.inr (hword c List.mem_cons_self)⟩
  · exact ⟨sigil, word, rfl, Or.inl rfl⟩

theorem IsName.noBlankStart
    {name : List Char} (hname : IsName name) (rest : List Char) :
    NoBlankStart (name ++ rest) := by
  obtain ⟨c, tail, rfl, hc⟩ := hname.exists_cons
  apply noBlankStart_cons
  rcases hc with rfl | hc
  · rfl
  · exact isBlank_eq_false_of_isNameChar hc

theorem takeName?_sigil (s : List Char) :
    takeName? (sigil :: s) =
      if (s.takeWhile isNameChar).isEmpty then none
      else some (sigil :: s.takeWhile isNameChar, s.dropWhile isNameChar) := rfl

theorem takeName?_of_head_ne_sigil
    {s : List Char} (hs : s.head? ≠ some sigil) :
    takeName? s =
      if (s.takeWhile isNameChar).isEmpty then none
      else some (s.takeWhile isNameChar, s.dropWhile isNameChar) := by
  cases s with
  | nil => rfl
  | cons c s =>
    have hc : c ≠ '$' := by simpa [sigil] using hs
    simp [takeName?, hc]

/-- The name at the start of a text goes as far as there are characters of names. -/
theorem takeName?_eq_some_iff
    {s name rest : List Char} :
    takeName? s = some (name, rest) ↔
      IsName name ∧ s = name ++ rest ∧ ∀ c, rest.head? = some c → isNameChar c = false := by
  constructor
  · intro h
    have hrest (t : List Char) (c : Char) (hc : (t.dropWhile isNameChar).head? = some c) :
        isNameChar c = false := by
      simpa [hc] using List.head?_dropWhile_not isNameChar t
    have hword (t : List Char) (c : Char) (hc : c ∈ t.takeWhile isNameChar) :
        isNameChar c = true := List.mem_takeWhile_imp hc
    by_cases hs : s.head? = some sigil
    · obtain ⟨t, rfl⟩ := List.head?_eq_some_iff.mp hs
      rw [takeName?_sigil, ite_eq_iff] at h
      obtain ⟨-, h⟩ | ⟨hne, h⟩ := h
      · contradiction
      · obtain ⟨rfl, rfl⟩ : sigil :: t.takeWhile isNameChar = name ∧
            t.dropWhile isNameChar = rest := by
          simpa using h
        refine ⟨⟨[sigil], t.takeWhile isNameChar, rfl, Or.inr rfl, ?_, hword t⟩, ?_, hrest t⟩
        · simpa using hne
        · rw [List.cons_append, List.takeWhile_append_dropWhile]
    · rw [takeName?_of_head_ne_sigil hs, ite_eq_iff] at h
      obtain ⟨-, h⟩ | ⟨hne, h⟩ := h
      · contradiction
      · obtain ⟨rfl, rfl⟩ : s.takeWhile isNameChar = name ∧ s.dropWhile isNameChar = rest := by
          simpa using h
        refine ⟨⟨[], s.takeWhile isNameChar, rfl, Or.inl rfl, ?_, hword s⟩, ?_, hrest s⟩
        · simpa using hne
        · rw [List.takeWhile_append_dropWhile]
  · rintro ⟨⟨mark, word, rfl, hmark, hne, hword⟩, rfl, hrest⟩
    obtain ⟨htake, hdrop⟩ := takeWhile_append_of_all hword hrest
    rcases hmark with rfl | rfl
    · obtain ⟨c, tail, rfl⟩ := List.exists_cons_of_ne_nil hne
      have hsigil : c ≠ sigil := by
        rintro rfl
        exact absurd (hword sigil List.mem_cons_self) (by decide)
      rw [takeName?_of_head_ne_sigil (by simpa using hsigil), List.nil_append, htake, hdrop]
      rfl
    · have hs : [sigil] ++ word ++ rest = sigil :: (word ++ rest) := rfl
      rw [hs, takeName?_sigil, htake, hdrop]
      simp [hne]

/-! ## Right-hand sides -/

/-- The right-hand sides: a complete text in quotes, or any text without a semicolon that neither
begins with a quote nor has blank ends. -/
inductive RightHandSide : List Char → Prop
  | quoted {body : List Char} (hbody : EscapeClosed body) :
      RightHandSide ('"' :: (body ++ ['"']))
  | bare {token : List Char} (hne : token ≠ []) (hfree : ';' ∉ token)
      (hquote : token.head? ≠ some '"') (hstart : NoBlankStart token) (hend : NoBlankEnd token) :
      RightHandSide token

theorem RightHandSide.ne_nil
    {literal : List Char} (h : RightHandSide literal) :
    literal ≠ [] := by
  cases h with
  | quoted hbody => simp
  | bare hne => exact hne

theorem RightHandSide.noBlankStart
    {literal : List Char} (h : RightHandSide literal) :
    NoBlankStart literal := by
  cases h with
  | quoted hbody => exact noBlankStart_cons rfl
  | bare hne hfree hquote hstart hend => exact hstart

theorem RightHandSide.noBlankEnd
    {literal : List Char} (h : RightHandSide literal) :
    NoBlankEnd literal := by
  cases h with
  | quoted hbody => exact noBlankEnd_concat (s := '"' :: _) rfl
  | bare hne hfree hquote hstart hend => exact hend

theorem rightHandSide?_quote (s : List Char) :
    rightHandSide? ('"' :: s) =
      match quotedLength? ('"' :: s) with
      | none => none
      | some length =>
        match trimStart (('"' :: s).drop length) with
        | ';' :: tail => some (('"' :: s).take length, tail)
        | _ => none := rfl

theorem rightHandSide?_of_head_ne_quote
    {s : List Char} (hs : s.head? ≠ some '"') :
    rightHandSide? s =
      match s.dropWhile (· != ';') with
      | ';' :: tail =>
        if (trimEnd (s.takeWhile (· != ';'))).isEmpty then none
        else some (trimEnd (s.takeWhile (· != ';')), tail)
      | _ => none := by
  unfold rightHandSide?
  split
  · exact absurd rfl hs
  · rfl

theorem semicolon_not_mem_of_allBlank
    {blank : List Char} (hblank : AllBlank blank) :
    ';' ∉ blank := by
  intro hmem
  exact absurd (hblank ';' hmem) (by decide)

/-- A right-hand side and the tail behind its semicolon, read at the start of a text. -/
theorem rightHandSide?_append
    {literal blank : List Char} (hliteral : RightHandSide literal) (hblank : AllBlank blank)
    (tail : List Char) :
    rightHandSide? (literal ++ (blank ++ ';' :: tail)) = some (literal, tail) := by
  cases hliteral with
  | @quoted body hbody =>
    have hlength : quotedLength? ('"' :: (body ++ ['"'] ++ (blank ++ ';' :: tail))) =
        some (body.length + 2) :=
      quotedLength?_eq_some_iff.mpr ⟨body, blank ++ ';' :: tail, hbody, by simp, rfl⟩
    have hsplit : '"' :: (body ++ ['"'] ++ (blank ++ ';' :: tail)) =
        '"' :: (body ++ ['"']) ++ (blank ++ ';' :: tail) := rfl
    have hcount : ('"' :: (body ++ ['"'])).length = body.length + 2 := by simp
    have htrim : trimStart (blank ++ ';' :: tail) = ';' :: tail := by
      rw [trimStart_append_of_allBlank hblank, trimStart_eq_self (noBlankStart_cons rfl)]
    rw [List.cons_append, rightHandSide?_quote, hlength]
    simp only
    rw [hsplit, ← hcount, List.drop_left, List.take_left, htrim]
    rfl
  | bare hne hfree hquote hstart hend =>
    have hhead : (literal ++ (blank ++ ';' :: tail)).head? ≠ some '"' := by
      rwa [List.head?_append_of_ne_nil _ hne]
    have hplain : ∀ c ∈ literal ++ blank, (c != ';') = true := by
      intro c hc
      rw [bne_iff_ne]
      rintro rfl
      rcases List.mem_append.mp hc with hc | hc
      · exact hfree hc
      · exact semicolon_not_mem_of_allBlank hblank hc
    have hstop : ∀ c, (';' :: tail).head? = some c → (c != ';') = false := by simp
    obtain ⟨htake, hdrop⟩ := takeWhile_append_of_all hplain hstop
    rw [rightHandSide?_of_head_ne_quote hhead, ← List.append_assoc, htake, hdrop,
      trimEnd_append_of_allBlank hblank, trimEnd_eq_self hend]
    simp [hne]

/-- What is read as a right-hand side is one, and only blank characters stand between it and its
semicolon. -/
theorem rightHandSide_of_rightHandSide?
    {s literal tail : List Char} (hs : NoBlankStart s)
    (h : rightHandSide? s = some (literal, tail)) :
    RightHandSide literal ∧ ∃ blank, AllBlank blank ∧ s = literal ++ (blank ++ ';' :: tail) := by
  by_cases hquote : s.head? = some '"'
  · obtain ⟨t, rfl⟩ := List.head?_eq_some_iff.mp hquote
    rw [rightHandSide?_quote] at h
    cases hlength : quotedLength? ('"' :: t) with
    | none => simp [hlength] at h
    | some n =>
      obtain ⟨body, after, hbody, hbegin, rfl⟩ := quotedLength?_eq_some_iff.mp hlength
      have hsplit : '"' :: t = '"' :: (body ++ ['"']) ++ after := by simpa using hbegin
      have hcount : ('"' :: (body ++ ['"'])).length = body.length + 2 := by simp
      rw [hlength] at h
      simp only at h
      rw [hsplit, ← hcount, List.drop_left, List.take_left] at h
      split at h
      · next rest hrest =>
        obtain ⟨rfl, rfl⟩ : '"' :: (body ++ ['"']) = literal ∧ rest = tail := by simpa using h
        obtain ⟨-, blank, hblank, rfl⟩ := trimStart_eq_iff.mp hrest
        exact ⟨.quoted hbody, blank, hblank, hsplit⟩
      · contradiction
  · rw [rightHandSide?_of_head_ne_quote hquote] at h
    split at h
    · next rest hrest =>
      rw [ite_eq_iff] at h
      obtain ⟨-, h⟩ | ⟨hne, h⟩ := h
      · contradiction
      · obtain ⟨htoken, rfl⟩ : trimEnd (s.takeWhile (· != ';')) = literal ∧ rest = tail := by
          simpa using h
        obtain ⟨hend, blank, hblank, htake⟩ := trimEnd_eq_iff.mp htoken
        have hnil : literal ≠ [] := by
          rw [← htoken]
          simpa using hne
        have hs' : s = literal ++ (blank ++ ';' :: rest) := by
          rw [← List.append_assoc, ← htake, ← hrest, List.takeWhile_append_dropWhile]
        have hhead : literal.head? = s.head? := by
          rw [hs', List.head?_append_of_ne_nil _ hnil]
        refine ⟨.bare hnil ?_ (hhead ▸ hquote) (by rwa [NoBlankStart, hhead]) hend,
          blank, hblank, hs'⟩
        intro hmem
        have htaken : ';' ∈ s.takeWhile (· != ';') := by
          rw [htake]
          exact List.mem_append_left blank hmem
        simpa using List.mem_takeWhile_imp htaken
    · contradiction

/-! ## Tails -/

/-- The tail behind a semicolon is blank or a comment. -/
def IsTail (tail : List Char) : Prop :=
  trim tail = [] ∨ ∃ comment, trim tail = '/' :: '/' :: comment

/-- The text of the comment in a tail. -/
def commentText (tail : List Char) : List Char :=
  trim ((trim tail).drop 2)

theorem commentOf?_eq_some_iff
    {tail comment : List Char} :
    commentOf? tail = some comment ↔ IsTail tail ∧ comment = commentText tail := by
  unfold commentOf? IsTail commentText
  split
  · next hempty =>
    have hnil : trim (([] : List Char).drop 2) = [] := rfl
    simp only [Option.some.injEq, hempty, true_or, true_and, hnil]
    exact eq_comm
  · next text hcomment =>
    simp only [Option.some.injEq, hcomment, List.drop_succ_cons, List.drop_zero]
    constructor
    · rintro rfl
      exact ⟨Or.inr ⟨text, rfl⟩, rfl⟩
    · rintro ⟨-, rfl⟩
      rfl
  · next hempty hcomment =>
    simp only [reduceCtorEq, false_iff, not_and]
    rintro (h | ⟨text, h⟩)
    · exact absurd h hempty
    · exact absurd h (hcomment text)

/-! ## Layouts -/

/-- The parts of a line with an assignment. -/
structure Layout where
  indent : List Char
  name : List Char
  beforeSign : List Char
  afterSign : List Char
  literal : List Char
  beforeEnd : List Char
  tail : List Char

namespace Layout

/-- What stands in front of the sign. -/
def head (p : Layout) : List Char :=
  p.indent ++ p.name ++ p.beforeSign

/-- What stands in front of the literal. -/
def front (p : Layout) : List Char :=
  p.head ++ '=' :: p.afterSign

/-- What stands behind the literal. -/
def back (p : Layout) : List Char :=
  p.beforeEnd ++ ';' :: p.tail

/-- The line that the parts make. -/
def line (p : Layout) : List Char :=
  p.front ++ (p.literal ++ p.back)

/-- The assignment that the parts are. -/
def assignment (p : Layout) : Assignment :=
  { name := String.ofList p.name
    literal := p.literal
    start := p.front.length
    stop := p.front.length + p.literal.length
    comment := String.ofList (commentText p.tail) }

/-- The parts fit together.  A second sign right behind the first would make a comparison. -/
structure WellFormed (p : Layout) : Prop where
  indent : AllBlank p.indent
  name : IsName p.name
  beforeSign : AllBlank p.beforeSign
  afterSign : AllBlank p.afterSign
  sign : (p.afterSign ++ p.literal).head? ≠ some '='
  literal : RightHandSide p.literal
  beforeEnd : AllBlank p.beforeEnd
  tail : IsTail p.tail

theorem line_eq (p : Layout) :
    p.line = p.indent ++ (p.name ++
      (p.beforeSign ++ '=' :: (p.afterSign ++ (p.literal ++ p.back)))) := by
  simp [line, front, head]

theorem length_front_le (p : Layout) :
    p.front.length + p.literal.length ≤ p.line.length := by
  simp only [line, List.length_append]
  omega

theorem take_line_front (p : Layout) :
    p.line.take p.front.length = p.front := by
  rw [line, List.take_left]

theorem take_line_literal (p : Layout) :
    p.line.take (p.front.length + p.literal.length) = p.front ++ p.literal := by
  rw [line, ← List.append_assoc, ← List.length_append, List.take_left]

theorem drop_line_literal (p : Layout) :
    p.line.drop (p.front.length + p.literal.length) = p.back := by
  rw [line, ← List.append_assoc, ← List.length_append, List.drop_left]

namespace WellFormed

variable {p : Layout}

theorem noBlankStart_literal_append (hp : p.WellFormed) (rest : List Char) :
    NoBlankStart (p.literal ++ rest) :=
  noBlankStart_append hp.literal.ne_nil hp.literal.noBlankStart

/-- The name ends where the blank characters or the sign begin. -/
theorem isNameChar_behind_name
    (hp : p.WellFormed) (rest : List Char) (c : Char)
    (hc : (p.beforeSign ++ '=' :: rest).head? = some c) :
    isNameChar c = false := by
  cases hblank : p.beforeSign with
  | nil =>
    rw [hblank] at hc
    obtain rfl : '=' = c := by simpa using hc
    decide
  | cons d blank =>
    rw [hblank] at hc
    obtain rfl : d = c := by simpa using hc
    have hd : isBlank d = true := hp.beforeSign d (by simp [hblank])
    by_contra hname
    rw [Bool.not_eq_false] at hname
    simp [isBlank_eq_false_of_isNameChar hname] at hd

/-- The reader accepts a line that is put together in this way, and reports its parts. -/
theorem ofLine?_line (hp : p.WellFormed) :
    Assignment.ofLine? p.line = some p.assignment := by
  have hindent : trimStart p.line =
      p.name ++ (p.beforeSign ++ '=' :: (p.afterSign ++ (p.literal ++ p.back))) := by
    rw [line_eq, trimStart_append_of_allBlank hp.indent, trimStart_eq_self (hp.name.noBlankStart _)]
  have hname : takeName? (trimStart p.line) =
      some (p.name, p.beforeSign ++ '=' :: (p.afterSign ++ (p.literal ++ p.back))) :=
    takeName?_eq_some_iff.mpr ⟨hp.name, hindent, hp.isNameChar_behind_name _⟩
  have hsign : trimStart (p.beforeSign ++ '=' :: (p.afterSign ++ (p.literal ++ p.back))) =
      '=' :: (p.afterSign ++ (p.literal ++ p.back)) := by
    rw [trimStart_append_of_allBlank hp.beforeSign, trimStart_eq_self (noBlankStart_cons rfl)]
  have hsecond : (p.afterSign ++ (p.literal ++ p.back)).head? ≠ some '=' := by
    rw [← List.append_assoc, List.head?_append_of_ne_nil]
    · exact hp.sign
    · simp [hp.literal.ne_nil]
  have hstart : trimStart (p.afterSign ++ (p.literal ++ p.back)) = p.literal ++ p.back := by
    rw [trimStart_append_of_allBlank hp.afterSign,
      trimStart_eq_self (hp.noBlankStart_literal_append _)]
  have hliteral : rightHandSide? (p.literal ++ p.back) = some (p.literal, p.tail) :=
    rightHandSide?_append hp.literal hp.beforeEnd p.tail
  have hcomment : commentOf? p.tail = some (commentText p.tail) :=
    commentOf?_eq_some_iff.mpr ⟨hp.tail, rfl⟩
  have hlength : p.line.length - (p.literal ++ p.back).length = p.front.length := by
    rw [line, List.length_append, Nat.add_sub_cancel]
  simp only [Assignment.ofLine?, hname, Option.bind_eq_bind, Option.bind_some, hsign, hstart,
    hliteral, hcomment, hlength, beq_iff_eq, if_neg hsecond, Option.pure_def]
  rfl

end WellFormed

/-- A line that the reader accepts is put together from the parts that it reports.  Since the line
determines what is read from it, the parts need not be compared one by one. -/
theorem exists_of_ofLine?
    {line : List Char} {a : Assignment} (h : Assignment.ofLine? line = some a) :
    ∃ p : Layout, p.WellFormed ∧ p.line = line ∧ p.assignment = a := by
  have hread := h
  simp only [Assignment.ofLine?, Option.bind_eq_bind, Option.bind_eq_some_iff] at h
  obtain ⟨⟨name, rest⟩, hname, h⟩ := h
  obtain ⟨hisName, hrest, -⟩ := takeName?_eq_some_iff.mp hname
  obtain ⟨-, indent, hindent, hline⟩ := trimStart_eq_iff.mp hrest
  split at h
  · next behind hsign =>
    obtain ⟨-, beforeSign, hbeforeSign, rfl⟩ := trimStart_eq_iff.mp hsign
    rw [ite_eq_iff] at h
    obtain ⟨-, h⟩ | ⟨hsecond, h⟩ := h
    · contradiction
    · simp only [Option.bind_eq_some_iff] at h
      obtain ⟨⟨literal, tail⟩, hliteral, comment, hcomment, -⟩ := h
      obtain ⟨hstart, afterSign, hafterSign, hbehind⟩ :=
        trimStart_eq_iff.mp (rfl : trimStart behind = trimStart behind)
      obtain ⟨hright, beforeEnd, hbeforeEnd, hback⟩ :=
        rightHandSide_of_rightHandSide? hstart hliteral
      obtain ⟨htail, -⟩ := commentOf?_eq_some_iff.mp hcomment
      let p : Layout := ⟨indent, name, beforeSign, afterSign, literal, beforeEnd, tail⟩
      have hpline : p.line = line := by
        rw [line_eq, hline, hbehind, hback]
        rfl
      have hwell : p.WellFormed := by
        refine ⟨hindent, hisName, hbeforeSign, hafterSign, ?_, hright, hbeforeEnd, htail⟩
        rw [hbehind, hback, ← List.append_assoc, List.head?_append_of_ne_nil] at hsecond
        · simpa using hsecond
        · simp [hright.ne_nil]
      refine ⟨p, hwell, hpline, ?_⟩
      rw [← hpline, hwell.ofLine?_line] at hread
      exact Option.some.inj hread
  · contradiction

/-! ## Another literal in the same place -/

/-- The parts with another literal. -/
def withLiteral (p : Layout) (literal : List Char) : Layout :=
  { p with literal }

theorem line_withLiteral (p : Layout) (literal : List Char) :
    (p.withLiteral literal).line = p.front ++ (literal ++ p.back) := rfl

theorem WellFormed.withLiteral
    {p : Layout} (hp : p.WellFormed) {literal : List Char} (hliteral : RightHandSide literal)
    (hsign : literal.head? ≠ some '=') :
    (p.withLiteral literal).WellFormed := by
  refine { hp with literal := hliteral, sign := ?_ }
  cases hblank : p.afterSign with
  | nil => simpa [Layout.withLiteral, hblank] using hsign
  | cons c blank => simpa [Layout.withLiteral, hblank] using hp.sign

/-! ## The shape of the line -/

/-- A word without a sign begins a text exactly when it begins the part in front of a sign. -/
theorem beginsWord_append_sign
    {word : List Char} (hword : '=' ∉ word) (s rest : List Char) :
    (word.isPrefixOf (s ++ '=' :: rest) &&
        ((s ++ '=' :: rest).drop word.length).head?.any isBlank) =
      (word.isPrefixOf s && (s.drop word.length).head?.any isBlank) := by
  induction word generalizing s with
  | nil =>
    cases s with
    | nil => rfl
    | cons d s => rfl
  | cons c word ih =>
    rw [List.mem_cons, not_or] at hword
    obtain ⟨hc, hword⟩ := hword
    cases s with
    | nil => simp [List.isPrefixOf, Ne.symm hc]
    | cons d s =>
      simpa [List.isPrefixOf, Bool.and_assoc] using congrArg ((c == d) && ·) (ih hword s)

/-- A line with a sign in it begins a definition exactly when the part in front of the sign
does. -/
theorem stopWord?_append_sign (s rest : List Char) :
    stopWord? (s ++ '=' :: rest) = stopWord? s := by
  have hmodule : '=' ∉ "module".toList := by decide
  have hfunction : '=' ∉ "function".toList := by decide
  simp only [stopWord?, stopWords, List.find?_cons, List.find?_nil,
    beginsWord_append_sign hmodule, beginsWord_append_sign hfunction]

/-- A line that begins like an assignment is no section header. -/
theorem headerTitle?_eq_none
    {c : Char} (hc : c ≠ '/') (s : List Char) :
    headerTitle? (c :: s) = none := by
  unfold headerTitle?
  split
  · next rest h => exact absurd (List.cons.inj h).1 hc
  · next rest h => exact absurd (List.cons.inj h).1 hc
  · rfl

theorem WellFormed.trim_line
    {p : Layout} (hp : p.WellFormed) :
    trim p.line = p.name ++ p.beforeSign ++ '=' ::
      (p.afterSign ++ p.literal ++ p.beforeEnd ++ ';' :: trimEnd p.tail) := by
  have hline : p.line = p.indent ++ (p.name ++ (p.beforeSign ++ '=' ::
      (p.afterSign ++ p.literal ++ p.beforeEnd)) ++ ';' :: p.tail) := by
    simp [line_eq, back]
  rw [hline, trim, trimStart_append_of_allBlank hp.indent, List.append_assoc,
    trimStart_eq_self (hp.name.noBlankStart _), ← List.append_assoc,
    trimEnd_append_cons (by decide)]
  simp

/-- Whether a line of this layout begins a definition is decided in front of its sign. -/
theorem WellFormed.shape_line
    {p : Layout} (hp : p.WellFormed) :
    Shape.ofLine? p.line =
      match stopWord? (p.name ++ p.beforeSign) with
      | some word => some (.stopKeyword word)
      | none => some (.assignment p.assignment) := by
  obtain ⟨c, rest, hname, hc⟩ := hp.name.exists_cons
  have hslash : c ≠ '/' := by
    rintro rfl
    rcases hc with hc | hc
    · exact absurd hc (by decide)
    · exact absurd hc (by decide)
  have hheader : headerTitle? (trim p.line) = none := by
    rw [hp.trim_line, hname]
    exact headerTitle?_eq_none hslash _
  have hstop : stopWord? (trim p.line) = stopWord? (p.name ++ p.beforeSign) := by
    rw [hp.trim_line, stopWord?_append_sign]
  have hne : (trim p.line).isEmpty = false := by
    rw [hp.trim_line, hname]
    rfl
  unfold Shape.ofLine?
  dsimp only
  rw [hne, hheader, hstop, hp.ofLine?_line]
  cases stopWord? (p.name ++ p.beforeSign) with
  | none => rfl
  | some word => rfl

theorem WellFormed.shape_line_of_stopWord?
    {p : Layout} (hp : p.WellFormed) (hstop : stopWord? (p.name ++ p.beforeSign) = none) :
    Shape.ofLine? p.line = some (.assignment p.assignment) := by
  rw [hp.shape_line, hstop]

end Layout

/-- A line that has the shape of an assignment is laid out as one, and it stays one with every
other literal in its place. -/
theorem Shape.exists_layout_of_assignment
    {line : List Char} {a : Assignment} (h : Shape.ofLine? line = some (.assignment a)) :
    ∃ p : Layout, p.WellFormed ∧ p.line = line ∧ p.assignment = a ∧
      stopWord? (p.name ++ p.beforeSign) = none := by
  have hread : Assignment.ofLine? line = some a := by
    simp only [Shape.ofLine?] at h
    split at h
    · contradiction
    · split at h
      · simp at h
      · split at h
        · simp at h
        · simpa using h
  obtain ⟨p, hp, rfl, rfl⟩ := Layout.exists_of_ofLine? hread
  refine ⟨p, hp, rfl, rfl, ?_⟩
  rw [hp.shape_line] at h
  split at h
  · simp at h
  · next hstop => exact hstop

end SolidWorkshop.Source
