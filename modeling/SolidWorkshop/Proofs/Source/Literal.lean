import SolidWorkshop.Parameter.Scalar
import SolidWorkshop.Proofs.Number.ReadBack
import SolidWorkshop.Proofs.Source.Layout
import SolidWorkshop.Source.Literal

/-!
# Literals read back

A value that a parameter can hold is written as a literal that the reader takes for a value of
the same kind, equal to the one that was written.  Nothing inside a text is escaped, so this
needs a text that stays on one line and whose backslashes come with the character they stand in
front of; and an integer has to be short enough for the reader.
-/

namespace SolidWorkshop

open Text Source

/-! ## The values of a kind -/

/-- The values that a parameter of some kind can hold. -/
inductive Scalar.HasKind : Kind → Scalar → Prop
  | bool (b : Bool) : HasKind .bool (.bool b)
  | int (n : Int) : HasKind .number (.int n)
  | float {x : Binary64} (hfinite : x.isFinite = true) : HasKind .number (.float x)
  | text (s : String) : HasKind .text (.text s)

theorem Numeral.isFinite_of_number?
    {n : Numeral} {x : Number} (h : n.number? = .ok (some x)) :
    x.isFinite = true := by
  unfold Numeral.number? at h
  split_ifs at h with hinteger hlong hfinite
  · obtain rfl := Option.some.inj (Except.ok.inj h)
    rfl
  · obtain rfl := Option.some.inj (Except.ok.inj h)
    exact hfinite
  · cases h

/-- No token is read as an infinite number. -/
theorem Number.isFinite_of_ofChars?
    {s : List Char} {x : Number} (h : Number.ofChars? s = .ok (some x)) :
    x.isFinite = true := by
  unfold Number.ofChars? at h
  split at h
  · cases h
  · exact Numeral.isFinite_of_number? h

theorem Scalar.hasKind_ofNumber
    {x : Number} (hfinite : x.isFinite = true) :
    (Scalar.ofNumber x).HasKind .number := by
  cases x with
  | int n => exact .int n
  | float x => exact .float hfinite

theorem refuse_ne_ok
    {α : Type} (reason : Value → Failure) (raw : Value) (a : α) :
    refuse reason raw ≠ .ok a := by
  unfold refuse
  split_ifs
  · nofun
  · nofun

/-- A value that is taken for a parameter has the parameter's kind. -/
theorem hasKind_of_coerce
    {kind : Kind} {raw : Value} {v : Scalar} (h : coerce kind raw = .ok v) :
    v.HasKind kind := by
  cases kind with
  | bool =>
    cases raw with
    | bool b =>
      obtain rfl := Except.ok.inj h
      exact .bool b
    | text s =>
      simp only [coerce] at h
      split_ifs at h
      · obtain rfl := Except.ok.inj h
        exact .bool true
      · obtain rfl := Except.ok.inj h
        exact .bool false
      · exact absurd h (refuse_ne_ok _ _ _)
    | _ => exact absurd h (refuse_ne_ok _ _ _)
  | text =>
    cases raw with
    | dict entries => exact absurd h (refuse_ne_ok _ _ _)
    | list items => exact absurd h (refuse_ne_ok _ _ _)
    | text s =>
      obtain rfl := Except.ok.inj h
      exact .text s
    | _ =>
      obtain ⟨s, -, hs⟩ := Failure.bind_eq_ok_iff.mp h
      obtain rfl := Except.ok.inj hs
      exact .text s
  | number =>
    cases raw with
    | int n =>
      obtain rfl := Except.ok.inj h
      exact .int n
    | float x =>
      simp only [coerce] at h
      split_ifs at h with hfinite
      · obtain rfl := Except.ok.inj h
        exact .float hfinite
      · exact absurd h (refuse_ne_ok _ _ _)
    | text s =>
      obtain ⟨found, hfound, h⟩ := Failure.bind_eq_ok_iff.mp h
      cases found with
      | none => exact absurd h (refuse_ne_ok _ _ _)
      | some x =>
        obtain rfl := Except.ok.inj h
        exact Scalar.hasKind_ofNumber (Number.isFinite_of_ofChars? hfound)
    | _ => exact absurd h (refuse_ne_ok _ _ _)

/-- A value of a kind is taken for the kind as it is. -/
theorem coerce_of_hasKind
    {kind : Kind} {v : Scalar} (h : v.HasKind kind) :
    coerce kind v.toValue = .ok v := by
  cases h with
  | bool b => rfl
  | int n => rfl
  | float hfinite => exact if_pos hfinite
  | text s => rfl

/-- What is read as a literal has the kind that it is read as. -/
theorem Source.Literal.hasKind_of_ofChars?
    {token : List Char} {kind : Kind} {v : Scalar}
    (h : Literal.ofChars? token = .ok (some (kind, v))) :
    v.HasKind kind := by
  unfold Literal.ofChars? at h
  dsimp only at h
  split_ifs at h
  · obtain ⟨rfl, rfl⟩ := Prod.mk.inj (Option.some.inj (Except.ok.inj h))
    exact .bool true
  · obtain ⟨rfl, rfl⟩ := Prod.mk.inj (Option.some.inj (Except.ok.inj h))
    exact .bool false
  · obtain ⟨rfl, rfl⟩ := Prod.mk.inj (Option.some.inj (Except.ok.inj h))
    exact .text _
  · cases h
  · obtain ⟨n, hn, h⟩ := Failure.bind_eq_ok_iff.mp h
    obtain ⟨x, rfl, hx⟩ := Option.map_eq_some_iff.mp (Except.ok.inj h)
    obtain ⟨rfl, rfl⟩ := Prod.mk.inj hx
    exact Scalar.hasKind_ofNumber (Number.isFinite_of_ofChars? hn)

/-! ## Equal values -/

theorem Scalar.eq_self
    {kind : Kind} {v : Scalar} (h : v.HasKind kind) :
    v.eq v = true := by
  cases h with
  | bool b => exact beq_self_eq_true b
  | int n => exact beq_self_eq_true n
  | text s => exact beq_self_eq_true s
  | @float x hfinite =>
    cases x with
    | finite negative units fits => simp [Scalar.eq, Number.eq, Number.compare?, Binary64.compare?]
    | infinite negative => contradiction
    | nan => contradiction

/-- A whole double is equal to the integer that it is written as. -/
theorem Scalar.float_eq_int
    {x : Binary64} {n : Int} (hwhole : x.isWhole = true) (htruncate : x.truncate? = some n) :
    (Scalar.float x).eq (.int n) = true := by
  cases x with
  | finite negative units fits =>
    obtain rfl := Option.some.inj htruncate
    have hdvd : units / Binary64.one * Binary64.one = units :=
      Nat.div_mul_cancel (Nat.dvd_of_mod_eq_zero (eq_of_beq hwhole))
    have hvalue : Binary64.signedUnits negative (units / Binary64.one) * Binary64.one =
        Binary64.signedUnits negative units := by
      unfold Binary64.signedUnits
      split_ifs
      · rw [Int.neg_mul, ← Int.natCast_mul, hdvd]
      · rw [← Int.natCast_mul, hdvd]
    have hcompare : Binary64.compareInt? (Binary64.signedUnits negative (units / Binary64.one))
        (.finite negative units fits) = some .eq := by
      unfold Binary64.compareInt?
      dsimp only
      rw [hvalue, Std.ReflOrd.compare_self]
    unfold Scalar.eq Number.eq Number.compare?
    dsimp only
    rw [hcompare]
    rfl
  | infinite negative => contradiction
  | nan => contradiction

/-! ## Reading what is written -/

/-- A value that can be read back: a text on one line in which every backslash has its
character, and an integer that is not too long. -/
def Scalar.IsPlain : Scalar → Prop
  | .text s => '\n' ∉ s.toList ∧ EscapeClosed s.toList
  | .int n => (toString n.natAbs).length ≤ Numeral.digitLimit
  | _ => True

/-- The literal can stand in an assignment, and it is read as an equal value of the kind. -/
structure Literal.ReadsBack (kind : Kind) (v : Scalar) (token : List Char) : Prop where
  rightHandSide : RightHandSide token
  head_ne_sign : token.head? ≠ some '='
  oneLine : '\n' ∉ token
  read : ∃ w, Literal.ofChars? token = .ok (some (kind, w)) ∧ v.eq w = true

/-- A token without the characters that structure a line can stand in an assignment. -/
theorem rightHandSide_of_forall
    {token : List Char} (hne : token ≠ [])
    (hfree : ∀ c ∈ token, isBlank c = false ∧ c ≠ ';' ∧ c ≠ '"' ∧ c ≠ '=') :
    RightHandSide token ∧ token.head? ≠ some '=' ∧ '\n' ∉ token := by
  refine ⟨.bare hne ?_ ?_ ?_ ?_, ?_, ?_⟩
  · exact fun hmem => (hfree ';' hmem).2.1 rfl
  · exact fun hhead => (hfree '"' (List.mem_of_mem_head? hhead)).2.2.1 rfl
  · exact fun c hc => (hfree c (List.mem_of_mem_head? hc)).1
  · exact fun c hc => (hfree c (List.mem_of_mem_getLast? hc)).1
  · exact fun hhead => (hfree '=' (List.mem_of_mem_head? hhead)).2.2.2 rfl
  · exact fun hmem => absurd (hfree '\n' hmem).1 (by decide)

theorem readsBack_bool (b : Bool) :
    Literal.ReadsBack .bool (.bool b) (if b then "true" else "false").toList := by
  have hword : ∀ word : List Char, word = ['t', 'r', 'u', 'e'] ∨ word = ['f', 'a', 'l', 's', 'e'] →
      RightHandSide word ∧ word.head? ≠ some '=' ∧ '\n' ∉ word := by
    rintro word (rfl | rfl)
    · refine rightHandSide_of_forall nofun ?_
      simp only [List.forall_mem_cons]
      exact ⟨by decide, by decide, by decide, by decide, nofun⟩
    · refine rightHandSide_of_forall nofun ?_
      simp only [List.forall_mem_cons]
      exact ⟨by decide, by decide, by decide, by decide, by decide, nofun⟩
  cases b with
  | true =>
    obtain ⟨hside, hhead, hline⟩ := hword _ (Or.inl rfl)
    exact ⟨hside, hhead, hline, .bool true, rfl, rfl⟩
  | false =>
    obtain ⟨hside, hhead, hline⟩ := hword _ (Or.inr rfl)
    exact ⟨hside, hhead, hline, .bool false, rfl, rfl⟩

/-- A text between quotes is a quoted text as a whole exactly if nothing in it ends it early. -/
theorem quotedLength?_quoted_iff (body : List Char) :
    quotedLength? ('"' :: (body ++ ['"'])) = some (body.length + 2) ↔ EscapeClosed body := by
  rw [quotedLength?_eq_some_iff]
  constructor
  · rintro ⟨closed, tail, hclosed, hsame, hlength⟩
    have hlength' : body.length = closed.length := by omega
    obtain ⟨rfl, -⟩ := List.append_inj (List.cons.inj hsame).2 hlength'
    exact hclosed
  · intro hclosed
    exact ⟨body, [], hclosed, rfl, rfl⟩

/-- Between quotes a text is a literal if nothing in it ends it early, and none otherwise. -/
theorem Literal.ofChars?_quoted (s : String) :
    (EscapeClosed s.toList →
      Literal.ofChars? ("\"" ++ s ++ "\"").toList = .ok (some (.text, .text s))) ∧
    (¬EscapeClosed s.toList → Literal.ofChars? ("\"" ++ s ++ "\"").toList = .ok none) := by
  have htoken : ("\"" ++ s ++ "\"").toList = '"' :: (s.toList ++ ['"']) := by simp
  have hlast : ('"' :: (s.toList ++ ['"'])).getLast? = some '"' := by
    rw [← List.cons_append, List.getLast?_concat]
  have hstart : NoBlankStart ('"' :: (s.toList ++ ['"'])) := noBlankStart_cons (by decide)
  have hend : NoBlankEnd ('"' :: (s.toList ++ ['"'])) :=
    noBlankEnd_concat (s := '"' :: s.toList) (by decide)
  have hread : Literal.ofChars? ("\"" ++ s ++ "\"").toList =
      if quotedLength? ('"' :: (s.toList ++ ['"'])) = some (s.toList.length + 2) then
        .ok (some (.text, .text s))
      else .ok none := by
    rw [htoken, Literal.ofChars?, trim_eq_self hstart hend, if_neg (by simp),
      if_neg (by simp), if_pos (by simp [hlast])]
    simp
  rw [hread]
  constructor
  · intro hclosed
    rw [if_pos ((quotedLength?_quoted_iff _).mpr hclosed)]
  · intro hopen
    rw [if_neg fun hlength => hopen ((quotedLength?_quoted_iff _).mp hlength)]

/-- A quoted text is read as the text. -/
theorem readsBack_text
    {s : String} (hplain : (Scalar.text s).IsPlain) :
    Literal.ReadsBack .text (.text s) ("\"" ++ s ++ "\"").toList := by
  obtain ⟨hline, hclosed⟩ := hplain
  have hread := (Literal.ofChars?_quoted s).1 hclosed
  have htoken : ("\"" ++ s ++ "\"").toList = '"' :: (s.toList ++ ['"']) := by simp
  rw [htoken] at hread ⊢
  exact ⟨.quoted hclosed, by simp, by simpa using hline, .text s, hread, beq_self_eq_true s⟩

/-- A written number token is read as the number that it stands for. -/
theorem readsBack_numeral
    {n : Numeral} {x : Number} {v : Scalar} (hn : n.IsPlain) (hx : n.number? = .ok (some x))
    (hv : v.eq (.ofNumber x) = true) :
    Literal.ReadsBack .number v n.written := by
  have hfree : ∀ c ∈ n.written, isBlank c = false ∧ c ≠ ';' ∧ c ≠ '"' ∧ c ≠ '=' := by
    intro c hc
    have hchar := hn.isNumeralChar hc
    refine ⟨hchar.isBlank, ?_, ?_, ?_⟩
    · rintro rfl
      exact absurd hchar (by decide)
    · rintro rfl
      exact absurd hchar (by decide)
    · rintro rfl
      exact absurd hchar (by decide)
  obtain ⟨hside, hhead, hline⟩ := rightHandSide_of_forall hn.written_ne_nil hfree
  refine ⟨hside, hhead, hline, .ofNumber x, ?_, hv⟩
  have hletters : ∀ word : List Char, (∃ c ∈ word, ¬Numeral.IsNumeralChar c) →
      n.written ≠ word := by
    rintro word ⟨c, hc, hnot⟩ rfl
    exact hnot (hn.isNumeralChar hc)
  have hquote : n.written.head? ≠ some '"' :=
    fun hhead => (hfree '"' (List.mem_of_mem_head? hhead)).2.2.1 rfl
  unfold Literal.ofChars?
  rw [trim_eq_self hside.noBlankStart hside.noBlankEnd]
  dsimp only
  rw [if_neg (hletters _ ⟨'t', by decide, by decide⟩),
    if_neg (hletters _ ⟨'f', by decide, by decide⟩), if_neg (by simp [hquote]),
    hn.ofChars?_eq_number?, hx]
  rfl

/-- A finite number of not too many digits is written as a plain token, whether with a point or
not, and the token stands for an equal number. -/
theorem exists_plain_numberLiteral
    {x : Number} (hfinite : x.isFinite = true) (hplain : (Scalar.ofNumber x).IsPlain) :
    ∃ n : Numeral, n.IsPlain ∧ numberLiteral x.toValue = .ok (String.ofList n.written) ∧
      ∃ y, n.number? = .ok (some y) ∧ (Scalar.ofNumber x).eq (.ofNumber y) = true := by
  cases x with
  | int n =>
    have hlength : (toString n.natAbs).length ≤ Numeral.digitLimit := hplain
    have hprint : numberLiteral (.int n) = .ok (toString n) := if_pos (decide_eq_true hlength)
    refine ⟨.ofInt n, Numeral.isPlain_ofInt n, ?_, .int n, Numeral.number?_ofInt hlength,
      beq_self_eq_true n⟩
    rw [Numeral.written_ofInt, String.ofList_toList]
    exact hprint
  | float x =>
    have htext : ∃ n : Numeral, n.IsPlain ∧
        .ok x.text = (Except.ok (String.ofList n.written) : Except Failure String) ∧
        ∃ y, n.number? = .ok (some y) ∧ (Scalar.float x).eq (.ofNumber y) = true := by
      obtain ⟨n, hn, hwritten, hnumber⟩ := Numeral.exists_of_text hfinite
      refine ⟨n, hn, ?_, .float x, hnumber, Scalar.eq_self (.float hfinite)⟩
      rw [hwritten, String.ofList_toList]
    change x.isFinite = true at hfinite
    change ∃ n : Numeral, n.IsPlain ∧ numberLiteral (.float x) = _ ∧ _
    unfold numberLiteral
    dsimp only
    rw [hfinite]
    simp only [Bool.not_true, Bool.false_eq_true, if_false, Bool.and_eq_true, decide_eq_true_eq]
    cases htruncate : x.truncate? with
    | none => exact htext
    | some n =>
      dsimp only
      split_ifs with hinteger
      · obtain ⟨hwhole, hlimit⟩ := hinteger
        have hlength : (toString n.natAbs).length ≤ Numeral.digitLimit := by
          have hshort : (toString n.natAbs).length ≤ 21 :=
            (Nat.length_repr_le_iff (by decide)).mpr hlimit
          exact Nat.le_trans hshort (by decide)
        refine ⟨.ofInt n, Numeral.isPlain_ofInt n, ?_, .int n, Numeral.number?_ofInt hlength,
          Scalar.float_eq_int hwhole htruncate⟩
        rw [Numeral.written_ofInt, String.ofList_toList]
      · exact htext

/-- The literal of a number is read back. -/
theorem exists_numberLiteral_readsBack
    {x : Number} (hfinite : x.isFinite = true) (hplain : (Scalar.ofNumber x).IsPlain) :
    ∃ s, numberLiteral x.toValue = .ok s ∧
      Literal.ReadsBack .number (.ofNumber x) s.toList := by
  obtain ⟨n, hn, hliteral, y, hnumber, heq⟩ := exists_plain_numberLiteral hfinite hplain
  refine ⟨_, hliteral, ?_⟩
  rw [String.toList_ofList]
  exact readsBack_numeral hn hnumber heq

/-- The literal of a plain value is read back. -/
theorem exists_literal_readsBack
    {kind : Kind} {v : Scalar} (hkind : v.HasKind kind) (hplain : v.IsPlain) :
    ∃ s, literal kind v.toValue = .ok s ∧ Literal.ReadsBack kind v s.toList := by
  cases hkind with
  | bool b => exact ⟨_, rfl, readsBack_bool b⟩
  | text s => exact ⟨_, rfl, readsBack_text hplain⟩
  | int n => exact exists_numberLiteral_readsBack (x := .int n) rfl hplain
  | @float x hfinite => exact exists_numberLiteral_readsBack (x := .float x) hfinite hplain

/-! ## Values that have been taken -/

/-- A value that has been taken would be taken again as it is, and it can be written.  A number or
a truth value is read back as an equal value of its kind.  A text is read back as itself exactly
if nothing in it ends its quotes early; otherwise what is written for it is no literal. -/
theorem literal_of_coerce_reads_back
    {kind : Kind} {raw : Value} {v : Scalar} (h : coerce kind raw = .ok v)
    (hlength : ∀ n, v = .int n → (toString n.natAbs).length ≤ Numeral.digitLimit) :
    coerce kind v.toValue = .ok v ∧
    ∃ s, literal kind v.toValue = .ok s ∧
      (kind ≠ .text → ∃ w, Literal.ofChars? s.toList = .ok (some (kind, w)) ∧ v.eq w = true) ∧
      (kind = .text → ∃ t, v = .text t ∧
        (Literal.ofChars? s.toList = .ok (some (.text, v)) ↔ EscapeClosed t.toList) ∧
        (Literal.ofChars? s.toList = .ok none ↔ ¬EscapeClosed t.toList)) := by
  have hkind := hasKind_of_coerce h
  refine ⟨coerce_of_hasKind hkind, ?_⟩
  by_cases htext : kind = .text
  · subst htext
    cases hkind with
    | text t =>
      obtain ⟨hread, hnone⟩ := Literal.ofChars?_quoted t
      refine ⟨_, rfl, fun hother => absurd rfl hother, fun _ => ⟨t, rfl, ⟨?_, hread⟩, ?_, hnone⟩⟩
      · intro hsome
        by_contra hopen
        exact absurd (hsome.symm.trans (hnone hopen)) nofun
      · intro hnot hclosed
        exact absurd (hnot.symm.trans (hread hclosed)) nofun
  · have hplain : v.IsPlain := by
      cases hkind with
      | bool b => trivial
      | int n => exact hlength n rfl
      | float hfinite => trivial
      | text t => contradiction
    obtain ⟨s, hs, hreads⟩ := exists_literal_readsBack hkind hplain
    exact ⟨s, hs, fun _ => hreads.read, fun hkind => absurd hkind htext⟩

/-- An integer and a double are written the same way and read as the integer, which is equal to
both of them.  A text with a quote in it is written, and then it is no literal. -/
theorem literal_of_coerce_reads_back_of_thousand :
    coerce .number (.text " 01000 ") = .ok (.int 1000) ∧
    (∀ n, Scalar.int 1000 = .int n → (toString n.natAbs).length ≤ Numeral.digitLimit) ∧
    coerce .number (.text "1e3") = .ok (.float (.ofDecimal false 1 3)) ∧
    (∃ w, literal .number (.int 1000) = .ok "1000" ∧
      literal .number (.float (.ofDecimal false 1 3)) = .ok "1000" ∧
      Literal.ofChars? "1000".toList = .ok (some (.number, w)) ∧
      (Scalar.int 1000).eq w = true ∧ (Scalar.float (.ofDecimal false 1 3)).eq w = true) ∧
    ∃ s, literal .text (.text "12\" pipe") = .ok s ∧ Literal.ofChars? s.toList = .ok none := by
  have hint : coerce .number (.text " 01000 ") = .ok (.int 1000) :=
    Failure.eq_ok_of_toOption (by decide +kernel)
  have hfloat : coerce .number (.text "1e3") = .ok (.float (.ofDecimal false 1 3)) :=
    Failure.eq_ok_of_toOption (by decide +kernel)
  have htext : coerce .text (.text "12\" pipe") = .ok (.text "12\" pipe") := rfl
  have hwritten : literal .number (.int 1000) = .ok "1000" :=
    Failure.eq_ok_of_toOption (by decide +kernel)
  have hwritten' : literal .number (.float (.ofDecimal false 1 3)) = .ok "1000" :=
    Failure.eq_ok_of_toOption (by decide +kernel)
  have hlength : ∀ n, Scalar.int 1000 = .int n →
      (toString n.natAbs).length ≤ Numeral.digitLimit := by
    rintro n ⟨⟩
    decide +kernel
  have hopen : ¬EscapeClosed "12\" pipe".toList := by
    rw [← quotedLength?_quoted_iff]
    decide
  obtain ⟨-, s, hs, hnumber, -⟩ := literal_of_coerce_reads_back hint hlength
  obtain ⟨w, hread, heq⟩ := hnumber nofun
  obtain rfl := Except.ok.inj (hs.symm.trans hwritten)
  obtain ⟨-, t, ht, hnumber', -⟩ := literal_of_coerce_reads_back hfloat nofun
  obtain ⟨w', hread', heq'⟩ := hnumber' nofun
  obtain rfl := Except.ok.inj (ht.symm.trans hwritten')
  obtain ⟨⟩ := hread.symm.trans hread'
  obtain ⟨-, u, hu, -, hquoted⟩ := literal_of_coerce_reads_back htext nofun
  obtain ⟨_, hsame, -, hnone⟩ := hquoted rfl
  obtain rfl := Scalar.text.inj hsame
  exact ⟨hint, hlength, hfloat, ⟨w, hwritten, hwritten', hread, heq, heq'⟩, u, hu,
    hnone.mpr hopen⟩

end SolidWorkshop
