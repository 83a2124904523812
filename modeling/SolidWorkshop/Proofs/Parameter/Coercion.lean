import SolidWorkshop.Compile.Request
import SolidWorkshop.Engine.Arguments
import SolidWorkshop.Proofs.Source.Override

/-!
# Explicit overrides and edited values

A value reaches the engine by two routes.  An edited value is coerced to the kind of its parameter
before it is written; the value of an explicit override is written as it was sent.  The routes
meet for the values that coercion would not rewrite.  Every other value is accepted all the same,
and is written as something that coercion would not have written.
-/

namespace SolidWorkshop

open Intake Source

/-! ## Values that need no coercion -/

/-- The values that are written the same way whether or not they are coerced first. -/
inductive Scalar.IsSteady : Kind → Scalar → Prop
  | text (v : Scalar) : IsSteady .text v
  | bool (b : Bool) : IsSteady .bool (.bool b)
  | word {s : String} (hword : wordOf s = "true") : IsSteady .bool (.text s)
  | int (n : Int) : IsSteady .number (.int n)
  | float (x : Binary64) : IsSteady .number (.float x)
  | token {s : String} {x : Number} (hread : Number.ofChars? s.toList = .ok (some x))
      (hwritten : literal .number (Scalar.ofNumber x).toValue = .ok s) : IsSteady .number (.text s)

theorem isTruthy_of_wordOf_ne
    {s : String} (h : wordOf s ≠ "") :
    (Value.text s).isTruthy = true := by
  have hs : s ≠ "" := by
    rintro rfl
    exact h (by decide)
  simpa [Value.isTruthy] using hs

/-- A number that a text is read as has a literal. -/
theorem exists_literal_of_ofChars?
    {s : List Char} {x : Number} (h : Number.ofChars? s = .ok (some x)) :
    ∃ t, literal .number (Scalar.ofNumber x).toValue = .ok t := by
  have hfinite := Number.isFinite_of_ofChars? h
  have hself : (Scalar.ofNumber x).eq (.ofNumber x) = true := by
    rw [Scalar.eq_ofNumber, Number.eq_iff hfinite]
  obtain ⟨t, ht, -⟩ := exists_literal_readsBack (Scalar.hasKind_ofNumber hfinite)
    (Scalar.isPlain_of_eq h hself)
  exact ⟨t, ht⟩

/-! ## The two routes -/

/-- As a text, a value is coerced to what is printed of it. -/
theorem coerce_text (v : Scalar) :
    coerce .text v.toValue = (v.toValue.print).map .text := by
  cases v with
  | text s => rfl
  | _ => rfl

/-- A steady value is written as what it is coerced to; if it is refused, it is not written. -/
theorem Scalar.IsSteady.literal_eq
    {kind : Kind} {raw : Scalar} (h : raw.IsSteady kind) :
    (∃ v, coerce kind raw.toValue = .ok v ∧
      literal kind raw.toValue = literal kind v.toValue) ∨
    (∃ failure, coerce kind raw.toValue = .error failure) ∧
      ∃ failure, literal kind raw.toValue = .error failure := by
  cases h with
  | text =>
    rw [coerce_text]
    cases hprint : raw.toValue.print with
    | ok s =>
      refine Or.inl ⟨.text s, rfl, ?_⟩
      rw [literal, hprint]
      rfl
    | error failure =>
      refine Or.inr ⟨⟨failure, rfl⟩, failure, ?_⟩
      rw [literal, hprint]
      rfl
  | bool b => exact Or.inl ⟨.bool b, rfl, rfl⟩
  | @word s hword =>
    have htruthy : (Value.text s).isTruthy = true :=
      isTruthy_of_wordOf_ne (by rw [hword]; decide)
    refine Or.inl ⟨.bool true, if_pos hword, ?_⟩
    simp only [literal, toValue, htruthy]
    rfl
  | int n => exact Or.inl ⟨.int n, rfl, rfl⟩
  | float x =>
    cases hfinite : x.isFinite with
    | true => exact Or.inl ⟨.float x, if_pos hfinite, rfl⟩
    | false =>
      refine Or.inr ⟨⟨.expectedFinite (.float x), ?_⟩, .notFinite x, ?_⟩
      · simp [coerce, toValue, hfinite, refuse, Value.isPrintable]
      · simp [literal, toValue, numberLiteral, hfinite]
  | @token s x hread hwritten =>
    refine Or.inl ⟨.ofNumber x, ?_, hwritten.symm⟩
    simp only [coerce, toValue, hread]
    rfl

/-- Every other value is written, but not as what it is coerced to: every value counts as true or
false, and of a text that is read as a number the text itself is written. -/
theorem Scalar.exists_literal_of_not_isSteady
    {kind : Kind} {raw : Scalar} (h : ¬raw.IsSteady kind) :
    ∃ s, literal kind raw.toValue = .ok s ∧
      ∀ v, coerce kind raw.toValue = .ok v → ∃ t, literal kind v.toValue = .ok t ∧ t ≠ s := by
  cases kind with
  | text => exact absurd (.text raw) h
  | bool =>
    refine ⟨_, rfl, fun v hv => ?_⟩
    cases raw with
    | bool b => exact absurd (.bool b) h
    | text s =>
      simp only [coerce, toValue] at hv
      split_ifs at hv with htrue hfalse
      · exact absurd (.word htrue) h
      · obtain rfl := Except.ok.inj hv
        have htruthy : (Value.text s).isTruthy = true :=
          isTruthy_of_wordOf_ne (by rw [hfalse]; decide)
        refine ⟨"false", rfl, ?_⟩
        simp only [toValue, htruthy]
        decide
      · exact absurd hv (refuse_ne_ok _ _ _)
    | _ => exact absurd hv (refuse_ne_ok _ _ _)
  | number =>
    cases raw with
    | int n => exact absurd (.int n) h
    | float x => exact absurd (.float x) h
    | bool b => exact ⟨_, rfl, fun v hv => absurd hv (refuse_ne_ok _ _ _)⟩
    | text s =>
      refine ⟨s, rfl, fun v hv => ?_⟩
      obtain ⟨found, hfound, hv⟩ := Failure.bind_eq_ok_iff.mp hv
      cases found with
      | none => exact absurd hv (refuse_ne_ok _ _ _)
      | some x =>
        obtain rfl := Except.ok.inj hv
        obtain ⟨t, ht⟩ := exists_literal_of_ofChars? hfound
        refine ⟨t, ht, ?_⟩
        rintro rfl
        exact h (.token hfound ht)

/-! ## From a request to the engine -/

namespace Override

/-- A scalar passes the check of scalars as it is. -/
theorem scalar_toValue (v : Scalar) :
    Check.scalar v.toValue = .good v := by
  cases v with
  | _ => rfl

/-- A kind passes under its name. -/
theorem choice_kindName (kind : Kind) :
    Check.choice Kind.name Kind.all (.text kind.name) = .good kind := by
  cases kind with
  | _ => rfl

/-- An override is checked for its name alone. -/
theorem check_toValue (o : Override) :
    check o.toValue =
      if isName o.name then .good o
      else .bad [⟨.patternMismatch namePattern, [.key "name"], .text o.name⟩] := by
  simp only [check, toValue, Check.record, Check.required, Check.defaulted, List.lookup_cons,
    String.reduceBEq, Check.text, carriedText?, Check.ofReading, Checked.andThen, scalar_toValue,
    choice_kindName]
  split_ifs
  · rfl
  · rfl

theorem check_toValue_of_isName
    {o : Override} (hname : isName o.name = true) :
    check o.toValue = .good o := by
  rw [check_toValue, if_pos hname]

/-- An override that cannot be written keeps the whole list from the engine's arguments. -/
theorem exists_arguments_eq_error
    {o : Override} {overrides : List Override} (ho : o ∈ overrides) {failure : Failure}
    (h : o.expression = .error failure) :
    ∃ failure, Engine.arguments overrides = .error failure := by
  cases harguments : Engine.arguments overrides with
  | error cause => exact ⟨cause, rfl⟩
  | ok arguments =>
    obtain ⟨definitions, hdefinitions, -⟩ := Failure.bind_eq_ok_iff.mp harguments
    have hwritten : List.Forall₂
        (fun x y => (∃ definition, x.expression = .ok definition) ∧ x.expression = .ok y)
        overrides definitions :=
      (forall₂_of_mapM hdefinitions).imp fun x y hxy => ⟨⟨y, hxy.2⟩, hxy.2⟩
    obtain ⟨definition, hdefinition⟩ := ((List.forall₂_and_left _ _).mp hwritten).1 o ho
    exact absurd (h.symm.trans hdefinition) nofun

theorem expression_eq_ok_iff {o : Override} {s : String} :
    o.expression = .ok (o.name ++ "=" ++ s) ↔ literal o.kind o.value.toValue = .ok s := by
  constructor
  · intro h
    obtain ⟨t, ht, hsame⟩ := Failure.bind_eq_ok_iff.mp h
    obtain rfl := (String.append_right_inj _).mp (Except.ok.inj hsame)
    exact ht
  · intro h
    exact Failure.bind_eq_ok_iff.mpr ⟨s, h, rfl⟩

/-- The override stands for what its value would stand for as an edited one.  A value that is
taken is written as it is taken; one that is refused never gets to the engine's arguments. -/
structure AgreesWithEdit (o : Override) : Prop where
  taken : ∀ v s, coerce o.kind o.value.toValue = .ok v → literal o.kind v.toValue = .ok s →
    check o.toValue = .good o ∧ o.expression = .ok (o.name ++ "=" ++ s)
  refused : ∀ failure, coerce o.kind o.value.toValue = .error failure →
    (∃ issues, check o.toValue = .bad issues) ∨
    check o.toValue = .good o ∧ (∃ cause, o.expression = .error cause) ∧
      ∀ overrides, o ∈ overrides → ∃ cause, Engine.arguments overrides = .error cause

theorem agreesWithEdit_of_isSteady
    {o : Override} (hname : isName o.name = true) (hsteady : o.value.IsSteady o.kind) :
    o.AgreesWithEdit := by
  have hgood := check_toValue_of_isName hname
  rcases hsteady.literal_eq with ⟨v, hv, hsame⟩ | ⟨⟨failure, hfailure⟩, cause, hcause⟩
  · constructor
    · intro w s hw hs
      obtain rfl := Except.ok.inj (hv.symm.trans hw)
      exact ⟨hgood, expression_eq_ok_iff.mpr (hsame.trans hs)⟩
    · intro failure hfailure
      exact absurd (hv.symm.trans hfailure) nofun
  · have hexpression : o.expression = .error cause := by
      rw [expression, hcause]
      rfl
    constructor
    · intro v s hv
      exact absurd (hfailure.symm.trans hv) nofun
    · intro failure' _
      refine Or.inr ⟨hgood, ⟨cause, hexpression⟩, ?_⟩
      intro overrides ho
      exact exists_arguments_eq_error ho hexpression

theorem isSteady_of_agreesWithEdit
    {o : Override} (hname : isName o.name = true) (h : o.AgreesWithEdit) :
    o.value.IsSteady o.kind := by
  by_contra hsteady
  obtain ⟨s, hs, hother⟩ := Scalar.exists_literal_of_not_isSteady hsteady
  have hexpression := expression_eq_ok_iff.mpr hs
  cases hcoerce : coerce o.kind o.value.toValue with
  | ok v =>
    obtain ⟨t, ht, hne⟩ := hother v hcoerce
    obtain ⟨-, hagrees⟩ := h.taken v t hcoerce ht
    exact hne (Except.ok.inj ((expression_eq_ok_iff.mp hagrees).symm.trans hs))
  | error failure =>
    rcases h.refused failure hcoerce with ⟨issues, hbad⟩ | ⟨-, ⟨cause, hcause⟩, -⟩
    · have hgood := check_toValue_of_isName hname
      exact absurd (hgood.symm.trans hbad) nofun
    · exact absurd (hexpression.symm.trans hcause) nofun

/-- Exactly the steady values stand for the same by both routes. -/
theorem agreesWithEdit_iff
    {o : Override} (hname : isName o.name = true) :
    o.AgreesWithEdit ↔ o.value.IsSteady o.kind :=
  ⟨isSteady_of_agreesWithEdit hname, agreesWithEdit_of_isSteady hname⟩

/-- The word for a truth value is taken as the truth value, the other word is not. -/
theorem agreesWithEdit_iff_of_word :
    isName "hollow" = true ∧ AgreesWithEdit ⟨"hollow", .text "true", .bool⟩ ∧
      ¬AgreesWithEdit ⟨"hollow", .text "false", .bool⟩ := by
  have hname : isName "hollow" = true := by decide +kernel
  refine ⟨hname, (agreesWithEdit_iff hname).mpr (.word (by decide +kernel)), ?_⟩
  intro hagrees
  have hsteady : (Scalar.text "false").IsSteady .bool := (agreesWithEdit_iff hname).mp hagrees
  cases hsteady with
  | word hword => exact absurd hword (by decide +kernel)

/-- Not every override stands for what its value would stand for as an edited one. -/
theorem not_forall_agreesWithEdit :
    ¬∀ o : Override, isName o.name = true → o.AgreesWithEdit := by
  intro hall
  have hagrees := hall ⟨"x", .text "false", .bool⟩ (by decide +kernel)
  have hcoerce : coerce .bool (.text "false") = .ok (.bool false) :=
    Failure.eq_ok_of_toOption (by decide +kernel)
  obtain ⟨-, hexpression⟩ := hagrees.taken (.bool false) "false" hcoerce rfl
  have hwritten : expression ⟨"x", .text "false", .bool⟩ = .ok "x=true" :=
    Failure.eq_ok_of_toOption (by decide +kernel)
  exact absurd (Except.ok.inj (hwritten.symm.trans hexpression)) (by decide)

end Override

end SolidWorkshop
