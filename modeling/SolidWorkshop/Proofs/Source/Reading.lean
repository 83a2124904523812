import SolidWorkshop.Proofs.Source.Anchor

/-!
# Which texts can be read

A right-hand side that is no literal is passed over, and a comment that is no annotation is a
description.  The one thing that stops the extraction is an integer with more digits than the
reader of integers takes, and it does so wherever a token is read as a number: as a right-hand
side, as an operand of a range, or as an option of a number.
-/

namespace SolidWorkshop

open Text

/-! ## Integers with too many digits -/

/-- A sign and digits alone, but more digits than the reader of integers takes. -/
def IsOverlong (token : List Char) : Prop :=
  ∃ n, Numeral.ofChars? (trim token) = some n ∧ n.isInteger = true ∧
    Numeral.digitLimit < n.whole.length

theorem trim_trim (s : List Char) :
    trim (trim s) = trim s := by
  refine trim_eq_self ?_ (noBlankEnd_trimEnd _)
  obtain ⟨-, blank, -, hs⟩ := trimEnd_eq_iff.mp (rfl : trimEnd (trimStart s) = trim s)
  intro c hc
  refine noBlankStart_trimStart s c ?_
  rw [hs, List.head?_append]
  exact Option.or_eq_some_iff.mpr (Or.inl hc)

theorem isOverlong_trim_iff {token : List Char} :
    IsOverlong (trim token) ↔ IsOverlong token := by
  rw [IsOverlong, IsOverlong, trim_trim]

theorem not_isOverlong_of_ofChars?
    {token : List Char} (h : Numeral.ofChars? (trim token) = none) :
    ¬IsOverlong token := by
  rintro ⟨n, hn, -⟩
  exact absurd (h.symm.trans hn) nofun

/-- A text that begins with a quote is no number. -/
theorem numeral_eq_none_of_head?
    {s : List Char} (h : s.head? = some '"') :
    Numeral.ofChars? s = none := by
  obtain ⟨rest, rfl⟩ := List.head?_eq_some_iff.mp h
  rfl

/-! ## Readings that stop at such an integer -/

/-- Under the condition a reading stops at an integer with too many digits, and it succeeds
otherwise. -/
structure StopsIf {α : Type} (p : Prop) (reading : Except Failure α) : Prop where
  ok : ¬p → ∃ a, reading = .ok a
  error : p → ∃ count, reading = .error (.tooManyDigits count)

namespace StopsIf

variable {α β : Type} {p q : Prop} {reading : Except Failure α}

theorem pure (a : α) : StopsIf False (.ok a) :=
  ⟨fun _ => ⟨a, rfl⟩, False.elim⟩

theorem of_iff (h : StopsIf p reading) (hiff : p ↔ q) : StopsIf q reading :=
  ⟨fun hq => h.ok fun hp => hq (hiff.mp hp), fun hq => h.error (hiff.mpr hq)⟩

theorem ok_iff (h : StopsIf p reading) :
    (∃ a, reading = .ok a) ↔ ¬p := by
  refine ⟨?_, h.ok⟩
  rintro ⟨a, ha⟩ hp
  obtain ⟨count, hcount⟩ := h.error hp
  exact absurd (ha.symm.trans hcount) nofun

/-- The second reading is reached only if the first one succeeds. -/
theorem bind
    {q : α → Prop} {next : α → Except Failure β} (h : StopsIf p reading)
    (hnext : ∀ a, reading = .ok a → StopsIf (q a) (next a)) :
    StopsIf (p ∨ ∃ a, reading = .ok a ∧ q a) (reading >>= next) := by
  constructor
  · intro hnone
    rw [not_or] at hnone
    obtain ⟨a, ha⟩ := h.ok hnone.1
    obtain ⟨b, hb⟩ := (hnext a ha).ok fun hq => hnone.2 ⟨a, ha, hq⟩
    exact ⟨b, Failure.bind_eq_ok_iff.mpr ⟨a, ha, hb⟩⟩
  · rintro (hp | ⟨a, ha, hq⟩)
    · obtain ⟨count, hcount⟩ := h.error hp
      exact ⟨count, by rw [hcount]; rfl⟩
    · obtain ⟨count, hcount⟩ := (hnext a ha).error hq
      exact ⟨count, by rw [ha]; exact hcount⟩

theorem bind_or
    {next : α → Except Failure β} (h : StopsIf p reading)
    (hnext : ∀ a, reading = .ok a → StopsIf q (next a)) :
    StopsIf (p ∨ q) (reading >>= next) := by
  refine (h.bind hnext).of_iff ?_
  constructor
  · rintro (hp | ⟨a, -, hq⟩)
    · exact Or.inl hp
    · exact Or.inr hq
  · intro hany
    by_cases hp : p
    · exact Or.inl hp
    · obtain ⟨a, ha⟩ := h.ok hp
      exact Or.inr ⟨a, ha, hany.resolve_left hp⟩

/-- What is made of what was read does not matter. -/
theorem map
    {next : α → Except Failure β} (h : StopsIf p reading)
    (hnext : ∀ a, ∃ b, next a = .ok b) :
    StopsIf p (reading >>= next) := by
  refine (h.bind_or fun a _ => ?_).of_iff (or_false p).to_iff
  obtain ⟨b, hb⟩ := hnext a
  rw [hb]
  exact .pure b

theorem mapM
    {q : α → Prop} {read : α → Except Failure β} {xs : List α}
    (h : ∀ x ∈ xs, StopsIf (q x) (read x)) :
    StopsIf (∃ x ∈ xs, q x) (xs.mapM read) := by
  induction xs with
  | nil => exact (pure []).of_iff (by simp)
  | cons x xs ih =>
    obtain ⟨hx, hxs⟩ := List.forall_mem_cons.mp h
    rw [List.mapM_cons]
    refine (hx.bind_or fun y _ => (ih hxs).map fun ys => ⟨y :: ys, rfl⟩).of_iff ?_
    simp only [List.mem_cons, exists_eq_or_imp]

theorem mapM_option
    {q : α → Prop} {read : α → Except Failure β} {x : Option α}
    (h : ∀ a ∈ x, StopsIf (q a) (read a)) :
    StopsIf (∃ a ∈ x, q a) (x.mapM read) := by
  cases x with
  | none => exact (pure none).of_iff (by simp)
  | some a => exact ((h a rfl).map fun b => ⟨some b, rfl⟩).of_iff (by simp)

end StopsIf

/-! ## Numbers and literals -/

theorem stopsIf_ofChars? (token : List Char) :
    StopsIf (IsOverlong token) (Number.ofChars? token) := by
  unfold Number.ofChars?
  cases hn : Numeral.ofChars? (trim token) with
  | none => exact (StopsIf.pure none).of_iff (iff_of_false id (not_isOverlong_of_ofChars? hn))
  | some n =>
    have hoverlong : IsOverlong token ↔
        n.isInteger = true ∧ Numeral.digitLimit < n.whole.length := by
      simp [IsOverlong, hn]
    refine StopsIf.of_iff ?_ hoverlong.symm
    unfold Numeral.number?
    dsimp only
    split_ifs with hinteger hlong hfinite
    · exact ⟨fun hshort => absurd ⟨hinteger, hlong⟩ hshort, fun _ => ⟨_, rfl⟩⟩
    · exact (StopsIf.pure _).of_iff (iff_of_false id fun h => hlong h.2)
    · exact (StopsIf.pure _).of_iff (iff_of_false id fun h => hinteger h.1)
    · exact (StopsIf.pure _).of_iff (iff_of_false id fun h => hinteger h.1)

namespace Source

/-- The words for truth values and the texts in quotes are no numbers. -/
theorem stopsIf_literal (token : List Char) :
    StopsIf (IsOverlong token) (Literal.ofChars? token) := by
  have hsettled (result : Option (Kind × Scalar)) (hn : Numeral.ofChars? (trim token) = none) :
      StopsIf (IsOverlong token) (.ok result) :=
    (StopsIf.pure result).of_iff (iff_of_false id (not_isOverlong_of_ofChars? hn))
  unfold Literal.ofChars?
  dsimp only
  split_ifs with htrue hfalse hquoted
  · exact hsettled _ (by rw [htrue]; decide +kernel)
  · exact hsettled _ (by rw [hfalse]; decide +kernel)
  · simp only [Bool.and_eq_true, beq_iff_eq] at hquoted
    exact hsettled _ (numeral_eq_none_of_head? hquoted.1.2)
  · simp only [Bool.and_eq_true, beq_iff_eq] at hquoted
    exact hsettled _ (numeral_eq_none_of_head? hquoted.1.2)
  · exact ((stopsIf_ofChars? (trim token)).map fun n => ⟨_, rfl⟩).of_iff isOverlong_trim_iff

/-! ## Comments -/

/-- The pieces between the colons inside a pair of brackets. -/
def rangeParts (inner : List Char) : List (List Char) :=
  splitOn ':' (trim inner)

/-- Two or three number tokens with colons between them. -/
def IsRange (inner : List Char) : Prop :=
  (operands? (rangeParts inner)).isSome = true ∧ (rangeParts inner).all isNumeral = true

theorem operands?_eq_some_iff
    {parts : List (List Char)} {low high : List Char} {step : Option (List Char)} :
    operands? parts = some (low, step, high) ↔ parts = low :: (step.toList ++ [high]) := by
  constructor
  · intro h
    unfold operands? at h
    split at h
    · obtain ⟨⟩ := h
      rfl
    · obtain ⟨⟩ := h
      rfl
    · contradiction
  · rintro rfl
    cases step with
    | none => rfl
    | some step => rfl

/-- The operands of a range are read as numbers, and nothing else inside the brackets is. -/
theorem stopsIf_range? (inner : List Char) :
    StopsIf (IsRange inner ∧ ∃ token ∈ rangeParts inner, IsOverlong token) (range? inner) := by
  unfold range?
  dsimp only
  cases hoperands : operands? (splitOn ':' (trim inner)) with
  | none =>
    refine (StopsIf.pure _).of_iff (iff_of_false id fun h => ?_)
    exact absurd h.1.1 (by simp [rangeParts, hoperands])
  | some operands =>
    obtain ⟨low, step, high⟩ := operands
    dsimp only
    split_ifs with hnumerals
    · refine (StopsIf.pure _).of_iff (iff_of_false id fun h => ?_)
      exact absurd h.1.2 (by simpa [rangeParts] using hnumerals)
    · have hrange : IsRange inner :=
        ⟨by rw [rangeParts, hoperands]; rfl, by simpa [rangeParts] using hnumerals⟩
      have hparts : rangeParts inner = low :: (step.toList ++ [high]) :=
        operands?_eq_some_iff.mp hoperands
      refine ((stopsIf_ofChars? low).bind_or fun x _ =>
        (StopsIf.mapM_option fun token _ => stopsIf_ofChars? token).bind_or fun y _ =>
          (stopsIf_ofChars? high).map fun z => ?_).of_iff ?_
      · split
        · exact ⟨_, rfl⟩
        · exact ⟨_, rfl⟩
        · exact ⟨_, rfl⟩
      · simp [hrange, hparts, or_and_right, exists_or]

theorem stopsIf_comment (comment : List Char) :
    StopsIf (∃ inner, wholeBracket? (trim comment) = some inner ∧ IsRange inner ∧
      ∃ token ∈ rangeParts inner, IsOverlong token) <|
      Annotation.ofChars comment := by
  unfold Annotation.ofChars
  dsimp only
  split_ifs with hempty
  · refine (StopsIf.pure _).of_iff (iff_of_false id ?_)
    rintro ⟨inner, hinner, -⟩
    rw [List.isEmpty_iff.mp hempty] at hinner
    contradiction
  · cases hbracket : wholeBracket? (trim comment) with
    | none => exact (StopsIf.pure _).of_iff (by simp)
    | some inner => exact ((stopsIf_range? inner).map fun range => ⟨_, rfl⟩).of_iff (by simp)

theorem stopsIf_optionOf (kind : Kind) (token : String) :
    StopsIf (kind = .number ∧ IsOverlong token.toList) (optionOf kind token) := by
  unfold optionOf
  split_ifs with hkind
  · refine ((stopsIf_ofChars? token.toList).map fun n => ?_).of_iff (by simp [hkind])
    cases n with
    | none => exact ⟨_, rfl⟩
    | some n => exact ⟨_, rfl⟩
  · exact (StopsIf.pure _).of_iff (by simp [hkind])

/-- The options of a number are read as numbers. -/
theorem stopsIf_annotate (d : Descriptor) (note : Annotation) :
    StopsIf (d.kind = .number ∧ ∃ tokens ambiguous, note = .options tokens ambiguous ∧
      ∃ token ∈ tokens, IsOverlong token.toList) (annotate d note) := by
  cases note with
  | options tokens ambiguous =>
    refine ((StopsIf.mapM fun token _ => stopsIf_optionOf d.kind token).map fun options =>
      ⟨_, rfl⟩).of_iff ?_
    constructor
    · rintro ⟨token, htoken, hkind, hlong⟩
      exact ⟨hkind, tokens, ambiguous, rfl, token, htoken, hlong⟩
    · rintro ⟨hkind, _, _, ⟨⟩, token, htoken, hlong⟩
      exact ⟨token, htoken, hkind, hlong⟩
  | _ => exact (StopsIf.pure _).of_iff (by simp)

/-- The tokens of a comment that are read as numbers, behind a literal of some kind. -/
inductive IsCommentToken (kind : Kind) (comment : List Char) : List Char → Prop
  | operand {inner token : List Char} (hinner : wholeBracket? (trim comment) = some inner)
      (hrange : IsRange inner) (htoken : token ∈ rangeParts inner) :
      IsCommentToken kind comment token
  | option {tokens : List String} {ambiguous : Bool} {token : String} (hkind : kind = .number)
      (hoptions : Annotation.ofChars comment = .ok (.options tokens ambiguous))
      (htoken : token ∈ tokens) : IsCommentToken kind comment token.toList

/-- What a comment says is read first, and then the options in it. -/
theorem exists_isCommentToken_iff {kind : Kind} {comment : List Char} :
    (∃ token, IsCommentToken kind comment token ∧ IsOverlong token) ↔
      (∃ inner, wholeBracket? (trim comment) = some inner ∧ IsRange inner ∧
        ∃ token ∈ rangeParts inner, IsOverlong token) ∨
      ∃ note, Annotation.ofChars comment = .ok note ∧ kind = .number ∧
        ∃ tokens ambiguous, note = .options tokens ambiguous ∧
          ∃ token ∈ tokens, IsOverlong token.toList := by
  constructor
  · rintro ⟨token, htoken, hlong⟩
    cases htoken with
    | operand hinner hrange htoken =>
      exact Or.inl ⟨_, hinner, hrange, token, htoken, hlong⟩
    | option hkind hoptions htoken =>
      exact Or.inr ⟨_, hoptions, hkind, _, _, rfl, _, htoken, hlong⟩
  · rintro (⟨inner, hinner, hrange, token, htoken, hlong⟩ |
      ⟨_, hoptions, hkind, tokens, ambiguous, rfl, token, htoken, hlong⟩)
    · exact ⟨token, .operand hinner hrange htoken, hlong⟩
    · exact ⟨token.toList, .option hkind hoptions htoken, hlong⟩

/-! ## Assignments -/

/-- The tokens of an assignment that are read as numbers. -/
inductive Assignment.IsNumberToken (a : Assignment) : List Char → Prop
  | literal : IsNumberToken a a.literal
  | comment {kind : Kind} {value : Scalar} {token : List Char}
      (hliteral : Literal.ofChars? a.literal = .ok (some (kind, value)))
      (htoken : IsCommentToken kind a.comment.toList token) : IsNumberToken a token

/-- The right-hand side is read first, and then the comment, if there is a literal to say something
about. -/
theorem exists_isNumberToken_iff {a : Assignment} :
    (∃ token, a.IsNumberToken token ∧ IsOverlong token) ↔
      IsOverlong a.literal ∨ ∃ found, Literal.ofChars? a.literal = .ok found ∧
        ∃ literal ∈ found, ∃ token, IsCommentToken literal.1 a.comment.toList token ∧
          IsOverlong token := by
  constructor
  · rintro ⟨token, htoken, hlong⟩
    cases htoken with
    | literal => exact Or.inl hlong
    | comment hliteral htoken => exact Or.inr ⟨_, hliteral, _, rfl, token, htoken, hlong⟩
  · rintro (hlong | ⟨found, hfound, ⟨kind, value⟩, rfl, token, htoken, hlong⟩)
    · exact ⟨a.literal, .literal, hlong⟩
    · exact ⟨token, .comment hfound htoken, hlong⟩

theorem stopsIf_descriptorOf?
    {a : Assignment} (hspecial : a.isSpecial = false) (line : Nat) (rawLine : List Char)
    (title : Option String) :
    StopsIf (∃ token, a.IsNumberToken token ∧ IsOverlong token)
      (descriptorOf? a line rawLine title) := by
  rw [exists_isNumberToken_iff, descriptorOf?, if_neg (by simp [hspecial])]
  refine (stopsIf_literal a.literal).bind fun found _ => ?_
  cases found with
  | none => exact (StopsIf.pure _).of_iff (by simp)
  | some literal =>
    obtain ⟨kind, value⟩ := literal
    refine StopsIf.of_iff ?_ (by simp : (∃ token, IsCommentToken kind a.comment.toList token ∧
      IsOverlong token) ↔ _)
    rw [exists_isCommentToken_iff]
    exact (stopsIf_comment a.comment.toList).bind fun note _ =>
      (stopsIf_annotate (a.descriptor line rawLine title kind value) note).map fun d =>
        ⟨some d, rfl⟩

/-- The assignments in front of the first definition, but for the names that the engine keeps for
itself. -/
def assignments : List (List Char) → List Assignment
  | [] => []
  | rawLine :: rest =>
    match Shape.ofLine? rawLine with
    | some (.stopKeyword _) => []
    | some (.assignment a) => if a.isSpecial then assignments rest else a :: assignments rest
    | _ => assignments rest

theorem stopsIf_scan (line : Nat) (title : Option String) (ls : List (List Char)) :
    StopsIf (∃ a ∈ assignments ls, ∃ token, a.IsNumberToken token ∧ IsOverlong token)
      (scan line title ls) := by
  induction ls generalizing line title with
  | nil => exact (StopsIf.pure []).of_iff (by simp [assignments])
  | cons rawLine rest ih =>
    rw [scan, assignments]
    cases hshape : Shape.ofLine? rawLine with
    | none => exact ih (line + 1) title
    | some shape =>
      cases shape with
      | sectionHeader header => exact ih (line + 1) (some header)
      | stopKeyword word => exact (StopsIf.pure []).of_iff (by simp)
      | assignment a =>
        dsimp only
        cases hspecial : a.isSpecial with
        | true =>
          rw [descriptorOf?, if_pos hspecial]
          exact (ih (line + 1) title).map fun others => ⟨_, rfl⟩
        | false =>
          refine ((stopsIf_descriptorOf? hspecial line rawLine title).bind_or fun found _ =>
            (ih (line + 1) title).map fun others => ⟨found.toList ++ others, rfl⟩).of_iff ?_
          simp

/-! ## The whole text -/

/-- The tokens of a text that are read as numbers. -/
def IsNumberToken (source token : List Char) : Prop :=
  ∃ a ∈ assignments (lines source), a.IsNumberToken token

/-- The extraction stops at an integer with too many digits, and at nothing else. -/
theorem stopsIf_extract (source : List Char) :
    StopsIf (∃ token, IsNumberToken source token ∧ IsOverlong token) (extract source) := by
  refine (stopsIf_scan 0 none (lines source)).of_iff ?_
  constructor
  · rintro ⟨a, ha, token, htoken, hlong⟩
    exact ⟨token, ⟨a, ha, htoken⟩, hlong⟩
  · rintro ⟨token, ⟨a, ha, htoken⟩, hlong⟩
    exact ⟨a, ha, token, htoken, hlong⟩

end Source

end SolidWorkshop
