import SolidWorkshop.Proofs.Number.Exact
import SolidWorkshop.Proofs.Source.Reextraction

/-!
# What an override says and what the text says

The value of a parameter is written twice: as the literal on its line and as the right-hand side
of its override.  The line keeps its token as long as the value is unchanged; the override always
writes the value anew.  The two denote the same value, unless a range in the comment has made a
number of a parameter whose literal is none, and nobody has set it.
-/

namespace SolidWorkshop

open Text Source

namespace Source

/-! ## Tokens of equal value -/

/-- Two tokens denote the same value: they are the same text, or literals of one kind with equal
values. -/
def Literal.SameValue (a b : List Char) : Prop :=
  a = b ∨ ∃ kind v w, Literal.ofChars? a = .ok (some (kind, v)) ∧
    Literal.ofChars? b = .ok (some (kind, w)) ∧ v.eq w = true

/-- A text between two quotes. -/
theorem eq_quotes_append
    {token : List Char} (hlength : 2 ≤ token.length) (hhead : token.head? = some '"')
    (hlast : token.getLast? = some '"') :
    token = ("\"" ++ String.ofList (token.drop 1).dropLast ++ "\"").toList := by
  cases token with
  | nil => contradiction
  | cons c rest =>
    obtain rfl : c = '"' := Option.some.inj hhead
    have hrest : rest ≠ [] := by
      rintro rfl
      simp at hlength
    have hlast' : rest.getLast? = some '"' := by
      rwa [List.getLast?_cons_of_ne_nil hrest] at hlast
    have hbody := List.dropLast_append_getLast? '"' hlast'
    simp [hbody]

/-- The literals there are, as they stand between blanks. -/
theorem Literal.ofChars?_cases
    {token : List Char} {kind : Kind} {v : Scalar}
    (h : Literal.ofChars? token = .ok (some (kind, v))) :
    (∃ b : Bool, kind = .bool ∧ v = .bool b ∧
      trim token = (if b then "true" else "false").toList) ∨
    (∃ s : String, kind = .text ∧ v = .text s ∧ trim token = ("\"" ++ s ++ "\"").toList) ∨
    ∃ x : Number, kind = .number ∧ v = .ofNumber x ∧
      Number.ofChars? (trim token) = .ok (some x) := by
  unfold Literal.ofChars? at h
  dsimp only at h
  split_ifs at h with htrue hfalse hquoted hlength
  · obtain ⟨⟩ := h
    exact Or.inl ⟨true, rfl, rfl, htrue⟩
  · obtain ⟨⟩ := h
    exact Or.inl ⟨false, rfl, rfl, hfalse⟩
  · obtain ⟨⟩ := h
    refine Or.inr (Or.inl ⟨_, rfl, rfl, ?_⟩)
    simp only [Bool.and_eq_true, decide_eq_true_eq, beq_iff_eq] at hquoted
    exact eq_quotes_append hquoted.1.1 hquoted.1.2 hquoted.2
  · cases h
  · obtain ⟨n, hn, h⟩ := Failure.bind_eq_ok_iff.mp h
    obtain ⟨x, rfl, hx⟩ := Option.map_eq_some_iff.mp (Except.ok.inj h)
    obtain ⟨⟩ := hx
    exact Or.inr (Or.inr ⟨x, rfl, rfl, hn⟩)

/-- A value that equals the literal of a right-hand side is written as a literal that denotes the
same value. -/
theorem exists_literal_sameValue
    {token : List Char} {read kind : Kind} {v w : Scalar} (hside : RightHandSide token)
    (hread : Literal.ofChars? token = .ok (some (read, w))) (heq : v.eq w = true)
    (hkind : v.HasKind kind) :
    ∃ s, literal kind v.toValue = .ok s ∧ Literal.SameValue token s.toList := by
  have htrim : trim token = token := trim_eq_self hside.noBlankStart hside.noBlankEnd
  have hcases := Literal.ofChars?_cases hread
  rw [htrim] at hcases
  rcases hcases with ⟨b, rfl, rfl, htoken⟩ | ⟨s, rfl, rfl, htoken⟩ | ⟨x, rfl, rfl, hx⟩
  · cases hkind with
    | bool c =>
      obtain rfl : c = b := eq_of_beq heq
      exact ⟨_, rfl, Or.inl htoken⟩
    | _ => contradiction
  · cases hkind with
    | text t =>
      obtain rfl : t = s := eq_of_beq heq
      exact ⟨_, rfl, Or.inl htoken⟩
    | _ => contradiction
  · obtain ⟨y, rfl⟩ := Scalar.exists_of_eq_ofNumber heq
    obtain rfl : kind = .number := by
      cases y with
      | _ => cases hkind; rfl
    obtain ⟨s, hs, hreads⟩ := exists_literal_readsBack hkind (Scalar.isPlain_of_eq hx heq)
    obtain ⟨w, hread', hsame⟩ := hreads.read
    refine ⟨s, hs, Or.inr ⟨.number, .ofNumber x, w, hread, hread', ?_⟩⟩
    rcases Literal.ofChars?_cases hread' with ⟨_, hbool, -⟩ | ⟨_, htext, -⟩ | ⟨z, -, rfl, hz⟩
    · contradiction
    · contradiction
    · rw [Scalar.eq_ofNumber] at heq hsame ⊢
      exact Number.eq_of_eq (Number.isFinite_of_ofChars? hx) (Number.isFinite_of_ofChars? hz) heq
        hsame

theorem length_trim_le (s : List Char) :
    (trim s).length ≤ s.length := by
  obtain ⟨-, front, -, hfront⟩ := trimStart_eq_iff.mp (rfl : trimStart s = trimStart s)
  obtain ⟨-, back, -, hback⟩ :=
    trimEnd_eq_iff.mp (rfl : trimEnd (trimStart s) = trimEnd (trimStart s))
  have hlengths := congrArg List.length hfront
  have hlengths' := congrArg List.length hback
  rw [List.length_append] at hlengths hlengths'
  change (trimEnd (trimStart s)).length ≤ s.length
  omega

/-- A text in quotes is longer than what stands between them. -/
theorem length_of_ofChars?_text
    {token : List Char} {s : String} (h : Literal.ofChars? token = .ok (some (.text, .text s))) :
    s.toList.length + 2 ≤ token.length := by
  rcases Literal.ofChars?_cases h with ⟨_, hbool, -⟩ | ⟨t, -, hvalue, htoken⟩ | ⟨_, hnumber, -⟩
  · contradiction
  · obtain rfl := Scalar.text.inj hvalue
    have hshorter := length_trim_le token
    have hquote : "\"".toList.length = 1 := rfl
    rw [htoken, String.toList_append, String.toList_append, List.length_append,
      List.length_append] at hshorter
    omega
  · contradiction

/-- The literal of a truth value or a text does not denote what is written for it as a number: the
literal of a text has two quotes more. -/
theorem exists_literal_not_sameValue
    {token : List Char} {kind : Kind} {v : Scalar} (hside : RightHandSide token)
    (hread : Literal.ofChars? token = .ok (some (kind, v))) (hkind : ¬v.HasKind .number) :
    ∃ s, literal .number v.toValue = .ok s ∧ ¬Literal.SameValue token s.toList := by
  have htrim : trim token = token := trim_eq_self hside.noBlankStart hside.noBlankEnd
  rcases Literal.ofChars?_cases hread with
    ⟨b, rfl, rfl, htoken⟩ | ⟨s, rfl, rfl, -⟩ | ⟨x, rfl, rfl, hx⟩
  · refine ⟨if b then "1" else "0", rfl, ?_⟩
    rw [htrim] at htoken
    rintro (hsame | ⟨kind, u, w, hu, hw, -⟩)
    · rw [htoken] at hsame
      cases b with
      | _ => simp at hsame
    · rw [hread] at hu
      obtain ⟨⟩ := hu
      have hone : Literal.ofChars? "1".toList = .ok (some (.number, .int 1)) :=
        Failure.eq_ok_of_toOption (by decide +kernel)
      have hzero : Literal.ofChars? "0".toList = .ok (some (.number, .int 0)) :=
        Failure.eq_ok_of_toOption (by decide +kernel)
      cases b with
      | true =>
        obtain ⟨⟩ := hone.symm.trans hw
      | false =>
        obtain ⟨⟩ := hzero.symm.trans hw
  · refine ⟨s, rfl, ?_⟩
    have hlonger := length_of_ofChars?_text hread
    rintro (hsame | ⟨kind, u, w, hu, hw, heq⟩)
    · rw [hsame] at hlonger
      omega
    · rw [hread] at hu
      obtain ⟨⟩ := hu
      cases w with
      | text t =>
        obtain rfl : s = t := eq_of_beq heq
        have hshorter := length_of_ofChars?_text hw
        omega
      | _ => contradiction
  · exact absurd (Scalar.hasKind_ofNumber (Number.isFinite_of_ofChars? hx)) hkind

/-! ## Setting values by name -/

theorem getElem?_takeWhile_of_find?
    {α : Type} {p : α → Bool} {xs : List α} {x : α} (h : xs.find? p = some x) :
    xs[(xs.takeWhile fun y => !p y).length]? = some x := by
  induction xs with
  | nil => contradiction
  | cons y xs ih =>
    cases hy : p y with
    | true =>
      rw [List.find?_cons_of_pos hy] at h
      simpa [hy] using h
    | false =>
      rw [List.find?_cons_of_neg (by simp [hy])] at h
      simpa [hy] using ih h

/-- A value that is set by name is set on one descriptor. -/
theorem takesValue_of_applyEdit
    {before after : List Descriptor} {name : String} {raw : Value}
    (h : applyEdit before name raw = .ok after) :
    TakesValue before after := by
  unfold applyEdit at h
  split at h
  · contradiction
  · next d hfound =>
    split at h
    · next e hset =>
      obtain rfl := Except.ok.inj h
      refine ⟨_, d, raw, e, ?_, hset, rfl⟩
      have hplace := getElem?_takeWhile_of_find? hfound
      obtain ⟨hlt, -⟩ := List.getElem?_eq_some_iff.mp hplace
      rw [List.length_reverse] at hlt
      rw [List.getElem?_reverse hlt, Nat.sub_right_comm] at hplace
      exact hplace
    · split_ifs at h

theorem edited_of_applyInOrder
    {before after : List Descriptor} {edits : Edits}
    (h : applyInOrder before edits = (after, none)) :
    Edited before after := by
  induction edits generalizing before with
  | nil =>
    obtain ⟨rfl, -⟩ := Prod.mk.inj h
    exact .refl
  | cons edit edits ih =>
    rw [applyInOrder] at h
    split at h
    · next later hstep => exact .head (takesValue_of_applyEdit hstep) (ih h)
    · exact absurd (Prod.mk.inj h).2 nofun

/-- All values have been set when every name is known and they have been set in order. -/
theorem applyEdits_eq_none_iff
    {before after : List Descriptor} {edits : Edits} :
    applyEdits before edits = (after, none) ↔
      unknownNames before edits = [] ∧ applyInOrder before edits = (after, none) := by
  cases hunknown : unknownNames before edits with
  | nil => simp [applyEdits, hunknown]
  | cons name names => simp [applyEdits, hunknown]

theorem edited_of_applyEdits
    {before after : List Descriptor} {edits : Edits}
    (h : applyEdits before edits = (after, none)) :
    Edited before after :=
  edited_of_applyInOrder (applyEdits_eq_none_iff.mp h).2

/-! ## What extraction has read -/

/-- Every descriptor comes from an assignment. -/
theorem exists_assignment_of_mem_scan
    {first : Nat} {title : Option String} {ls : List (List Char)} {found : List Descriptor}
    (h : scan first title ls = .ok found) {d : Descriptor} (hd : d ∈ found) :
    ∃ rawLine a line title, Shape.ofLine? rawLine = some (.assignment a) ∧
      descriptorOf? a line rawLine title = .ok (some d) := by
  induction ls generalizing first title found with
  | nil =>
    obtain rfl : [] = found := Except.ok.inj h
    contradiction
  | cons rawLine rest ih =>
    cases hshape : Shape.ofLine? rawLine with
    | none =>
      rw [scan_cons_none hshape] at h
      exact ih h hd
    | some shape =>
      cases shape with
      | sectionHeader header =>
        rw [scan_cons_header hshape] at h
        exact ih h hd
      | stopKeyword word =>
        rw [scan_cons_stop hshape] at h
        obtain rfl : [] = found := Except.ok.inj h
        contradiction
      | assignment a =>
        obtain ⟨here, others, hhere, hothers, rfl⟩ := (scan_cons_assignment hshape).mp h
        rcases List.mem_append.mp hd with hd | hd
        · obtain rfl := Option.mem_toList.mp hd
          exact ⟨rawLine, a, first, title, hshape, hhere⟩
        · exact ih hothers hd

theorem kind_of_annotate
    {d e : Descriptor} {note : Annotation} (h : annotate d note = .ok e) :
    e.kind = d.kind ∨ e.kind = .number := by
  cases note with
  | none =>
    obtain rfl := Except.ok.inj h
    exact Or.inl rfl
  | range low step high =>
    obtain rfl := Except.ok.inj h
    exact Or.inr rfl
  | options tokens ambiguous =>
    obtain ⟨options, -, he⟩ := Failure.bind_eq_ok_iff.mp h
    obtain rfl := Except.ok.inj he
    exact Or.inl rfl
  | description text =>
    obtain rfl := Except.ok.inj h
    exact Or.inl rfl

/-- The literal of a descriptor is read as its first value; only a range makes a number of it. -/
theorem exists_read_of_mem_extract
    {source : List Char} {found : List Descriptor} (hfound : extract source = .ok found)
    {d : Descriptor} (hd : d ∈ found) :
    ∃ kind, Literal.ofChars? d.rawValue = .ok (some (kind, d.default)) ∧
      d.value = d.default ∧ (d.kind = kind ∨ d.kind = .number) := by
  obtain ⟨rawLine, a, line, title, hshape, hdescriptor⟩ := exists_assignment_of_mem_scan hfound hd
  obtain ⟨-, kind, value, note, hread, -, hnote⟩ := descriptorOf?_eq_some_iff.mp hdescriptor
  have hkind := kind_of_annotate hnote
  have hframe := annotate_frame hnote
  refine ⟨kind, ?_, ?_, hkind⟩
  · rw [hframe]
    exact hread
  · rw [hframe]
    rfl

/-! ## One parameter, written twice -/

/-- A parameter in the lines of a written text, where a token stands in the place of its literal,
and in its override, with a right-hand side. -/
structure StandsWith (d : Descriptor) (written : List (List Char)) (o : Override)
    (token rhs : List Char) : Prop where
  place : ∃ i start stop : Nat, d.line = i ∧ d.valueStart = start ∧ d.valueEnd = stop ∧
    written[i]? = some (d.rawLine.take start ++ token ++ d.rawLine.drop stop)
  name : o.name = d.name
  expression : o.expression = .ok (d.name ++ "=" ++ String.ofList rhs)

/-- What a line is rendered to: its own literal, or the literal of a changed value. -/
theorem exists_token_of_render
    {d : Descriptor} {p : Layout} (hp : d.StandsFor p) {line : List Char}
    (h : d.render = .ok line) :
    ∃ token, line = d.rawLine.take p.front.length ++ token ++
        d.rawLine.drop (p.front.length + p.literal.length) ∧
      (d.isUnchanged = true → token = p.literal) ∧
      (d.isUnchanged = false → ∃ s, d.literal = .ok s ∧ token = s.toList) := by
  cases hchanged : d.isUnchanged with
  | true =>
    rw [render_of_isUnchanged hchanged] at h
    obtain rfl := Except.ok.inj h
    refine ⟨p.literal, ?_, fun _ => rfl, nofun⟩
    rw [hp.rawLine, p.take_line_front, p.drop_line_literal, List.append_assoc]
    rfl
  | false =>
    obtain ⟨s, hs⟩ := exists_literal_of_render h hchanged
    rw [render_of_standsFor hp hchanged hs] at h
    obtain rfl := Except.ok.inj h
    refine ⟨s.toList, ?_, nofun, fun _ => ⟨s, hs, rfl⟩⟩
    rw [hp.rawLine, p.take_line_front, p.drop_line_literal, Layout.line_withLiteral,
      List.append_assoc]

/-- The literal of a parameter's value denotes what stands in the text exactly when the value has
the parameter's kind or has been changed. -/
theorem exists_literal_sameValue_iff
    {d : Descriptor} {p : Layout} {read : Kind} {token : List Char} (hp : d.StandsFor p)
    (hread : Literal.ofChars? d.rawValue = .ok (some (read, d.default)))
    (hkind : d.value.HasKind d.kind ∨ d.value = d.default ∧ (d.kind = read ∨ d.kind = .number))
    (hunchanged : d.isUnchanged = true → token = p.literal)
    (hchanged : d.isUnchanged = false → ∃ s, d.literal = .ok s ∧ token = s.toList) :
    ∃ s, d.literal = .ok s ∧
      (Literal.SameValue token s.toList ↔ (d.isUnchanged = true → d.value.HasKind d.kind)) := by
  have hside := hp.wellFormed.literal
  rw [hp.rawValue] at hread
  cases hsame : d.isUnchanged with
  | false =>
    obtain ⟨s, hs, rfl⟩ := hchanged hsame
    exact ⟨s, hs, fun _ => nofun, fun _ => Or.inl rfl⟩
  | true =>
    obtain rfl := hunchanged hsame
    by_cases hhas : d.value.HasKind d.kind
    · obtain ⟨s, hs, hequal⟩ := exists_literal_sameValue hside hread hsame hhas
      exact ⟨s, hs, fun _ _ => hhas, fun _ => hequal⟩
    · rcases hkind with hhas' | ⟨hvalue, hread' | hnumber⟩
      · exact absurd hhas' hhas
      · rw [hvalue, hread'] at hhas
        exact absurd (Literal.hasKind_of_ofChars? hread) hhas
      · rw [hvalue, hnumber] at hhas
        obtain ⟨s, hs, hdiffers⟩ := exists_literal_not_sameValue hside hread hhas
        refine ⟨s, ?_, fun hequal => absurd hequal hdiffers, fun himp => ?_⟩
        · rw [Descriptor.literal, hvalue, hnumber]
          exact hs
        · have := himp rfl
          rw [hvalue, hnumber] at this
          exact absurd this hhas

theorem eq_of_toOverride
    {d : Descriptor} {o : Override} (h : d.toOverride = .ok o) :
    o = ⟨d.name, d.value, d.kind⟩ := by
  unfold Descriptor.toOverride at h
  split_ifs at h
  exact (Except.ok.inj h).symm

/-- An edited descriptor has its first value, read from its literal, or one of its kind. -/
theorem Edited.exists_read
    {source : List Char} {found edited : List Descriptor} (hfound : extract source = .ok found)
    (hedited : Edited found edited) {d : Descriptor} (hd : d ∈ edited) :
    ∃ kind, Literal.ofChars? d.rawValue = .ok (some (kind, d.default)) ∧
      (d.value.HasKind d.kind ∨ d.value = d.default ∧ (d.kind = kind ∨ d.kind = .number)) := by
  obtain ⟨first, hfirst, value, rfl, hvalue⟩ := exists_of_mem_right hedited.forall₂_isEditOf hd
  obtain ⟨kind, hread, hdefault, hkind⟩ := exists_read_of_mem_extract hfound hfirst
  refine ⟨kind, hread, ?_⟩
  rcases hvalue with rfl | ⟨raw, hraw⟩
  · exact Or.inr ⟨hdefault, hkind⟩
  · exact Or.inl (hasKind_of_coerce hraw)

/-! ## All parameters -/

theorem forall₂_of_mapM
    {α β : Type} {f : α → Except Failure β} {xs : List α} {ys : List β}
    (h : xs.mapM f = .ok ys) :
    List.Forall₂ (fun x y => x ∈ xs ∧ f x = .ok y) xs ys := by
  induction xs generalizing ys with
  | nil =>
    obtain rfl : [] = ys := Except.ok.inj h
    exact .nil
  | cons x xs ih =>
    rw [List.mapM_cons] at h
    obtain ⟨y, hy, h⟩ := Failure.bind_eq_ok_iff.mp h
    obtain ⟨rest, hrest, h⟩ := Failure.bind_eq_ok_iff.mp h
    obtain rfl := Except.ok.inj h
    refine .cons ⟨List.mem_cons_self, hy⟩ ((ih hrest).imp ?_)
    rintro z w ⟨hz, hw⟩
    exact ⟨List.mem_cons_of_mem x hz, hw⟩

theorem exists_render_of_writeLine
    {ls ls' : List (List Char)} {d : Descriptor} (h : writeLine ls d = .ok ls') :
    ∃ line, d.render = .ok line := by
  unfold writeLine at h
  split_ifs at h
  split at h
  · contradiction
  · split_ifs at h
    obtain ⟨line, hline, -⟩ := Failure.bind_eq_ok_iff.mp h
    exact ⟨line, hline⟩

/-- What has been written could be rendered. -/
theorem exists_render_of_foldlM
    {ds : List Descriptor} {ls written : List (List Char)}
    (h : ds.foldlM writeLine ls = .ok written) :
    ∀ d ∈ ds, ∃ line, d.render = .ok line := by
  induction ds generalizing ls with
  | nil => simp
  | cons d ds ih =>
    rw [List.foldlM_cons] at h
    obtain ⟨ls', hfirst, h⟩ := Failure.bind_eq_ok_iff.mp h
    intro e he
    rcases List.mem_cons.mp he with rfl | he
    · exact exists_render_of_writeLine hfirst
    · exact ih h e he

theorem exists_of_customize
    {source effective : List Char} {edits : Edits} {overrides : List Override}
    (h : customize source edits = .ok (effective, overrides)) :
    ∃ found edited, extract source = .ok found ∧ applyEdits found edits = (edited, none) ∧
      synthesize source edited = .ok effective ∧
      edited.mapM Descriptor.toOverride = .ok overrides := by
  obtain ⟨found, hfound, h⟩ := Failure.bind_eq_ok_iff.mp h
  refine ⟨found, ?_⟩
  split at h
  · contradiction
  · next edited hedited =>
    obtain ⟨written, hwritten, h⟩ := Failure.bind_eq_ok_iff.mp h
    obtain ⟨all, hall, h⟩ := Failure.bind_eq_ok_iff.mp h
    obtain ⟨rfl, rfl⟩ := Prod.mk.inj (Except.ok.inj h)
    exact ⟨edited, hfound, hedited, hwritten, hall⟩

/-- When values are set and written back, what stands in the text for a parameter and the
right-hand side of its override denote the same value, except for a parameter that nobody has set
and whose literal does not have the kind that a range has given to the parameter. -/
theorem customize_sameValue_iff
    {source effective : List Char} {edits : Edits} {overrides : List Override}
    (h : customize source edits = .ok (effective, overrides)) :
    ∃ found edited written, extract source = .ok found ∧
      applyEdits found edits = (edited, none) ∧ effective = Text.unlines written ∧
      written.length = (Text.lines source).length ∧
      List.Forall₂ (fun d o => ∃ token rhs, StandsWith d written o token rhs ∧
        (Literal.SameValue token rhs ↔ (d.isUnchanged = true → d.value.HasKind d.kind)))
        edited overrides := by
  obtain ⟨found, edited, hfound, happly, hsynthesize, hoverrides⟩ := exists_of_customize h
  have hedited := edited_of_applyEdits happly
  obtain ⟨lines, hlines, -⟩ := Failure.bind_eq_ok_iff.mp hsynthesize
  obtain ⟨written, hwritten, hlength, -, hplaced⟩ :=
    synthesize_eq_ok hfound hedited (exists_render_of_foldlM hlines)
  refine ⟨found, edited, written, hfound, happly, ?_, hlength, ?_⟩
  · exact Except.ok.inj (hsynthesize.symm.trans hwritten)
  · refine (forall₂_of_mapM hoverrides).imp ?_
    rintro d o ⟨hd, ho⟩
    obtain rfl := eq_of_toOverride ho
    obtain ⟨i, hline, -, p, hp⟩ := hedited.mem_standsIn hfound hd
    obtain ⟨line, hrender, hget⟩ := hplaced d hd i hline
    obtain ⟨token, rfl, hunchanged, hchanged⟩ := exists_token_of_render hp hrender
    obtain ⟨kind, hread, hkind⟩ := hedited.exists_read hfound hd
    obtain ⟨s, hs, hiff⟩ := exists_literal_sameValue_iff hp hread hkind hunchanged hchanged
    refine ⟨token, s.toList, ⟨?_, rfl, ?_⟩, hiff⟩
    · exact ⟨i, _, _, hline, hp.valueStart, hp.valueEnd, hget⟩
    · rw [String.ofList_toList]
      exact Failure.bind_eq_ok_iff.mpr ⟨s, hs, rfl⟩

/-- The literal of a text that a range has made a number of keeps its quotes in the text and has
none in the override. -/
theorem customize_sameValue_iff_of_label :
    customize "label = \"abc\"; // [0:10]".toList [] =
      .ok ("label = \"abc\"; // [0:10]".toList, [⟨"label", .text "abc", .number⟩]) ∧
    ∃ found edited written, extract "label = \"abc\"; // [0:10]".toList = .ok found ∧
      applyEdits found [] = (edited, none) ∧
      "label = \"abc\"; // [0:10]".toList = Text.unlines written ∧
      written.length = (Text.lines "label = \"abc\"; // [0:10]".toList).length ∧
      List.Forall₂ (fun d o => ∃ token rhs, StandsWith d written o token rhs ∧
        (Literal.SameValue token rhs ↔ (d.isUnchanged = true → d.value.HasKind d.kind)))
        edited [⟨"label", .text "abc", .number⟩] := by
  have hcustomize : customize "label = \"abc\"; // [0:10]".toList [] =
      .ok ("label = \"abc\"; // [0:10]".toList, [⟨"label", .text "abc", .number⟩]) :=
    Failure.eq_ok_of_toOption (by decide +kernel)
  exact ⟨hcustomize, customize_sameValue_iff hcustomize⟩

/-- Every parameter denotes the same value in the lines of a written text and in its override. -/
def ReadsIdentically (edited : List Descriptor) (written : List (List Char))
    (overrides : List Override) : Prop :=
  List.Forall₂ (fun d o => ∀ token rhs, StandsWith d written o token rhs →
    Literal.SameValue token rhs) edited overrides

/-- Not every parameter does. -/
theorem not_forall_readsIdentically :
    ¬∀ (source : List Char) (edits : Edits) (overrides : List Override)
      (found edited : List Descriptor) (written : List (List Char)),
      extract source = .ok found → applyEdits found edits = (edited, none) →
      customize source edits = .ok (Text.unlines written, overrides) →
      written.length = (Text.lines source).length →
        ReadsIdentically edited written overrides := by
  intro hall
  let label : Descriptor :=
    { Assignment.descriptor ⟨"label", "\"abc\"".toList, 8, 13, "[0:10]"⟩ 0
        "label = \"abc\"; // [0:10]".toList none .text (.text "abc") with
      kind := .number, min := some (.int 0), max := some (.int 10) }
  have hfound : extract "label = \"abc\"; // [0:10]".toList = .ok [label] :=
    Failure.eq_ok_of_toOption (by decide +kernel)
  have hcustomize : customize "label = \"abc\"; // [0:10]".toList [] =
      .ok (Text.unlines ["label = \"abc\"; // [0:10]".toList],
        [⟨"label", .text "abc", .number⟩]) :=
    Failure.eq_ok_of_toOption (by decide +kernel)
  have hunset : applyEdits [label] [] = ([label], none) := by
    simp [applyEdits, unknownNames, applyInOrder]
  have hreads := hall _ [] _ [label] [label] _ hfound hunset hcustomize (by decide +kernel)
  obtain ⟨hlabel, -⟩ := List.forall₂_cons.mp hreads
  have hstands : StandsWith label ["label = \"abc\"; // [0:10]".toList]
      ⟨"label", .text "abc", .number⟩ "\"abc\"".toList "abc".toList :=
    ⟨⟨0, 8, 13, rfl, rfl, rfl, by decide +kernel⟩, rfl,
      Failure.eq_ok_of_toOption (by decide +kernel)⟩
  have hnone : Literal.ofChars? "abc".toList = .ok none :=
    Failure.eq_ok_of_toOption (by decide +kernel)
  rcases hlabel _ _ hstands with hsame | ⟨kind, v, w, -, hread, -⟩
  · exact absurd hsame (by decide)
  · obtain ⟨⟩ := hnone.symm.trans hread

end Source

end SolidWorkshop
