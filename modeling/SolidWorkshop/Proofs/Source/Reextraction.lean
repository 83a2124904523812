import SolidWorkshop.Proofs.Source.Writing

/-!
# Extracting again what was written

A text with edited values in it is read as the same parameters with these values.  A written
literal keeps its line an assignment of the same name with the same comment, and since it is read
as a value of the parameter's kind, the comment says about it what it said before.  The other
lines are not touched, so sections begin and the scan ends where they did.
-/

namespace SolidWorkshop

open Text Source

/-- A descriptor is read again: everything that a user sees of it is the same, and the value in
the text is the one that was set. -/
structure Descriptor.IsReadAs (e d : Descriptor) : Prop where
  name : d.name = e.name
  line : d.line = e.line
  sectionTitle : d.sectionTitle = e.sectionTitle
  kind : d.kind = e.kind
  comment : d.comment = e.comment
  description : d.description = e.description
  options : d.options = e.options
  min : d.min = e.min
  max : d.max = e.max
  step : d.step = e.step
  ambiguous : d.ambiguous = e.ambiguous
  value : e.value.eq d.value = true

namespace Source

/-! ## One line -/

/-- Of a literal that already has the kind that the comment asks for, the comment says the same. -/
theorem annotate_of_annotate
    {d e : Descriptor} {note : Annotation} (h : annotate d note = .ok e)
    (rawLine rawValue : List Char) (valueEnd : Int) (value : Scalar) :
    annotate { d with rawLine, rawValue, valueEnd, value, default := value, kind := e.kind } note =
      .ok { e with rawLine, rawValue, valueEnd, value, default := value } := by
  cases note with
  | none =>
    obtain rfl : d = e := Except.ok.inj h
    rfl
  | range low step high =>
    obtain rfl := Except.ok.inj h
    rfl
  | options tokens ambiguous =>
    obtain ⟨options, hoptions, he⟩ := Failure.bind_eq_ok_iff.mp h
    obtain rfl := Except.ok.inj he
    exact Failure.bind_eq_ok_iff.mpr ⟨options, hoptions, rfl⟩
  | description text =>
    obtain rfl := Except.ok.inj h
    rfl

/-- With another literal of the descriptor's kind the line leads to the same descriptor with
another value. -/
theorem descriptorOf?_withLiteral
    {p : Layout} {line : Nat} {title : Option String} {d : Descriptor}
    (h : descriptorOf? p.assignment line p.line title = .ok (some d)) {literal : List Char}
    {value : Scalar} (hread : Literal.ofChars? literal = .ok (some (d.kind, value))) :
    descriptorOf? (p.withLiteral literal).assignment line (p.withLiteral literal).line title =
      .ok (some { d with
        rawLine := (p.withLiteral literal).line, rawValue := literal,
        valueEnd := (p.front.length + literal.length : Nat), value, default := value }) := by
  obtain ⟨hspecial, kind, old, note, -, hnote, he⟩ := descriptorOf?_eq_some_iff.mp h
  exact descriptorOf?_eq_some_iff.mpr
    ⟨hspecial, d.kind, value, note, hread, hnote, annotate_of_annotate he _ _ _ _⟩

/-- A value that differs from the one in the text was taken for the parameter. -/
theorem hasKind_of_changed
    {d e : Descriptor} (hedit : e.IsEditOf d) (hd : d.isUnchanged = true)
    (he : e.isUnchanged = false) :
    e.value.HasKind e.kind := by
  obtain ⟨value, rfl, rfl | ⟨raw, hraw⟩⟩ := hedit
  · exact absurd hd (by simpa using he)
  · exact hasKind_of_coerce hraw

/-- The line of an edited descriptor is read as the descriptor. -/
theorem exists_descriptorOf?_render
    {rawLine : List Char} {a : Assignment} {line : Nat} {title : Option String}
    {d e : Descriptor} (hshape : Shape.ofLine? rawLine = some (.assignment a))
    (h : descriptorOf? a line rawLine title = .ok (some d)) (hedit : e.IsEditOf d)
    (hplain : e.isUnchanged = false → e.value.IsPlain) :
    ∃ newLine b again, e.render = .ok newLine ∧
      Shape.ofLine? newLine = some (.assignment b) ∧
      descriptorOf? b line newLine title = .ok (some again) ∧ e.IsReadAs again := by
  obtain ⟨p, hp, -, rfl, hvalue, hunchanged⟩ := standsFor_of_descriptorOf? hshape h
  cases hchanged : e.isUnchanged with
  | true =>
    refine ⟨d.rawLine, a, d, ?_, hshape, h, ?_⟩
    · obtain ⟨value, rfl, -⟩ := hedit
      exact render_of_isUnchanged hchanged
    · obtain ⟨value, rfl, -⟩ := hedit
      refine ⟨rfl, rfl, rfl, rfl, rfl, rfl, rfl, rfl, rfl, rfl, rfl, ?_⟩
      rw [hvalue]
      exact hchanged
  | false =>
    have hkind := hasKind_of_changed hedit hunchanged hchanged
    obtain ⟨literal, hliteral, hreads⟩ := exists_literal_readsBack hkind (hplain hchanged)
    obtain ⟨value, hread, hequal⟩ := hreads.read
    have hrender := render_of_standsFor (hedit.standsFor hp) hchanged hliteral
    have hnew := hp.wellFormed.withLiteral hreads.rightHandSide hreads.head_ne_sign
    have hassignment := hp.wellFormed.shape_line_of_stopWord? hp.isAssignment
    have hnewAssignment := hnew.shape_line_of_stopWord? hp.isAssignment
    rw [hp.rawLine] at hshape h
    obtain rfl : p.assignment = a := by
      rw [hshape] at hassignment
      simpa using hassignment.symm
    obtain ⟨new, rfl, -⟩ := hedit
    exact ⟨_, _, _, hrender, hnewAssignment, descriptorOf?_withLiteral h hread,
      ⟨rfl, rfl, rfl, rfl, rfl, rfl, rfl, rfl, rfl, rfl, rfl, hequal⟩⟩

/-! ## All lines -/

/-- Lines with edited descriptors written into them, numbered from the given number on. -/
structure WrittenFrom (first : Nat) (ls : List (List Char)) (edited : List Descriptor)
    (written : List (List Char)) : Prop where
  length : written.length = ls.length
  other : ∀ i : Nat, (∀ d ∈ edited, d.line ≠ (first + i : Nat)) → written[i]? = ls[i]?
  rendered : ∀ d ∈ edited, ∀ i : Nat, d.line = (first + i : Nat) →
    ∃ line, d.render = .ok line ∧ written[i]? = some line

/-- Behind the first line only the descriptors of the later lines matter. -/
theorem WrittenFrom.tail
    {first : Nat} {line : List Char} {ls : List (List Char)} {edited later : List Descriptor}
    {newLine : List Char} {written : List (List Char)}
    (h : WrittenFrom first (line :: ls) edited (newLine :: written))
    (hlater : ∀ d ∈ edited, d ∈ later ∨ d.line = first) (hsub : ∀ d ∈ later, d ∈ edited) :
    WrittenFrom (first + 1) ls later written where
  length := by simpa using h.length
  other i hi := by
    have hnone : ∀ d ∈ edited, d.line ≠ (first + (i + 1) : Nat) := by
      intro d hd hline
      rcases hlater d hd with hd | hfirst
      · exact hi d hd (by omega)
      · omega
    simpa using h.other (i + 1) hnone
  rendered d hd i hi := by
    have hline : d.line = (first + (i + 1) : Nat) := by omega
    simpa using h.rendered d (hsub d hd) (i + 1) hline

/-- A line that no descriptor stands on is written as it was. -/
theorem WrittenFrom.head_eq
    {first : Nat} {line : List Char} {ls : List (List Char)} {edited : List Descriptor}
    {written : List (List Char)} (h : WrittenFrom first (line :: ls) edited written)
    (hnone : ∀ d ∈ edited, (first : Int) < d.line) :
    ∃ rest, written = line :: rest ∧ WrittenFrom (first + 1) ls edited rest := by
  have hhead := h.other 0 fun d hd => by
    have := hnone d hd
    omega
  cases written with
  | nil => simp at hhead
  | cons newLine rest =>
    obtain rfl : newLine = line := by simpa using hhead
    exact ⟨rest, rfl, h.tail (fun d hd => Or.inl hd) fun d hd => hd⟩

/-- The line of the first descriptor is written as it is rendered. -/
theorem WrittenFrom.head_render
    {first : Nat} {line : List Char} {ls : List (List Char)} {e : Descriptor}
    {later : List Descriptor} {written : List (List Char)}
    (h : WrittenFrom first (line :: ls) (e :: later) written) (hfirst : e.line = first) :
    ∃ newLine rest, e.render = .ok newLine ∧ written = newLine :: rest ∧
      WrittenFrom (first + 1) ls later rest := by
  obtain ⟨newLine, hrender, hget⟩ := h.rendered e List.mem_cons_self 0 (by simpa using hfirst)
  cases written with
  | nil => simp at hget
  | cons head rest =>
    obtain rfl : head = newLine := by simpa using hget
    refine ⟨head, rest, hrender, rfl, h.tail ?_ fun d hd => List.mem_cons_of_mem e hd⟩
    intro d hd
    rcases List.mem_cons.mp hd with rfl | hd
    · exact Or.inr hfirst
    · exact Or.inl hd

theorem line_gt_of_scan
    {first : Nat} {title : Option String} {ls : List (List Char)} {found edited : List Descriptor}
    (h : scan (first + 1) title ls = .ok found)
    (hedits : List.Forall₂ (fun d e => Descriptor.IsEditOf e d) found edited) :
    ∀ e ∈ edited, (first : Int) < e.line := by
  intro e he
  obtain ⟨d, hd, value, rfl, -⟩ := exists_of_mem_right hedits he
  obtain ⟨i, hline, -⟩ := (scan_standsIn h).1 d hd
  dsimp only
  omega

/-- The written lines are scanned with the same result, up to the values that were set. -/
theorem exists_scan_written
    {first : Nat} {title : Option String} {ls written : List (List Char)}
    {found edited : List Descriptor} (h : scan first title ls = .ok found)
    (hedits : List.Forall₂ (fun d e => Descriptor.IsEditOf e d) found edited)
    (hplain : ∀ d ∈ edited, d.isUnchanged = false → d.value.IsPlain)
    (hwritten : WrittenFrom first ls edited written) :
    ∃ again, scan first title written = .ok again ∧
      List.Forall₂ Descriptor.IsReadAs edited again := by
  induction ls generalizing first title found edited written with
  | nil =>
    obtain rfl : [] = found := Except.ok.inj h
    obtain rfl : written = [] := List.eq_nil_of_length_eq_zero hwritten.length
    cases hedits
    exact ⟨[], rfl, .nil⟩
  | cons rawLine ls ih =>
    cases hshape : Shape.ofLine? rawLine with
    | none =>
      rw [scan_cons_none hshape] at h
      obtain ⟨rest, rfl, hrest⟩ := hwritten.head_eq (line_gt_of_scan h hedits)
      rw [scan_cons_none hshape]
      exact ih h hedits hplain hrest
    | some shape =>
      cases shape with
      | sectionHeader header =>
        rw [scan_cons_header hshape] at h
        obtain ⟨rest, rfl, hrest⟩ := hwritten.head_eq (line_gt_of_scan h hedits)
        rw [scan_cons_header hshape]
        exact ih h hedits hplain hrest
      | stopKeyword word =>
        rw [scan_cons_stop hshape] at h
        obtain rfl : [] = found := Except.ok.inj h
        cases hedits
        obtain ⟨rest, rfl, -⟩ := hwritten.head_eq (by simp)
        exact ⟨[], scan_cons_stop hshape first title rest, .nil⟩
      | assignment a =>
        obtain ⟨here, others, hhere, hothers, rfl⟩ := (scan_cons_assignment hshape).mp h
        cases here with
        | none =>
          obtain ⟨rest, rfl, hrest⟩ := hwritten.head_eq (line_gt_of_scan hothers hedits)
          obtain ⟨again, hagain, hread⟩ := ih hothers hedits hplain hrest
          exact ⟨again, (scan_cons_assignment hshape).mpr ⟨none, again, hhere, hagain, rfl⟩, hread⟩
        | some d =>
          cases hedits with
          | @cons _ e _ later hedit hedits =>
            obtain ⟨newLine, b, new, hrender, hnewShape, hnew, hread⟩ :=
              exists_descriptorOf?_render hshape hhere hedit (hplain e List.mem_cons_self)
            obtain ⟨p, -, hline, -⟩ := standsFor_of_descriptorOf? hshape hhere
            have hfirst : e.line = first := by
              obtain ⟨value, rfl, -⟩ := hedit
              exact hline
            obtain ⟨line, rest, hrendered, rfl, hrest⟩ := hwritten.head_render hfirst
            obtain rfl : line = newLine := Except.ok.inj (hrendered.symm.trans hrender)
            obtain ⟨again, hagain, hreads⟩ :=
              ih hothers hedits (fun f hf => hplain f (List.mem_cons_of_mem e hf)) hrest
            exact ⟨new :: again,
              (scan_cons_assignment hnewShape).mpr ⟨some new, again, hnew, hagain, rfl⟩,
              .cons hread hreads⟩

/-! ## The whole text -/

/-- A changed value among edited descriptors has the kind of its parameter. -/
theorem Edited.hasKind
    {source : List Char} {found edited : List Descriptor} (hfound : extract source = .ok found)
    (hedited : Edited found edited) {e : Descriptor} (he : e ∈ edited)
    (hchanged : e.isUnchanged = false) :
    e.value.HasKind e.kind := by
  obtain ⟨d, hd, hedit⟩ := exists_of_mem_right hedited.forall₂_isEditOf he
  obtain ⟨i, -, -, hunchanged, -⟩ := (extract_standsIn hfound).1 d hd
  exact hasKind_of_changed hedit hunchanged hchanged

/-- A descriptor with a plain value is rendered on one line. -/
theorem exists_render_of_isPlain
    {e : Descriptor} {p : Layout} (he : e.StandsFor p) (hline : '\n' ∉ e.rawLine)
    (hkind : e.isUnchanged = false → e.value.HasKind e.kind)
    (hplain : e.isUnchanged = false → e.value.IsPlain) :
    ∃ line, e.render = .ok line ∧ '\n' ∉ line := by
  cases hchanged : e.isUnchanged with
  | true => exact ⟨e.rawLine, render_of_isUnchanged hchanged, hline⟩
  | false =>
    obtain ⟨literal, hliteral, hreads⟩ :=
      exists_literal_readsBack (hkind hchanged) (hplain hchanged)
    refine ⟨_, render_of_standsFor he hchanged hliteral, ?_⟩
    rw [he.rawLine, Layout.line] at hline
    have hnew := hreads.oneLine
    rw [Layout.line_withLiteral]
    simp only [List.mem_append, not_or] at hline ⊢
    exact ⟨hline.1, hnew, hline.2.2⟩

/-- Edited descriptors with plain values are written, and extracting from the text that comes out
gives the same parameters in the same order, each with the value that it was set to. -/
theorem extract_written_gives_edited
    {source : List Char} {found edited : List Descriptor} (hfound : extract source = .ok found)
    (hedited : Edited found edited)
    (hplain : ∀ d ∈ edited, d.isUnchanged = false → d.value.IsPlain) :
    ∃ written again, synthesize source edited = .ok written ∧ extract written = .ok again ∧
      List.Forall₂ Descriptor.IsReadAs edited again := by
  have honeLine : ∀ d ∈ edited, ∃ line, d.render = .ok line ∧ '\n' ∉ line := by
    intro d hd
    obtain ⟨i, -, hget, p, hp⟩ := hedited.mem_standsIn hfound hd
    exact exists_render_of_isPlain hp (newline_not_mem_of_mem_lines (List.mem_of_getElem? hget))
      (hedited.hasKind hfound hd) (hplain d hd)
  have hrender : ∀ d ∈ edited, ∃ line, d.render = .ok line := by
    intro d hd
    obtain ⟨line, hline, -⟩ := honeLine d hd
    exact ⟨line, hline⟩
  obtain ⟨written, hsynthesize, hlength, hother, hrendered⟩ :=
    synthesize_eq_ok hfound hedited hrender
  have hwritten : WrittenFrom 0 (lines source) edited written :=
    ⟨hlength, by simpa using hother, by simpa using hrendered⟩
  obtain ⟨again, hagain, hreads⟩ :=
    exists_scan_written hfound hedited.forall₂_isEditOf hplain hwritten
  have hne : written ≠ [] := by
    have := List.length_pos_iff.mpr (lines_ne_nil source)
    exact List.length_pos_iff.mp (by omega)
  have hfree : ∀ line ∈ written, '\n' ∉ line := by
    intro line hline
    obtain ⟨i, hi⟩ := List.mem_iff_getElem?.mp hline
    by_cases hany : ∃ d ∈ edited, d.line = i
    · obtain ⟨d, hd, hstand⟩ := hany
      obtain ⟨rendered, hrenders, hget⟩ := hrendered d hd i hstand
      obtain ⟨single, hsingle, hnot⟩ := honeLine d hd
      obtain rfl : rendered = single := Except.ok.inj (hrenders.symm.trans hsingle)
      obtain rfl : line = rendered := Option.some.inj (hi.symm.trans hget)
      exact hnot
    · push Not at hany
      rw [hother i hany] at hi
      exact newline_not_mem_of_mem_lines (List.mem_of_getElem? hi)
  refine ⟨unlines written, again, hsynthesize, ?_, hreads⟩
  rw [extract, lines_unlines hne hfree]
  exact hagain

/-- A switch with a range takes a number, and a text takes an escaped quote; both are read again,
in their section and in front of the definition. -/
theorem extract_written_gives_switch_and_text :
    ∃ found edited written again,
      extract "// [Size]\non = true; // [0:10]\r\nlabel = \"a\";\nmodule m();".toList = .ok found ∧
      Edited found edited ∧ (∀ d ∈ edited, d.isUnchanged = false → d.value.IsPlain) ∧
      synthesize "// [Size]\non = true; // [0:10]\r\nlabel = \"a\";\nmodule m();".toList edited =
        .ok written ∧
      written = "// [Size]\non = 2.5; // [0:10]\r\nlabel = \"a\\\"\";\nmodule m();".toList ∧
      extract written = .ok again ∧ List.Forall₂ Descriptor.IsReadAs edited again := by
  let switch : Descriptor :=
    { Assignment.descriptor ⟨"on", "true".toList, 5, 9, "[0:10]"⟩ 1
        "on = true; // [0:10]\r".toList (some "Size") .number (.bool true) with
      min := some (.int 0), max := some (.int 10) }
  let label : Descriptor :=
    Assignment.descriptor ⟨"label", "\"a\"".toList, 8, 11, ""⟩ 2 "label = \"a\";".toList
      (some "Size") .text (.text "a")
  let number : Descriptor := { switch with value := .float (.ofDecimal false 25 (-1)) }
  let quote : Descriptor := { label with value := .text "a\\\"" }
  have hfound : extract "// [Size]\non = true; // [0:10]\r\nlabel = \"a\";\nmodule m();".toList =
      .ok [switch, label] :=
    Failure.eq_ok_of_toOption (by decide +kernel)
  have hnumber : switch.set (.text "2.5") = .ok number :=
    Failure.eq_ok_of_toOption (by decide +kernel)
  have hedited : Edited [switch, label] [number, quote] :=
    .tail (.single ⟨0, switch, .text "2.5", number, rfl, hnumber, rfl⟩)
      ⟨1, label, .text "a\\\"", quote, rfl, rfl, rfl⟩
  have hclosed : EscapeClosed "a\\\"".toList :=
    .plain (by decide) (by decide) (.pair .nil)
  have hplain : ∀ d ∈ [number, quote], d.isUnchanged = false → d.value.IsPlain :=
    List.forall_mem_cons.mpr ⟨fun _ => trivial,
      List.forall_mem_cons.mpr ⟨fun _ => ⟨by decide, hclosed⟩, by simp⟩⟩
  obtain ⟨written, again, hwritten, hagain, hreads⟩ :=
    extract_written_gives_edited hfound hedited hplain
  have htext : synthesize "// [Size]\non = true; // [0:10]\r\nlabel = \"a\";\nmodule m();".toList
      [number, quote] =
      .ok "// [Size]\non = 2.5; // [0:10]\r\nlabel = \"a\\\"\";\nmodule m();".toList :=
    Failure.eq_ok_of_toOption (by decide +kernel)
  exact ⟨[switch, label], [number, quote], written, again, hfound, hedited, hplain, hwritten,
    Except.ok.inj (hwritten.symm.trans htext), hagain, hreads⟩

end Source

end SolidWorkshop
