import SolidWorkshop.Proofs.Source.Writing

/-!
# Extraction from the preamble

The lines in front of the first definition are the preamble of a text.  What is extracted are the
parameters of the preamble, one for each of its lines that assigns a literal to a plain name, in
the order of these lines and with the section each stands in.  What stands on the line of the
first definition or behind it plays no part.
-/

namespace SolidWorkshop

open Source

/-- What a trailing comment can make of a parameter: it has a range, or a list of options, or a
description, or nothing of these. -/
structure Descriptor.IsCoherent (d : Descriptor) : Prop where
  options : d.options.isSome = true → d.min = none ∧ d.max = none
  bounds : d.min.isSome = d.max.isSome
  step : d.step.isSome = true → d.min.isSome = true
  ambiguous : d.ambiguous = true → d.options.isSome = true
  description : d.description ≠ "" → d.options = none ∧ d.min = none ∧ d.max = none

namespace Source

/-! ## The preamble -/

/-- The line begins a definition. -/
def beginsDefinition (line : List Char) : Bool :=
  match Shape.ofLine? line with
  | some (.stopKeyword _) => true
  | _ => false

/-- The title of a line that is the header of a section. -/
def header? (line : List Char) : Option String :=
  match Shape.ofLine? line with
  | some (.sectionHeader title) => some title
  | _ => none

/-- The lines in front of the first one that begins a definition. -/
def preamble (ls : List (List Char)) : List (List Char) :=
  ls.takeWhile fun line => !beginsDefinition line

/-- The title of the last header in front of a place, or the one that holds from the start. -/
def titleBefore (title : Option String) (ls : List (List Char)) (place : Nat) : Option String :=
  ((ls.take place).filterMap header?).getLast?.or title

/-- The kind of a literal below its comment: a range makes it a number. -/
def kindUnder (kind : Kind) : Annotation → Kind
  | .range .. => .number
  | _ => kind

/-- A line that assigns a value. -/
structure Site where
  line : List Char
  assignment : Assignment
  kind : Kind
  value : Scalar

/-- The line is an assignment of a literal, and its name is not kept for the engine. -/
structure Site.IsEditable (s : Site) : Prop where
  shape : Shape.ofLine? s.line = some (.assignment s.assignment)
  plain : s.assignment.name.toList.head? ≠ some sigil
  literal : Literal.ofChars? s.assignment.literal = .ok (some (s.kind, s.value))

/-- A line is that of one literal at most. -/
theorem Site.IsEditable.ext
    {s t : Site} (hs : s.IsEditable) (ht : t.IsEditable) (hline : s.line = t.line) :
    s = t := by
  obtain ⟨line, a, kind, value⟩ := s
  obtain ⟨line', a', kind', value'⟩ := t
  obtain rfl : line = line' := hline
  obtain rfl : a = a' := by
    have hshape := hs.shape.symm.trans ht.shape
    injection hshape with hshape
    injection hshape
  have hliteral := hs.literal.symm.trans ht.literal
  injection hliteral with hliteral
  injection hliteral with hliteral
  obtain ⟨rfl, rfl⟩ := Prod.mk.inj hliteral
  rfl

end Source

/-- The descriptor is that of an assignment on the line of a number, below the header of a
section. -/
structure Descriptor.Describes (d : Descriptor) (s : Site) (line : Nat) (title : Option String) :
    Prop where
  line : d.line = line
  title : d.sectionTitle = title
  name : d.name = s.assignment.name
  comment : d.comment = s.assignment.comment
  rawLine : d.rawLine = s.line
  rawValue : d.rawValue = s.assignment.literal
  /-- The literal stands at the place that is kept for it. -/
  place : ∃ start stop : Nat, d.valueStart = start ∧ d.valueEnd = stop ∧
    (d.rawLine.take stop).drop start = d.rawValue
  value : d.value = s.value
  default : d.default = s.value
  kind : ∃ note, Annotation.ofChars s.assignment.comment.toList = .ok note ∧
    d.kind = kindUnder s.kind note
  coherent : d.IsCoherent

namespace Source

section Preamble

variable {line : List Char} {ls : List (List Char)}

theorem preamble_cons_of_stop
    {word : String} (h : Shape.ofLine? line = some (.stopKeyword word)) :
    preamble (line :: ls) = [] := by
  have hstop : beginsDefinition line = true := by rw [beginsDefinition, h]
  rw [preamble, List.takeWhile_cons_of_neg (by rw [hstop]; decide)]

theorem preamble_cons_of_not_stop
    (h : ∀ word, Shape.ofLine? line ≠ some (.stopKeyword word)) :
    preamble (line :: ls) = line :: preamble ls := by
  have hgo : beginsDefinition line = false := by
    unfold beginsDefinition
    split
    · next word hword => exact absurd hword (h word)
    · rfl
  rw [preamble, List.takeWhile_cons_of_pos (by rw [hgo]; rfl)]
  rfl

/-- The header on a line holds for the lines behind it. -/
theorem titleBefore_cons (title : Option String) (place : Nat) :
    titleBefore title (line :: ls) (place + 1) =
      titleBefore ((header? line).or title) ls place := by
  unfold titleBefore
  rw [List.take_succ_cons, List.filterMap_cons]
  cases header? line with
  | none => rfl
  | some own =>
    dsimp only
    rw [List.getLast?_cons]
    cases ((ls.take place).filterMap header?).getLast? with
    | none => rfl
    | some last => rfl

end Preamble

/-! ## One line -/

theorem isSpecial_eq_false_iff
    {a : Assignment} :
    a.isSpecial = false ↔ a.name.toList.head? ≠ some sigil := by
  rw [Assignment.isSpecial, beq_eq_false_iff_ne]

/-- What a comment says is coherent, and it changes the kind for a range only. -/
theorem annotate_coherent
    {a : Assignment} {line : Nat} {rawLine : List Char} {title : Option String} {kind : Kind}
    {value : Scalar} {note : Annotation} {d : Descriptor}
    (h : annotate (a.descriptor line rawLine title kind value) note = .ok d) :
    d.IsCoherent ∧ d.kind = kindUnder kind note := by
  cases note with
  | none =>
    obtain rfl := Except.ok.inj h
    exact ⟨⟨nofun, rfl, nofun, nofun, fun hne => absurd rfl hne⟩, rfl⟩
  | range low step high =>
    obtain rfl := Except.ok.inj h
    exact ⟨⟨nofun, rfl, fun _ => rfl, nofun, fun hne => absurd rfl hne⟩, rfl⟩
  | options tokens ambiguous =>
    obtain ⟨options, -, he⟩ := Failure.bind_eq_ok_iff.mp h
    obtain rfl := Except.ok.inj he
    exact ⟨⟨fun _ => ⟨rfl, rfl⟩, rfl, nofun, fun _ => rfl, fun hne => absurd rfl hne⟩, rfl⟩
  | description text =>
    obtain rfl := Except.ok.inj h
    exact ⟨⟨nofun, rfl, nofun, nofun, fun _ => ⟨rfl, rfl, rfl⟩⟩, rfl⟩

section Line

variable {rawLine : List Char} {a : Assignment} {line : Nat} {title : Option String}

/-- What an assignment leads to describes it. -/
theorem describes_of_descriptorOf?
    {d : Descriptor} (hshape : Shape.ofLine? rawLine = some (.assignment a))
    (h : descriptorOf? a line rawLine title = .ok (some d)) :
    ∃ s : Site, s.line = rawLine ∧ s.IsEditable ∧ d.Describes s line title := by
  obtain ⟨hplain, kind, value, note, hliteral, hcomment, hnote⟩ := descriptorOf?_eq_some_iff.mp h
  obtain ⟨p, hp, rfl, rfl, -⟩ := Shape.exists_layout_of_assignment hshape
  obtain ⟨hcoherent, hkind⟩ := annotate_coherent hnote
  have hframe := annotate_frame hnote
  have hslice : (p.line.take (p.front.length + p.literal.length)).drop p.front.length =
      p.literal := by
    rw [p.take_line_literal, List.drop_left]
  refine ⟨⟨p.line, p.assignment, kind, value⟩, rfl,
    ⟨hshape, isSpecial_eq_false_iff.mp hplain, hliteral⟩, ?_⟩
  refine ⟨?_, ?_, ?_, ?_, ?_, ?_,
    ⟨p.front.length, p.front.length + p.literal.length, ?_, ?_, ?_⟩, ?_, ?_,
    ⟨note, hcomment, hkind⟩, hcoherent⟩
  any_goals rw [hframe]; rfl
  rw [hframe]
  exact hslice

/-- An assignment that is to be edited leads to a descriptor. -/
theorem descriptorOf?_ne_none
    {s : Site} (hs : s.IsEditable) :
    descriptorOf? s.assignment line rawLine title ≠ .ok none := by
  intro h
  have hplain := isSpecial_eq_false_iff.mpr hs.plain
  rw [descriptorOf?, hplain, hs.literal] at h
  simp only [Bool.false_eq_true, if_false] at h
  obtain ⟨literal, hliteral, h⟩ := Failure.bind_eq_ok_iff.mp h
  obtain rfl := Except.ok.inj hliteral
  obtain ⟨note, -, h⟩ := Failure.bind_eq_ok_iff.mp h
  obtain ⟨d, -, h⟩ := Failure.bind_eq_ok_iff.mp h
  exact absurd (Except.ok.inj h) nofun

end Line

/-! ## The lines in their order -/

/-- The descriptors are those of the lines from a number on, and every line that assigns a literal
has one. -/
structure DescribesLines (first : Nat) (title : Option String) (ls : List (List Char))
    (found : List Descriptor) : Prop where
  sound : ∀ d ∈ found, ∃ i s, ls[i]? = some s.line ∧ s.IsEditable ∧
    d.Describes s (first + i) (titleBefore title ls i)
  complete : ∀ i s, ls[i]? = some s.line → s.IsEditable →
    ∃ d ∈ found, d.Describes s (first + i) (titleBefore title ls i)

section Scan

variable {first : Nat} {title : Option String} {line : List Char} {ls : List (List Char)}
  {found : List Descriptor}

theorem DescribesLines.nil (first : Nat) (title : Option String) :
    DescribesLines first title [] [] where
  sound := fun _ hd => absurd hd List.not_mem_nil
  complete := fun i _ hget _ => absurd hget (by simp)

/-- A description of a line, with one more line in front. -/
theorem describes_behind
    {d : Descriptor} {s : Site} {i : Nat}
    (h : d.Describes s (first + 1 + i) (titleBefore ((header? line).or title) ls i)) :
    d.Describes s (first + (i + 1)) (titleBefore title (line :: ls) (i + 1)) := by
  rw [titleBefore_cons, ← Nat.add_assoc, Nat.add_right_comm]
  exact h

/-- A line without a descriptor is not one to be edited. -/
theorem DescribesLines.cons_none
    (h : DescribesLines (first + 1) ((header? line).or title) ls found)
    (hline : ∀ s : Site, s.line = line → ¬s.IsEditable) :
    DescribesLines first title (line :: ls) found := by
  constructor
  · intro d hd
    obtain ⟨i, s, hget, hs, hdescribes⟩ := h.sound d hd
    exact ⟨i + 1, s, hget, hs, describes_behind hdescribes⟩
  · intro i s hget hs
    cases i with
    | zero => exact absurd hs (hline s (Option.some.inj hget).symm)
    | succ i =>
      obtain ⟨d, hd, hdescribes⟩ := h.complete i s hget hs
      exact ⟨d, hd, describes_behind hdescribes⟩

/-- The descriptor of a line stands in front of those of the lines behind it. -/
theorem DescribesLines.cons_some
    (h : DescribesLines (first + 1) ((header? line).or title) ls found)
    {d : Descriptor} {here : Site} (hline : here.line = line) (hhere : here.IsEditable)
    (hd : d.Describes here first title) :
    DescribesLines first title (line :: ls) (d :: found) := by
  constructor
  · intro e he
    rcases List.mem_cons.mp he with rfl | he
    · exact ⟨0, here, by rw [hline]; rfl, hhere, hd⟩
    · obtain ⟨i, s, hget, hs, hdescribes⟩ := h.sound e he
      exact ⟨i + 1, s, hget, hs, describes_behind hdescribes⟩
  · intro i s hget hs
    cases i with
    | zero =>
      have hsame : s = here := hs.ext hhere (by rw [hline]; exact (Option.some.inj hget).symm)
      exact ⟨d, List.mem_cons_self, hsame ▸ hd⟩
    | succ i =>
      obtain ⟨e, he, hdescribes⟩ := h.complete i s hget hs
      exact ⟨e, List.mem_cons_of_mem d he, describes_behind hdescribes⟩

theorem header?_eq_none
    (h : ∀ header, Shape.ofLine? line ≠ some (.sectionHeader header)) :
    header? line = none := by
  unfold header?
  split
  · next header hheader => exact absurd hheader (h header)
  · rfl

/-- What is found on the lines of a preamble are the descriptors of these lines. -/
theorem scan_describesLines
    (h : scan first title ls = .ok found) :
    DescribesLines first title (preamble ls) found := by
  induction ls generalizing first title found with
  | nil =>
    obtain rfl : [] = found := Except.ok.inj h
    exact .nil first title
  | cons line rest ih =>
    cases hshape : Shape.ofLine? line with
    | none =>
      rw [scan_cons_none hshape] at h
      rw [preamble_cons_of_not_stop (by rw [hshape]; nofun)]
      refine DescribesLines.cons_none ?_ ?_
      · rw [header?_eq_none (by rw [hshape]; nofun)]
        exact ih h
      · rintro s rfl hs
        rw [hs.shape] at hshape
        contradiction
    | some shape =>
      cases shape with
      | sectionHeader header =>
        rw [scan_cons_header hshape] at h
        rw [preamble_cons_of_not_stop (by rw [hshape]; nofun)]
        refine DescribesLines.cons_none ?_ ?_
        · rw [header?, hshape]
          exact ih h
        · rintro s rfl hs
          rw [hs.shape] at hshape
          cases hshape
      | stopKeyword word =>
        rw [scan_cons_stop hshape] at h
        obtain rfl : [] = found := Except.ok.inj h
        rw [preamble_cons_of_stop hshape]
        exact .nil first title
      | assignment a =>
        obtain ⟨here, others, hhere, hothers, rfl⟩ := (scan_cons_assignment hshape).mp h
        have hheader : header? line = none := header?_eq_none (by rw [hshape]; nofun)
        rw [preamble_cons_of_not_stop (by rw [hshape]; nofun)]
        have hbehind : DescribesLines (first + 1) ((header? line).or title) (preamble rest)
            others := by
          rw [hheader]
          exact ih hothers
        cases here with
        | none =>
          refine hbehind.cons_none ?_
          rintro s rfl hs
          obtain rfl : s.assignment = a := by
            rw [hs.shape] at hshape
            injection hshape with hshape
            injection hshape
          exact descriptorOf?_ne_none hs hhere
        | some d =>
          obtain ⟨s, hline, hs, hd⟩ := describes_of_descriptorOf? hshape hhere
          exact hbehind.cons_some hline hs hd

/-- The lines behind the preamble play no part. -/
theorem scan_preamble (first : Nat) (title : Option String) (ls : List (List Char)) :
    scan first title (preamble ls) = scan first title ls := by
  induction ls generalizing first title with
  | nil => rfl
  | cons line rest ih =>
    cases hshape : Shape.ofLine? line with
    | none =>
      rw [preamble_cons_of_not_stop (by rw [hshape]; nofun), scan_cons_none hshape,
        scan_cons_none hshape, ih]
    | some shape =>
      cases shape with
      | sectionHeader header =>
        rw [preamble_cons_of_not_stop (by rw [hshape]; nofun), scan_cons_header hshape,
          scan_cons_header hshape, ih]
      | stopKeyword word =>
        rw [preamble_cons_of_stop hshape, scan_cons_stop hshape]
        rfl
      | assignment a =>
        rw [preamble_cons_of_not_stop (by rw [hshape]; nofun), scan, scan, hshape, ih]

end Scan

/-! ## A whole text -/

/-- The extracted descriptors, in the order of their lines, are those of the literals in the
preamble.  Whatever values they take, they change in their values only.  Another text with the
same preamble has the same descriptors. -/
theorem extract_describes_preamble
    {source : List Char} {found : List Descriptor} (h : extract source = .ok found) :
    found.Pairwise (fun d e => d.line < e.line) ∧
      DescribesLines 0 none (preamble (Text.lines source)) found ∧
      (∀ edited, Edited found edited →
        List.Forall₂ (fun d e => ∃ value, e = { d with value }) found edited) ∧
      ∀ other, preamble (Text.lines other) = preamble (Text.lines source) →
        extract other = .ok found := by
  refine ⟨(extract_standsIn h).2, scan_describesLines h, ?_, ?_⟩
  · intro edited hedited
    refine hedited.forall₂_isEditOf.imp ?_
    rintro d e ⟨value, he, -⟩
    exact ⟨value, he⟩
  · intro other hsame
    calc extract other
        = scan 0 none (preamble (Text.lines other)) := (scan_preamble 0 none _).symm
      _ = scan 0 none (preamble (Text.lines source)) := by rw [hsame]
      _ = extract source := scan_preamble 0 none _
      _ = .ok found := h

/-- Two parameters, one of them below a header, with a name that is kept for the engine between
them and an assignment behind the first definition. -/
def workedPreamble : List Char :=
  ("width = 10; // [1:20]\n$fn = 32;\n// [Lid]\nlabel = \"a\"; // Text\nmodule m();\n" ++
    "height = 3;").toList

theorem extract_describes_preamble_of_workedPreamble :
    ∃ width label : Descriptor,
      extract workedPreamble = .ok [width, label] ∧
      [width, label].Pairwise (fun d e => d.line < e.line) ∧
      DescribesLines 0 none
        ["width = 10; // [1:20]".toList, "$fn = 32;".toList, "// [Lid]".toList,
          "label = \"a\"; // Text".toList] [width, label] ∧
      (∀ edited, Edited [width, label] edited →
        List.Forall₂ (fun d e => ∃ value, e = { d with value }) [width, label] edited) ∧
      extract ("width = 10; // [1:20]\n$fn = 32;\n// [Lid]\nlabel = \"a\"; // Text\n" ++
        "function f(x) = x;").toList = .ok [width, label] := by
  let width : Descriptor :=
    { Assignment.descriptor ⟨"width", "10".toList, 8, 10, "[1:20]"⟩ 0
        "width = 10; // [1:20]".toList none .number (.int 10) with
      min := some (.int 1), max := some (.int 20) }
  let label : Descriptor :=
    { Assignment.descriptor ⟨"label", "\"a\"".toList, 8, 11, "Text"⟩ 3
        "label = \"a\"; // Text".toList (some "Lid") .text (.text "a") with
      description := "Text" }
  have hfound : extract workedPreamble = .ok [width, label] :=
    Failure.eq_ok_of_toOption (by decide +kernel)
  have hpreamble : preamble (Text.lines workedPreamble) =
      ["width = 10; // [1:20]".toList, "$fn = 32;".toList, "// [Lid]".toList,
        "label = \"a\"; // Text".toList] := by decide +kernel
  obtain ⟨hlines, hdescribes, hedited, hother⟩ := extract_describes_preamble hfound
  rw [hpreamble] at hdescribes hother
  exact ⟨width, label, hfound, hlines, hdescribes, hedited, hother _ (by decide +kernel)⟩

end Source

end SolidWorkshop
