import SolidWorkshop.Proofs.Source.Literal
import SolidWorkshop.Source.Extraction

/-!
# Where descriptors stand

An extracted descriptor stands for the assignment on one line of the text: the line is laid out
as an assignment, and the descriptor holds the parts of this layout.  Different descriptors of a
text stand on different lines, in the order of these lines.
-/

namespace SolidWorkshop

open Source

/-! ## One descriptor -/

/-- The descriptor stands for the assignment of a layout. -/
structure Descriptor.StandsFor (d : Descriptor) (p : Layout) : Prop where
  wellFormed : p.WellFormed
  isAssignment : stopWord? (p.name ++ p.beforeSign) = none
  name : d.name = String.ofList p.name
  rawLine : d.rawLine = p.line
  rawValue : d.rawValue = p.literal
  valueStart : d.valueStart = p.front.length
  valueEnd : d.valueEnd = (p.front.length + p.literal.length : Nat)
  comment : d.comment = String.ofList (commentText p.tail)

namespace Source

/-- What a comment says about a parameter changes neither its place nor its value. -/
theorem annotate_frame
    {d e : Descriptor} {note : Annotation} (h : annotate d note = .ok e) :
    e = { d with
      kind := e.kind, options := e.options, min := e.min, max := e.max, step := e.step,
      description := e.description, ambiguous := e.ambiguous } := by
  cases note with
  | none =>
    obtain rfl : d = e := Except.ok.inj h
    rfl
  | range low step high =>
    obtain rfl := Except.ok.inj h
    rfl
  | options tokens ambiguous =>
    obtain ⟨options, -, he⟩ := Failure.bind_eq_ok_iff.mp h
    obtain rfl := Except.ok.inj he
    rfl
  | description text =>
    obtain rfl := Except.ok.inj h
    rfl

/-- An assignment leads to a descriptor when its name is not kept for the engine, its right-hand
side is a literal, and its comment can be read. -/
theorem descriptorOf?_eq_some_iff
    {a : Assignment} {line : Nat} {rawLine : List Char} {title : Option String} {d : Descriptor} :
    descriptorOf? a line rawLine title = .ok (some d) ↔
      a.isSpecial = false ∧ ∃ kind value note,
        Literal.ofChars? a.literal = .ok (some (kind, value)) ∧
        Annotation.ofChars a.comment.toList = .ok note ∧
        annotate (a.descriptor line rawLine title kind value) note = .ok d := by
  unfold descriptorOf?
  cases hspecial : a.isSpecial with
  | true => simp
  | false =>
    simp only [Bool.false_eq_true, if_false, true_and, Failure.bind_eq_ok_iff]
    constructor
    · rintro ⟨literal, hliteral, h⟩
      cases literal with
      | none => simp [pure, Except.pure] at h
      | some literal =>
        obtain ⟨note, hnote, h⟩ := Failure.bind_eq_ok_iff.mp h
        obtain ⟨e, he, h⟩ := Failure.bind_eq_ok_iff.mp h
        obtain rfl : e = d := by simpa [pure, Except.pure] using h
        exact ⟨literal.1, literal.2, note, hliteral, hnote, he⟩
    · rintro ⟨kind, value, note, hliteral, hnote, he⟩
      refine ⟨some (kind, value), hliteral, ?_⟩
      exact Failure.bind_eq_ok_iff.mpr
        ⟨note, hnote, Failure.bind_eq_ok_iff.mpr ⟨d, he, rfl⟩⟩

/-- The descriptor of an assignment stands for the layout of its line. -/
theorem standsFor_of_descriptorOf?
    {rawLine : List Char} {a : Assignment} {line : Nat} {title : Option String} {d : Descriptor}
    (hshape : Shape.ofLine? rawLine = some (.assignment a))
    (h : descriptorOf? a line rawLine title = .ok (some d)) :
    ∃ p : Layout, d.StandsFor p ∧ d.line = line ∧ d.rawLine = rawLine ∧ d.value = d.default ∧
      d.isUnchanged = true := by
  obtain ⟨-, kind, value, note, hliteral, -, he⟩ := descriptorOf?_eq_some_iff.mp h
  obtain ⟨p, hp, rfl, rfl, hstop⟩ := Shape.exists_layout_of_assignment hshape
  have hframe := annotate_frame he
  have hvalue := Scalar.eq_self (Literal.hasKind_of_ofChars? hliteral)
  refine ⟨p, ⟨hp, hstop, ?_, ?_, ?_, ?_, ?_, ?_⟩, ?_, ?_, ?_, ?_⟩
  any_goals rw [hframe]; rfl
  rw [hframe]
  exact hvalue

/-! ## All descriptors of a text -/

theorem scan_cons_none
    {rawLine : List Char} (hshape : Shape.ofLine? rawLine = none) (line : Nat)
    (title : Option String) (rest : List (List Char)) :
    scan line title (rawLine :: rest) = scan (line + 1) title rest := by
  rw [scan, hshape]

theorem scan_cons_header
    {rawLine : List Char} {header : String}
    (hshape : Shape.ofLine? rawLine = some (.sectionHeader header)) (line : Nat)
    (title : Option String) (rest : List (List Char)) :
    scan line title (rawLine :: rest) = scan (line + 1) (some header) rest := by
  rw [scan, hshape]

theorem scan_cons_stop
    {rawLine : List Char} {word : String}
    (hshape : Shape.ofLine? rawLine = some (.stopKeyword word)) (line : Nat)
    (title : Option String) (rest : List (List Char)) :
    scan line title (rawLine :: rest) = .ok [] := by
  rw [scan, hshape]

theorem scan_cons_assignment
    {rawLine : List Char} {a : Assignment}
    (hshape : Shape.ofLine? rawLine = some (.assignment a)) {line : Nat}
    {title : Option String} {rest : List (List Char)} {found : List Descriptor} :
    scan line title (rawLine :: rest) = .ok found ↔
      ∃ first others, descriptorOf? a line rawLine title = .ok first ∧
        scan (line + 1) title rest = .ok others ∧ found = first.toList ++ others := by
  rw [scan, hshape]
  simp only [Failure.bind_eq_ok_iff, pure, Except.pure, Except.ok.injEq]
  constructor
  · rintro ⟨first, hfirst, others, hothers, rfl⟩
    exact ⟨first, others, hfirst, hothers, rfl⟩
  · rintro ⟨first, others, hfirst, hothers, rfl⟩
    exact ⟨first, hfirst, others, hothers, rfl⟩

/-- The descriptor stands for the assignment on its line, among lines that are numbered from the
given number on. -/
def StandsIn (first : Nat) (ls : List (List Char)) (d : Descriptor) : Prop :=
  ∃ i : Nat, d.line = (first + i : Nat) ∧ ls[i]? = some d.rawLine ∧ d.isUnchanged = true ∧
    ∃ p : Layout, d.StandsFor p

theorem StandsIn.cons
    {first : Nat} {ls : List (List Char)} {d : Descriptor} (h : StandsIn (first + 1) ls d)
    (line : List Char) :
    StandsIn first (line :: ls) d := by
  obtain ⟨i, hline, hget, hvalue, hp⟩ := h
  refine ⟨i + 1, ?_, by simpa using hget, hvalue, hp⟩
  rw [hline]
  congr 1
  omega

/-- Every descriptor that a scan finds stands on its line, and the lines go up. -/
theorem scan_standsIn
    {first : Nat} {title : Option String} {ls : List (List Char)} {found : List Descriptor}
    (h : scan first title ls = .ok found) :
    (∀ d ∈ found, StandsIn first ls d) ∧ found.Pairwise fun d e => d.line < e.line := by
  induction ls generalizing first title found with
  | nil =>
    obtain rfl : [] = found := Except.ok.inj h
    simp
  | cons rawLine rest ih =>
    cases hshape : Shape.ofLine? rawLine with
    | none =>
      rw [scan_cons_none hshape] at h
      exact ⟨fun d hd => ((ih h).1 d hd).cons rawLine, (ih h).2⟩
    | some shape =>
      cases shape with
      | sectionHeader header =>
        rw [scan_cons_header hshape] at h
        exact ⟨fun d hd => ((ih h).1 d hd).cons rawLine, (ih h).2⟩
      | stopKeyword word =>
        rw [scan_cons_stop hshape] at h
        obtain rfl : [] = found := Except.ok.inj h
        simp
      | assignment a =>
        obtain ⟨here, others, hhere, hothers, rfl⟩ := (scan_cons_assignment hshape).mp h
        obtain ⟨hstand, hsorted⟩ := ih hothers
        have hbehind : ∀ d ∈ others, StandsIn first (rawLine :: rest) d :=
          fun d hd => (hstand d hd).cons rawLine
        cases here with
        | none => exact ⟨hbehind, hsorted⟩
        | some d =>
          obtain ⟨p, hp, hline, hraw, -, hvalue⟩ := standsFor_of_descriptorOf? hshape hhere
          have hd : StandsIn first (rawLine :: rest) d :=
            ⟨0, by simpa using hline, by simp [hraw], hvalue, p, hp⟩
          refine ⟨?_, List.pairwise_cons.mpr ⟨?_, hsorted⟩⟩
          · intro e he
            rcases List.mem_cons.mp he with rfl | he
            · exact hd
            · exact hbehind e he
          · intro e he
            obtain ⟨i, hi, -⟩ := hstand e he
            rw [hline, hi]
            omega

/-- Every extracted descriptor stands on its line, and the lines go up. -/
theorem extract_standsIn
    {source : List Char} {found : List Descriptor} (h : extract source = .ok found) :
    (∀ d ∈ found, StandsIn 0 (Text.lines source) d) ∧ found.Pairwise fun d e => d.line < e.line :=
  scan_standsIn h

end Source

end SolidWorkshop
