import SolidWorkshop.Proofs.Source.Layout

/-!
# The grammar of assignments

A line is an assignment exactly if it can be cut into the parts of the grammar, the blank
characters between them included.  There is only one way to cut it, and the reader reports the
parts of this cut: the grammar leaves no choice about where a name, a literal or a comment begins
and ends.
-/

namespace SolidWorkshop.Source

open Text

/-! ## What follows the semicolon -/

/-- What may follow the semicolon of an assignment, blank characters aside: nothing, or a
comment. -/
inductive Remark : List Char → Prop
  | none : Remark []
  | comment (text : List Char) : Remark ('/' :: '/' :: text)

theorem Remark.noBlankStart
    {remark : List Char} (h : Remark remark) :
    NoBlankStart remark := by
  cases h with
  | none => exact nofun
  | comment text => exact noBlankStart_cons rfl

/-- Trimming a remark at its end leaves its slashes in place. -/
theorem trimEnd_comment (text : List Char) :
    trimEnd ('/' :: '/' :: text) = '/' :: '/' :: trimEnd text := by
  have hslash : isBlank '/' = false := rfl
  have hfirst := trimEnd_append_cons hslash [] ('/' :: text)
  have hsecond := trimEnd_append_cons hslash [] text
  rw [List.nil_append, List.nil_append] at hfirst hsecond
  rw [hfirst, hsecond]

theorem trim_gap_append
    {gap remark : List Char} (hgap : AllBlank gap) (hremark : Remark remark) :
    trim (gap ++ remark) = trimEnd remark := by
  rw [trim, trimStart_append_of_allBlank hgap, trimStart_eq_self hremark.noBlankStart]

/-- A tail is a remark with blank characters in front. -/
theorem isTail_iff_exists_remark
    {tail : List Char} :
    IsTail tail ↔ ∃ gap remark, AllBlank gap ∧ Remark remark ∧ tail = gap ++ remark := by
  constructor
  · intro htail
    obtain ⟨hstart, gap, hgap, hcut⟩ := trimStart_eq_iff.mp (rfl : trimStart tail = trimStart tail)
    refine ⟨gap, trimStart tail, hgap, ?_, hcut⟩
    have htrim : trimEnd (trimStart tail) = trim tail := rfl
    obtain ⟨-, blank, hblank, hrest⟩ := trimEnd_eq_iff.mp htrim
    rcases htail with hnone | ⟨text, hcomment⟩
    · rw [hnone, List.nil_append] at hrest
      cases hfirst : trimStart tail with
      | nil => exact .none
      | cons c rest =>
        have hc : isBlank c = true := hblank c (by rw [← hrest, hfirst]; exact List.mem_cons_self)
        rw [hfirst] at hstart
        rw [hstart c rfl] at hc
        contradiction
    · rw [hcomment] at hrest
      rw [hrest]
      exact .comment _
  · rintro ⟨gap, remark, hgap, hremark, rfl⟩
    unfold IsTail
    rw [trim_gap_append hgap hremark]
    cases hremark with
    | none => exact Or.inl rfl
    | comment text => exact Or.inr ⟨trimEnd text, trimEnd_comment text⟩

/-- Blank characters around a comment are no part of it. -/
theorem commentText_gap_append
    {gap remark : List Char} (hgap : AllBlank gap) (hremark : Remark remark) :
    commentText (gap ++ remark) = trim (remark.drop 2) := by
  rw [commentText, trim_gap_append hgap hremark]
  cases hremark with
  | none => rfl
  | comment text =>
    rw [trimEnd_comment]
    exact trim_trimEnd text

/-! ## Cuts -/

/-- A line cut into the parts of the grammar. -/
structure Cut where
  indent : List Char
  name : List Char
  beforeSign : List Char
  afterSign : List Char
  literal : List Char
  beforeEnd : List Char
  gap : List Char
  remark : List Char

namespace Cut

/-- What stands in front of the literal. -/
def front (p : Cut) : List Char :=
  p.indent ++ p.name ++ p.beforeSign ++ '=' :: p.afterSign

/-- What stands behind the literal. -/
def back (p : Cut) : List Char :=
  p.beforeEnd ++ ';' :: (p.gap ++ p.remark)

/-- The line that the parts make. -/
def line (p : Cut) : List Char :=
  p.front ++ (p.literal ++ p.back)

/-- The assignment that the parts are: the name, the literal with its place, and what stands behind
the slashes of the comment, without blank ends. -/
def assignment (p : Cut) : Assignment :=
  { name := String.ofList p.name
    literal := p.literal
    start := p.front.length
    stop := p.front.length + p.literal.length
    comment := String.ofList (trim (p.remark.drop 2)) }

/-- The parts are those of an assignment.  No second sign stands right behind the first. -/
structure IsGrammatical (p : Cut) : Prop where
  indent : AllBlank p.indent
  name : IsName p.name
  beforeSign : AllBlank p.beforeSign
  afterSign : AllBlank p.afterSign
  sign : (p.afterSign ++ p.literal).head? ≠ some '='
  literal : RightHandSide p.literal
  beforeEnd : AllBlank p.beforeEnd
  gap : AllBlank p.gap
  remark : Remark p.remark

/-- The cut as a layout, which has the blank characters behind the semicolon in its tail. -/
def toLayout (p : Cut) : Layout :=
  ⟨p.indent, p.name, p.beforeSign, p.afterSign, p.literal, p.beforeEnd, p.gap ++ p.remark⟩

theorem line_toLayout (p : Cut) : p.toLayout.line = p.line := rfl

section IsGrammatical

variable {p q : Cut}

theorem IsGrammatical.wellFormed (hp : p.IsGrammatical) : p.toLayout.WellFormed where
  indent := hp.indent
  name := hp.name
  beforeSign := hp.beforeSign
  afterSign := hp.afterSign
  sign := hp.sign
  literal := hp.literal
  beforeEnd := hp.beforeEnd
  tail := isTail_iff_exists_remark.mpr ⟨p.gap, p.remark, hp.gap, hp.remark, rfl⟩

theorem IsGrammatical.assignment_toLayout
    (hp : p.IsGrammatical) :
    p.toLayout.assignment = p.assignment := by
  have hcomment := commentText_gap_append hp.gap hp.remark
  unfold Layout.assignment assignment
  rw [← hcomment]
  rfl

/-- The reader accepts every line of the grammar, and reports its parts. -/
theorem IsGrammatical.ofLine?_line
    (hp : p.IsGrammatical) :
    Assignment.ofLine? p.line = some p.assignment := by
  rw [← line_toLayout, hp.wellFormed.ofLine?_line, hp.assignment_toLayout]

/-- A line that the reader accepts can be cut into the parts that it reports. -/
theorem exists_of_ofLine?
    {line : List Char} {a : Assignment} (h : Assignment.ofLine? line = some a) :
    ∃ p : Cut, p.IsGrammatical ∧ p.line = line ∧ p.assignment = a := by
  obtain ⟨l, hl, rfl, rfl⟩ := Layout.exists_of_ofLine? h
  obtain ⟨gap, remark, hgap, hremark, htail⟩ := isTail_iff_exists_remark.mp hl.tail
  let p : Cut :=
    ⟨l.indent, l.name, l.beforeSign, l.afterSign, l.literal, l.beforeEnd, gap, remark⟩
  have hp : p.IsGrammatical :=
    ⟨hl.indent, hl.name, hl.beforeSign, hl.afterSign, hl.sign, hl.literal, hl.beforeEnd, hgap,
      hremark⟩
  have hlayout : p.toLayout = l := by
    simp only [p, toLayout, ← htail]
  refine ⟨p, hp, ?_, ?_⟩
  · rw [← line_toLayout, hlayout]
  · rw [← hp.assignment_toLayout, hlayout]

/-! ## There is one cut -/

/-- The literal stands at the place that is reported for it. -/
theorem slice_line (p : Cut) :
    (p.line.take p.assignment.stop).drop p.assignment.start = p.assignment.literal := by
  simp only [line, assignment]
  rw [← List.append_assoc, ← List.length_append, List.take_left, List.drop_left]

/-- The parts in front of the literal are determined by what they make. -/
theorem IsGrammatical.front_parts
    (hp : p.IsGrammatical) (hq : q.IsGrammatical) (hname : p.name = q.name)
    (hfront : p.front = q.front) :
    p.indent = q.indent ∧ p.beforeSign = q.beforeSign ∧ p.afterSign = q.afterSign := by
  have hsign : ∀ rest, NoBlankStart ('=' :: rest) := fun rest => noBlankStart_cons rfl
  simp only [front, List.append_assoc] at hfront
  obtain ⟨hindent, hbehind⟩ := eq_of_blank_append hp.indent hq.indent (hp.name.noBlankStart _)
    (hq.name.noBlankStart _) hfront
  rw [hname] at hbehind
  obtain ⟨hbefore, hafter⟩ := eq_of_blank_append hp.beforeSign hq.beforeSign (hsign _) (hsign _)
    (List.append_cancel_left hbehind)
  exact ⟨hindent, hbefore, List.tail_eq_of_cons_eq hafter⟩

/-- So are the parts behind it. -/
theorem IsGrammatical.back_parts
    (hp : p.IsGrammatical) (hq : q.IsGrammatical) (hback : p.back = q.back) :
    p.beforeEnd = q.beforeEnd ∧ p.gap = q.gap ∧ p.remark = q.remark := by
  have hend : ∀ rest, NoBlankStart (';' :: rest) := fun rest => noBlankStart_cons rfl
  obtain ⟨hbefore, htail⟩ := eq_of_blank_append hp.beforeEnd hq.beforeEnd (hend _) (hend _) hback
  obtain ⟨hgap, hremark⟩ := eq_of_blank_append hp.gap hq.gap hp.remark.noBlankStart
    hq.remark.noBlankStart (List.tail_eq_of_cons_eq htail)
  exact ⟨hbefore, hgap, hremark⟩

/-- A line can be cut in one way only.  The reader is a function, so two cuts agree in the name and
in the literal with its place; the blank characters around these are then determined. -/
theorem IsGrammatical.eq_of_line_eq
    (hp : p.IsGrammatical) (hq : q.IsGrammatical) (hline : p.line = q.line) :
    p = q := by
  have hsame : p.assignment = q.assignment := by
    have hread := hp.ofLine?_line
    rw [hline, hq.ofLine?_line] at hread
    exact (Option.some.inj hread).symm
  have hname : p.name = q.name := String.ofList_injective (congrArg Assignment.name hsame)
  have hliteral : p.literal = q.literal := congrArg Assignment.literal hsame
  have hlength : p.front.length = q.front.length := congrArg Assignment.start hsame
  obtain ⟨hfront, hrest⟩ := List.append_inj hline hlength
  rw [hliteral] at hrest
  obtain ⟨hindent, hbeforeSign, hafterSign⟩ := hp.front_parts hq hname hfront
  obtain ⟨hbeforeEnd, hgap, hremark⟩ := hp.back_parts hq (List.append_cancel_left hrest)
  cases p
  cases q
  simp_all

end IsGrammatical

end Cut

/-- The reader accepts exactly the lines of the grammar.  A line can be cut in one way only; the
reader reports the parts of this cut, and the literal stands where it says. -/
theorem ofLine?_reads_the_one_cut (line : List Char) :
    (∀ a, Assignment.ofLine? line = some a ↔
      ∃ p : Cut, p.IsGrammatical ∧ p.line = line ∧ p.assignment = a) ∧
    (∀ p q : Cut, p.IsGrammatical → q.IsGrammatical → p.line = line → q.line = line → p = q) ∧
    ∀ a, Assignment.ofLine? line = some a →
      (line.take a.stop).drop a.start = a.literal := by
  refine ⟨fun a => ⟨Cut.exists_of_ofLine?, ?_⟩, ?_, ?_⟩
  · rintro ⟨p, hp, rfl, rfl⟩
    exact hp.ofLine?_line
  · intro p q hp hq hpline hqline
    exact hp.eq_of_line_eq hq (hpline.trans hqline.symm)
  · intro a hread
    obtain ⟨p, hp, rfl, rfl⟩ := Cut.exists_of_ofLine? hread
    exact p.slice_line

/-- A quoted literal with a semicolon and an escaped quote in it, and a comment with slashes of its
own. -/
def trickyLine : List Char :=
  "\t$fn =  \"a;\\\"b\" ; // c // d ".toList

theorem ofLine?_reads_the_one_cut_of_trickyLine :
    ∃ p : Cut, p.IsGrammatical ∧ p.line = trickyLine ∧
      p.name = ['$', 'f', 'n'] ∧ p.literal = ['"', 'a', ';', '\\', '"', 'b', '"'] ∧
      (trickyLine.take 15).drop 8 = ['"', 'a', ';', '\\', '"', 'b', '"'] ∧
      ∀ q : Cut, q.IsGrammatical → q.line = trickyLine → q = p := by
  obtain ⟨haccepts, hone, hslice⟩ := ofLine?_reads_the_one_cut trickyLine
  have hread : Assignment.ofLine? trickyLine =
      some ⟨"$fn", ['"', 'a', ';', '\\', '"', 'b', '"'], 8, 15, "c // d"⟩ := by
    decide +kernel
  obtain ⟨p, hp, hline, hparts⟩ := (haccepts _).mp hread
  have hname : p.name = ['$', 'f', 'n'] :=
    String.ofList_injective (congrArg Assignment.name hparts)
  exact ⟨p, hp, hline, hname, congrArg Assignment.literal hparts, hslice _ hread,
    fun q hq hqline => hone q p hq hp hqline hline⟩

end SolidWorkshop.Source
