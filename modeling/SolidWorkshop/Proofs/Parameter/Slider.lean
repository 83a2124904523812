import SolidWorkshop.Proofs.Number.Overflow
import SolidWorkshop.Proofs.Source.Override
import SolidWorkshop.Proofs.Source.Range
import SolidWorkshop.Web.View

/-!
# Steps of sliders

A parameter with a range is shown as a slider, in steps of its own or in steps that are chosen by
the span of the range.  The bounds keep the form of their tokens, and the span of an integer and a
double is a difference of doubles: there is none when the integer is beyond the range of doubles.
-/

namespace SolidWorkshop

open Source

/-! ## Spans of doubles -/

theorem Number.le_eq_isLE
    {x y : Number} {order : Ordering} (h : compare? x y = some order) :
    x.le y = order.isLE := by
  rw [le, h]
  cases order with
  | _ => rfl

namespace Binary64

theorem finite_le_ten_iff
    {negative : Bool} {units : Nat} (fits : Fits units) :
    (Number.float (.finite negative units fits)).le (.int 10) = true ↔
      signedUnits negative units ≤ 10 * one := by
  rw [Number.le_eq_isLE rfl, Ordering.isLE_swap]
  exact Std.isGE_compare

/-- Half a step of the doubles at ten, in units. -/
def halfStepAtTen : Nat := 2 ^ 1024

/-- A number of units is rounded to at most ten if it is at most half a step above ten. -/
theorem roundedUnits_le_ten_iff (units : Nat) :
    roundedUnits units one ≤ 10 * one ↔ units ≤ 10 * one + halfStepAtTen := by
  have hten : 10 * one = 5 * 2 ^ 50 * 2 ^ 1025 := by decide +kernel
  have hhalf : (2 * (5 * 2 ^ 50) + 1) * 2 ^ 1025 = 2 * (10 * one + halfStepAtTen) := by
    decide +kernel
  rw [hten, roundedUnits_le_iff one_units_pos (by decide) (by decide) (by decide), hhalf, ← hten]
  have heven : 5 * 2 ^ 50 % 2 = 0 := by decide
  have hscale : 2 * (units * one) ≤ 2 * (10 * one + halfStepAtTen) * one ↔
      units ≤ 10 * one + halfStepAtTen := by
    rw [← Nat.mul_assoc, Nat.mul_le_mul_right_iff one_units_pos]
    omega
  rw [hscale]
  exact and_iff_left fun _ => heven

/-- A rounded difference is at most ten if the difference is at most half a step above ten. -/
theorem ofRatio_le_ten_iff (difference : Int) :
    (Number.float (ofRatio (difference < 0) difference.natAbs one)).le (.int 10) = true ↔
      difference ≤ 10 * one + halfStepAtTen := by
  have hunits := roundedUnits_le_ten_iff difference.natAbs
  have hlargest : 10 * one ≤ largest := by decide +kernel
  by_cases hneg : difference < 0
  · refine iff_of_true ?_ (by omega)
    rw [decide_eq_true hneg]
    by_cases hfits : Fits (roundedUnits difference.natAbs one)
    · rw [ofRatio_of_fits hfits, finite_le_ten_iff, signedUnits, if_pos rfl]
      omega
    · rw [ofRatio_of_not_fits hfits]
      rfl
  · rw [decide_eq_false hneg]
    by_cases hfits : Fits (roundedUnits difference.natAbs one)
    · rw [ofRatio_of_fits hfits, finite_le_ten_iff, signedUnits, if_neg Bool.false_ne_true]
      omega
    · rw [ofRatio_of_not_fits hfits]
      rw [fits_roundedUnits_iff] at hfits
      exact iff_of_false Bool.false_ne_true (by omega)

/-- The rounded difference of two finite doubles is at most ten if their exact difference is at
most half a step above ten. -/
theorem sub_le_ten_iff
    {x y : Binary64} {a b : Int} (hx : (Number.float x).units? = some a)
    (hy : (Number.float y).units? = some b) :
    (Number.float (x.sub y)).le (.int 10) = true ↔ a - b ≤ 10 * one + halfStepAtTen := by
  cases x with
  | finite negative units fits =>
    cases y with
    | finite negative' units' fits' =>
      obtain rfl := Option.some.inj hx
      obtain rfl := Option.some.inj hy
      rw [sub]
      split_ifs with hzero
      · have hten : (0 : Int) ≤ 10 * one := by omega
        rw [finite_le_ten_iff, hzero, signedUnits, Int.natCast_zero, Int.neg_zero, ite_self]
        exact iff_of_true hten (by omega)
      · exact ofRatio_le_ten_iff _
    | _ => contradiction
  | _ => contradiction

theorem isFinite_of_ofInt?
    {n : Int} {x : Binary64} (h : ofInt? n = some x) :
    x.isFinite = true := by
  unfold ofInt? at h
  dsimp only at h
  split_ifs at h with hfinite
  rwa [← Option.some.inj h]

end Binary64

/-! ## Spans of ranges -/

/-- One bound is a double, and the other one an integer beyond the range of doubles. -/
inductive SpanOverflows : Number → Number → Prop
  | low {n : Int} {y : Binary64} (h : Binary64.limit ≤ n.natAbs) : SpanOverflows (.int n) (.float y)
  | high {x : Binary64} {n : Int} (h : Binary64.limit ≤ n.natAbs) :
    SpanOverflows (.float x) (.int n)

/-- Not both bounds are integers. -/
def HasDouble : Number → Number → Prop
  | .int _, .int _ => False
  | _, _ => True

/-- The span of a range is at most ten.  Next to a double an integer is taken as the nearest
double, and the difference of doubles is rounded, so it may be half a step larger. -/
inductive IsNarrow : Number → Number → Prop
  | integers {m n : Int} (h : n - m ≤ 10) : IsNarrow (.int m) (.int n)
  | doubles {low high : Number} {x y : Binary64} {a b : Int} (hdouble : HasDouble low high)
    (hlow : low.toBinary64? = some x) (hhigh : high.toBinary64? = some y)
    (ha : (Number.float x).units? = some a) (hb : (Number.float y).units? = some b)
    (h : b - a ≤ 10 * Binary64.one + Binary64.halfStepAtTen) : IsNarrow low high

theorem isNarrow_int_iff {m n : Int} :
    IsNarrow (.int m) (.int n) ↔ n - m ≤ 10 := by
  refine ⟨fun hnarrow => ?_, .integers⟩
  cases hnarrow with
  | integers h => exact h
  | doubles hdouble => exact hdouble.elim

theorem HasDouble.isNarrow_iff
    {low high : Number} (hdouble : HasDouble low high) {x y : Binary64}
    (hlow : low.toBinary64? = some x) (hhigh : high.toBinary64? = some y) {a b : Int}
    (ha : (Number.float x).units? = some a) (hb : (Number.float y).units? = some b) :
    IsNarrow low high ↔ b - a ≤ 10 * Binary64.one + Binary64.halfStepAtTen := by
  refine ⟨fun hnarrow => ?_, .doubles hdouble hlow hhigh ha hb⟩
  cases hnarrow with
  | integers => exact hdouble.elim
  | doubles _ hlow' hhigh' ha' hb' h =>
    obtain rfl := Option.some.inj (hlow.symm.trans hlow')
    obtain rfl := Option.some.inj (hhigh.symm.trans hhigh')
    obtain rfl := Option.some.inj (ha.symm.trans ha')
    obtain rfl := Option.some.inj (hb.symm.trans hb')
    exact h

/-- Next to a double the span is a difference of doubles. -/
theorem HasDouble.sub?_eq
    {low high : Number} (hdouble : HasDouble low high) {x y : Binary64}
    (hlow : low.toBinary64? = some x) (hhigh : high.toBinary64? = some y) :
    high.sub? low = some (.float (y.sub x)) := by
  unfold Number.sub?
  split
  · exact hdouble.elim
  · rw [hlow, hhigh]
    rfl

/-- The span is there, and it is at most ten exactly if the range is narrow. -/
def IsMeasured (low high : Number) : Prop :=
  ∃ span, high.sub? low = some span ∧ (span.le (.int 10) = true ↔ IsNarrow low high)

theorem HasDouble.isMeasured
    {low high : Number} (hdouble : HasDouble low high) {x y : Binary64}
    (hlow : low.toBinary64? = some x) (hhigh : high.toBinary64? = some y)
    (hx : (Number.float x).isFinite = true) (hy : (Number.float y).isFinite = true) :
    IsMeasured low high := by
  obtain ⟨a, ha⟩ := Option.ne_none_iff_exists'.mp (Number.units?_ne_none hx)
  obtain ⟨b, hb⟩ := Option.ne_none_iff_exists'.mp (Number.units?_ne_none hy)
  refine ⟨_, hdouble.sub?_eq hlow hhigh, ?_⟩
  rw [hdouble.isNarrow_iff hlow hhigh ha hb]
  exact Binary64.sub_le_ten_iff hb ha

theorem exists_toBinary64
    {n : Int} (h : ¬Binary64.limit ≤ n.natAbs) :
    ∃ x, (Number.int n).toBinary64? = some x ∧ (Number.float x).isFinite = true := by
  rw [← Binary64.ofInt?_eq_none_iff] at h
  obtain ⟨x, hx⟩ := Option.ne_none_iff_exists'.mp h
  exact ⟨x, hx, Binary64.isFinite_of_ofInt? hx⟩

/-- The span of finite bounds is measured unless it overflows. -/
theorem isMeasured_of_isFinite
    {low high : Number} (hlow : low.isFinite = true) (hhigh : high.isFinite = true)
    (hfits : ¬SpanOverflows low high) :
    IsMeasured low high := by
  cases low with
  | int m =>
    cases high with
    | int n =>
      refine ⟨.int (n - m), rfl, ?_⟩
      rw [Number.le_eq_isLE rfl, Std.isLE_compare, isNarrow_int_iff]
    | float y =>
      obtain ⟨x, hx, hfinite⟩ := exists_toBinary64 fun h => hfits (.low h)
      exact HasDouble.isMeasured trivial hx rfl hfinite hhigh
  | float x =>
    cases high with
    | int n =>
      obtain ⟨y, hy, hfinite⟩ := exists_toBinary64 fun h => hfits (.high h)
      exact HasDouble.isMeasured trivial rfl hy hlow hfinite
    | float y => exact HasDouble.isMeasured trivial rfl rfl hlow hhigh

theorem SpanOverflows.sub?_eq_none
    {low high : Number} (h : SpanOverflows low high) :
    high.sub? low = none := by
  cases h with
  | low h =>
    rw [← Binary64.ofInt?_eq_none_iff] at h
    simp [Number.sub?, Number.toBinary64?, h]
  | high h =>
    rw [← Binary64.ofInt?_eq_none_iff] at h
    simp [Number.sub?, Number.toBinary64?, h]

/-! ## What a comment says about the slider -/

/-- The fine step, a tenth. -/
def tenth : Number :=
  .float (.ofDecimal false 1 (-1))

/-- What the comment of a parameter says about the step of its slider: nothing without a range,
and with one the step that stands in it, or else a step that goes by the span of the bounds; if the
span overflows there is no answer. -/
inductive SpellsSlider (comment : List Char) : Except Failure (Option Number) → Prop
  | absent (h : ∀ low step high, ¬SpellsRange comment low step high) :
    SpellsSlider comment (.ok none)
  | own {low step high : Number} (h : SpellsRange comment low (some step) high) :
    SpellsSlider comment (.ok (some step))
  | fine {low high : Number} (h : SpellsRange comment low none high)
    (hfits : ¬SpanOverflows low high) (hnarrow : IsNarrow low high) :
    SpellsSlider comment (.ok (some tenth))
  | coarse {low high : Number} (h : SpellsRange comment low none high)
    (hfits : ¬SpanOverflows low high) (hwide : ¬IsNarrow low high) :
    SpellsSlider comment (.ok (some (.int 1)))
  | overflow {low high : Number} (h : SpellsRange comment low none high)
    (hoverflow : SpanOverflows low high) : SpellsSlider comment (.error .integerTooLarge)

/-- The bounds of a range are finite. -/
theorem Source.SpellsRange.isFinite
    {comment : List Char} {low high : Number} {step : Option Number}
    (h : SpellsRange comment low step high) :
    low.isFinite = true ∧ high.isFinite = true := by
  obtain ⟨inner, -, -, hread⟩ := h
  generalize Text.splitOn ':' inner = pieces at hread
  cases hread with
  | pair hlow hhigh =>
    exact ⟨Number.isFinite_of_ofChars? hlow, Number.isFinite_of_ofChars? hhigh⟩
  | triple hlow _ hhigh =>
    exact ⟨Number.isFinite_of_ofChars? hlow, Number.isFinite_of_ofChars? hhigh⟩

/-- A comment spells one range at most. -/
theorem Source.SpellsRange.unique
    {comment : List Char} {low low' high high' : Number} {step step' : Option Number}
    (h : SpellsRange comment low step high) (h' : SpellsRange comment low' step' high') :
    low = low' ∧ step = step' ∧ high = high' := by
  have hread := (ofChars_eq_range_iff.mpr h).symm.trans (ofChars_eq_range_iff.mpr h')
  obtain ⟨⟩ := hread
  exact ⟨rfl, rfl, rfl⟩

/-- The range of a descriptor is the one that its comment spells. -/
structure Descriptor.HoldsRange (d : Descriptor) : Prop where
  range : ∀ low step high, SpellsRange d.comment.toList low step high →
    d.min = some low ∧ d.step = step ∧ d.max = some high
  absent : (∀ low step high, ¬SpellsRange d.comment.toList low step high) → d.min = none

theorem holdsRange_of_annotate
    {d e : Descriptor} {note : Annotation} (hnote : Annotation.ofChars d.comment.toList = .ok note)
    (hmin : d.min = none) (h : annotate d note = .ok e) :
    e.HoldsRange := by
  have hcomment : e.comment = d.comment := by rw [annotate_frame h]
  constructor
  · intro low step high hrange
    rw [hcomment, ← ofChars_eq_range_iff, hnote] at hrange
    obtain rfl := Except.ok.inj hrange
    obtain rfl := Except.ok.inj h
    exact ⟨rfl, rfl, rfl⟩
  · intro hnone
    cases note with
    | range low step high =>
      rw [hcomment] at hnone
      exact absurd (ofChars_eq_range_iff.mp hnote) (hnone low step high)
    | options tokens ambiguous =>
      obtain ⟨options, -, he⟩ := Failure.bind_eq_ok_iff.mp h
      obtain rfl := Except.ok.inj he
      exact hmin
    | none | description =>
      obtain rfl := Except.ok.inj h
      exact hmin

theorem holdsRange_of_mem_extract
    {source : List Char} {found : List Descriptor} (hfound : extract source = .ok found)
    {d : Descriptor} (hd : d ∈ found) :
    d.HoldsRange := by
  obtain ⟨rawLine, a, line, title, -, hdescriptor⟩ := exists_assignment_of_mem_scan hfound hd
  obtain ⟨-, kind, value, note, -, hnote, h⟩ := descriptorOf?_eq_some_iff.mp hdescriptor
  exact holdsRange_of_annotate (d := a.descriptor line rawLine title kind value) hnote rfl h

/-- The step of a slider is what the comment says about it. -/
theorem Descriptor.HoldsRange.spellsSlider
    {d : Descriptor} (hd : d.HoldsRange) :
    SpellsSlider d.comment.toList d.sliderStep := by
  by_cases hrange : ∃ low step high, SpellsRange d.comment.toList low step high
  · obtain ⟨low, step, high, hspells⟩ := hrange
    obtain ⟨hmin, hstep, hmax⟩ := hd.range low step high hspells
    unfold sliderStep
    rw [hmin, hmax, hstep]
    cases step with
    | some step => exact .own hspells
    | none =>
      dsimp only
      by_cases hoverflow : SpanOverflows low high
      · rw [hoverflow.sub?_eq_none]
        exact .overflow hspells hoverflow
      · obtain ⟨hlow, hhigh⟩ := hspells.isFinite
        obtain ⟨span, hspan, hnarrow⟩ := isMeasured_of_isFinite hlow hhigh hoverflow
        rw [hspan]
        dsimp only
        rw [defaultStep]
        split_ifs with hle
        · exact .fine hspells hoverflow (hnarrow.mp hle)
        · exact .coarse hspells hoverflow fun h => hle (hnarrow.mpr h)
  · have hnone : ∀ low step high, ¬SpellsRange d.comment.toList low step high := by
      simpa only [not_exists] using hrange
    unfold sliderStep
    rw [hd.absent hnone]
    exact .absent hnone

/-- The slider goes by a span that overflows. -/
def SliderOverflows (comment : List Char) : Prop :=
  ∃ low high, SpellsRange comment low none high ∧ SpanOverflows low high

/-- The step can be told unless the span overflows. -/
theorem SpellsSlider.cases
    {comment : List Char} {result : Except Failure (Option Number)}
    (h : SpellsSlider comment result) :
    (¬SliderOverflows comment ∧ ∃ step, result = .ok step) ∨
      SliderOverflows comment ∧ result = .error .integerTooLarge := by
  cases h with
  | absent h =>
    refine Or.inl ⟨?_, none, rfl⟩
    rintro ⟨low, high, hrange, -⟩
    exact h low none high hrange
  | own h =>
    refine Or.inl ⟨?_, _, rfl⟩
    rintro ⟨low, high, hrange, -⟩
    exact absurd (h.unique hrange).2.1 nofun
  | fine h hfits | coarse h hfits =>
    refine Or.inl ⟨?_, _, rfl⟩
    rintro ⟨low, high, hrange, hoverflow⟩
    obtain ⟨rfl, -, rfl⟩ := h.unique hrange
    exact hfits hoverflow
  | overflow h hoverflow => exact Or.inr ⟨⟨_, _, h, hoverflow⟩, rfl⟩

/-! ## The parameters of a text -/

/-- When every element is read or refused for the same reason, so is the list. -/
theorem mapM_cases
    {α β : Type} {f : α → Except Failure β} {failure : Failure} {xs : List α}
    (h : ∀ x ∈ xs, (∃ y, f x = .ok y) ∨ f x = .error failure) :
    ((∀ x ∈ xs, ∃ y, f x = .ok y) ∧ ∃ ys, xs.mapM f = .ok ys) ∨
      (∃ x ∈ xs, f x = .error failure) ∧ xs.mapM f = .error failure := by
  induction xs with
  | nil => exact Or.inl ⟨nofun, [], rfl⟩
  | cons x xs ih =>
    obtain ⟨hx, hxs⟩ := List.forall_mem_cons.mp h
    rw [List.mapM_cons]
    rcases hx with ⟨y, hy⟩ | hx
    · rw [hy]
      rcases ih hxs with ⟨hall, ys, hys⟩ | ⟨⟨z, hz, hfailed⟩, hrest⟩
      · refine Or.inl ⟨List.forall_mem_cons.mpr ⟨⟨y, hy⟩, hall⟩, y :: ys, ?_⟩
        rw [hys]
        rfl
      · refine Or.inr ⟨⟨z, List.mem_cons_of_mem x hz, hfailed⟩, ?_⟩
        rw [hrest]
        rfl
    · refine Or.inr ⟨⟨x, List.mem_cons_self, hx⟩, ?_⟩
      rw [hx]
      rfl

theorem parameterValue_cases
    {d : Descriptor} (hd : d.HoldsRange) :
    (¬SliderOverflows d.comment.toList ∧ ∃ v, Web.parameterValue d = .ok v) ∨
      SliderOverflows d.comment.toList ∧ Web.parameterValue d = .error .integerTooLarge := by
  unfold Web.parameterValue
  rcases hd.spellsSlider.cases with ⟨hfits, step, hstep⟩ | ⟨hoverflow, hstep⟩
  · refine Or.inl ⟨hfits, ?_⟩
    rw [hstep]
    exact ⟨_, rfl⟩
  · refine Or.inr ⟨hoverflow, ?_⟩
    rw [hstep]
    rfl

theorem parametersValue_cases
    {source : List Char} {found : List Descriptor} (hfound : extract source = .ok found) :
    ((∀ d ∈ found, ¬SliderOverflows d.comment.toList) ∧
        ∃ v, Web.parametersValue (String.ofList source) = .ok v) ∨
      (∃ d ∈ found, SliderOverflows d.comment.toList) ∧
        Web.parametersValue (String.ofList source) = .error .integerTooLarge := by
  have hvalue (d : Descriptor) (hd : d ∈ found) :=
    parameterValue_cases (holdsRange_of_mem_extract hfound hd)
  have hcases : ∀ d ∈ found, (∃ v, Web.parameterValue d = .ok v) ∨
      Web.parameterValue d = .error .integerTooLarge := by
    intro d hd
    exact (hvalue d hd).imp And.right And.right
  unfold Web.parametersValue
  rw [String.toList_ofList, hfound]
  rcases mapM_cases hcases with ⟨hall, values, hvalues⟩ | ⟨⟨d, hd, hfailed⟩, hvalues⟩
  · refine Or.inl ⟨?_, ?_⟩
    · intro d hd
      obtain ⟨v, hv⟩ := hall d hd
      rcases hvalue d hd with ⟨hfits, -⟩ | ⟨-, hfailed⟩
      · exact hfits
      · exact absurd (hv.symm.trans hfailed) nofun
    · exact ⟨_, Failure.bind_eq_ok_iff.mpr ⟨found, rfl, Failure.bind_eq_ok_iff.mpr
        ⟨values, hvalues, rfl⟩⟩⟩
  · refine Or.inr ⟨⟨d, hd, ?_⟩, ?_⟩
    · rcases hvalue d hd with ⟨-, v, hv⟩ | ⟨hoverflow, -⟩
      · exact absurd (hv.symm.trans hfailed) nofun
      · exact hoverflow
    · change (found.mapM Web.parameterValue >>= _) = _
      rw [hvalues]
      rfl

/-- For every parameter of a text the step of the slider is what its comment says, and it is told
unless it goes by the span of a double and an integer beyond the range of doubles.  The parameters
of the text can be shown exactly if this holds of all of them. -/
theorem slider_steps_are_told_exactly
    {source : List Char} {found : List Descriptor} (hfound : extract source = .ok found) :
    (∀ d ∈ found, SpellsSlider d.comment.toList d.sliderStep ∧
      ((∃ step, d.sliderStep = .ok step) ↔ ¬SliderOverflows d.comment.toList)) ∧
    ((∃ v, Web.parametersValue (String.ofList source) = .ok v) ↔
      ∀ d ∈ found, ¬SliderOverflows d.comment.toList) := by
  constructor
  · intro d hd
    have hslider := (holdsRange_of_mem_extract hfound hd).spellsSlider
    refine ⟨hslider, ?_⟩
    rcases hslider.cases with ⟨hfits, htold⟩ | ⟨hoverflow, hfailed⟩
    · exact iff_of_true htold hfits
    · rw [hfailed]
      exact iff_of_false nofun (not_not_intro hoverflow)
  · rcases parametersValue_cases hfound with ⟨hfits, hshown⟩ | ⟨⟨d, hd, hoverflow⟩, hfailed⟩
    · exact iff_of_true hshown hfits
    · rw [hfailed]
      exact iff_of_false nofun fun hall => hall d hd hoverflow

/-- A line with a range of a double and an integer beyond the range of doubles. -/
def wideLine : Layout where
  indent := []
  name := ['x']
  beforeSign := [' ']
  afterSign := [' ']
  literal := ['1']
  beforeEnd := []
  tail := " // [0.5:1".toList ++ List.replicate 309 '0' ++ [']']

/-- The parameter of the line. -/
def wideParameter : Descriptor :=
  { wideLine.assignment.descriptor 0 wideLine.line none .number (.int 1) with
    min := some (.float (.ofDecimal false 5 (-1))), max := some (.int (10 ^ 309)) }

theorem wellFormed_wideLine : wideLine.WellFormed where
  indent := List.forall_mem_nil _
  name := ⟨[], ['x'], rfl, Or.inl rfl, List.cons_ne_nil _ _,
    List.forall_mem_singleton.mpr (by decide)⟩
  beforeSign := List.forall_mem_singleton.mpr (by decide)
  afterSign := List.forall_mem_singleton.mpr (by decide)
  sign := by decide
  literal := .bare (by decide) (by decide) (by decide) (Text.noBlankStart_cons (by decide))
    (Text.noBlankEnd_concat (s := []) (by decide))
  beforeEnd := List.forall_mem_nil _
  tail := Or.inr ⟨(Text.trim wideLine.tail).drop 2, by decide +kernel⟩

theorem extract_wideLine : extract wideLine.line = .ok [wideParameter] := by
  have hlines : Text.lines wideLine.line = [wideLine.line] :=
    Text.splitOn_eq_singleton (by decide +kernel)
  have hshape := wellFormed_wideLine.shape_line_of_stopWord? (by decide)
  have hnote : Annotation.ofChars wideLine.assignment.comment.toList =
      .ok (.range (.float (.ofDecimal false 5 (-1))) none (.int (10 ^ 309))) := by
    rw [Layout.assignment, String.toList_ofList]
    exact Failure.eq_ok_of_toOption (by decide +kernel)
  rw [extract, hlines, scan_cons_assignment hshape]
  refine ⟨some wideParameter, [], ?_, rfl, rfl⟩
  exact descriptorOf?_eq_some_iff.mpr
    ⟨by decide, .number, .int 1, _, Failure.eq_ok_of_toOption (by decide), hnote, rfl⟩

theorem sliderStep_wideParameter :
    wideParameter.sliderStep = .error .integerTooLarge := by
  have hspan : SpanOverflows (.float (.ofDecimal false 5 (-1))) (.int (10 ^ 309)) :=
    .high (by decide +kernel)
  unfold Descriptor.sliderStep wideParameter
  dsimp only
  rw [hspan.sub?_eq_none]
  rfl

/-- There is no step for the slider of the one parameter, and the text is not shown. -/
theorem slider_steps_are_told_exactly_of_wideLine :
    extract wideLine.line = .ok [wideParameter] ∧
      SpellsSlider wideParameter.comment.toList (.error .integerTooLarge) ∧
      SliderOverflows wideParameter.comment.toList ∧
      ¬∃ v, Web.parametersValue (String.ofList wideLine.line) = .ok v := by
  obtain ⟨hsteps, hshown⟩ := slider_steps_are_told_exactly extract_wideLine
  obtain ⟨hslider, htold⟩ := hsteps wideParameter (List.mem_singleton_self _)
  have hoverflow : SliderOverflows wideParameter.comment.toList := by
    by_contra hfits
    obtain ⟨step, hstep⟩ := htold.mpr hfits
    exact absurd (hstep.symm.trans sliderStep_wideParameter) nofun
  refine ⟨extract_wideLine, ?_, hoverflow, ?_⟩
  · rw [← sliderStep_wideParameter]
    exact hslider
  · rw [hshown]
    exact fun hall => hall wideParameter (List.mem_singleton_self _) hoverflow

/-- Not every parameter that is found has a slider with a step. -/
theorem not_forall_exists_sliderStep :
    ¬∀ (source : List Char) (found : List Descriptor), extract source = .ok found →
      ∀ d ∈ found, ∃ step, d.sliderStep = .ok step := by
  intro hall
  obtain ⟨step, hstep⟩ :=
    hall wideLine.line [wideParameter] extract_wideLine wideParameter (List.mem_singleton_self _)
  exact absurd (hstep.symm.trans sliderStep_wideParameter) nofun

end SolidWorkshop
