import SolidWorkshop.Proofs.Parameter.Coercion
import SolidWorkshop.Proofs.Source.Edits
import SolidWorkshop.Proofs.Source.Reading

/-!
# Which values are answered

Somebody who sets values gets the written text, or is told which value is refused and why.  There
is an end to this where integers get too long: one that cannot be printed can be neither written
nor shown in a refusal, and a text with too many digits is not read as a number.  Such a value is
of no consequence behind one that is refused, since nothing is set after that.
-/

namespace SolidWorkshop

open Text

/-! ## Answers -/

/-- A result, or a refusal of what was asked for. -/
def IsAnswered {α : Type} (outcome : Except Failure α) : Prop :=
  ∀ failure, outcome = .error failure → failure.area = .parameter

/-- A result, or a failure that is no refusal of a value. -/
def NeverRefuses {α : Type} (outcome : Except Failure α) : Prop :=
  ∀ failure, outcome = .error failure → failure.area ≠ .parameter

theorem isAnswered_ok {α : Type} (a : α) : IsAnswered (.ok a : Except Failure α) :=
  nofun

theorem isAnswered_error_iff {α : Type} {failure : Failure} :
    IsAnswered (.error failure : Except Failure α) ↔ failure.area = .parameter := by
  simp [IsAnswered]

namespace NeverRefuses

variable {α β : Type} {outcome : Except Failure α}

theorem ok (a : α) : NeverRefuses (.ok a : Except Failure α) :=
  nofun

theorem error {failure : Failure} (h : failure.area ≠ .parameter) :
    NeverRefuses (.error failure : Except Failure α) := by
  rintro _ ⟨⟩
  exact h

theorem bind
    {next : α → Except Failure β} (h : NeverRefuses outcome) (hnext : ∀ a, NeverRefuses (next a)) :
    NeverRefuses (outcome >>= next) := by
  cases outcome with
  | ok a => exact hnext a
  | error failure => exact fun _ hfailure => h _ (congrArg Except.error (Except.error.inj hfailure))

theorem foldlM
    {step : β → α → Except Failure β} (h : ∀ b a, NeverRefuses (step b a)) (b : β)
    (xs : List α) :
    NeverRefuses (xs.foldlM step b) := by
  induction xs generalizing b with
  | nil => exact .ok b
  | cons a xs ih =>
    rw [List.foldlM_cons]
    exact (h b a).bind fun next => ih next

/-- What is not answered has failed. -/
theorem not_isAnswered
    (h : NeverRefuses outcome) (hfails : ∀ a, outcome ≠ .ok a) :
    ¬IsAnswered outcome := by
  intro hanswered
  cases outcome with
  | ok a => exact hfails a rfl
  | error failure => exact h failure rfl (hanswered failure rfl)

end NeverRefuses

/-! ## Writing -/

theorem neverRefuses_print (v : Value) : NeverRefuses v.print := by
  unfold Value.print
  split_ifs
  · exact .ok _
  · exact .error nofun

theorem neverRefuses_literal (kind : Kind) (v : Value) : NeverRefuses (literal kind v) := by
  cases kind with
  | bool => exact .ok _
  | text => exact (neverRefuses_print v).bind fun s => .ok _
  | number =>
    cases v with
    | bool b => exact .ok _
    | float x =>
      change NeverRefuses (numberLiteral (.float x))
      unfold numberLiteral
      dsimp only
      split_ifs
      · exact .error nofun
      · split
        · split_ifs
          · exact .ok _
          · exact .ok _
        · exact .ok _
    | bytes b => exact neverRefuses_print (.bytes b)
    | text s => exact neverRefuses_print (.text s)
    | null => exact neverRefuses_print .null
    | int n => exact neverRefuses_print (.int n)
    | list items => exact neverRefuses_print (.list items)
    | dict entries => exact neverRefuses_print (.dict entries)

namespace Source

/-- A line can be rendered when its value is unchanged or can be written as a literal. -/
theorem exists_render_iff {d : Descriptor} :
    (∃ line, d.render = .ok line) ↔ d.isUnchanged = true ∨ ∃ s, d.literal = .ok s := by
  cases hchanged : d.isUnchanged with
  | true => exact iff_of_true ⟨_, render_of_isUnchanged hchanged⟩ (Or.inl rfl)
  | false =>
    constructor
    · rintro ⟨line, hline⟩
      exact Or.inr (exists_literal_of_render hline hchanged)
    · rintro (hunchanged | ⟨s, hs⟩)
      · contradiction
      · refine ⟨Text.replaceBetween d.rawLine d.valueStart d.valueEnd s.toList, ?_⟩
        rw [Descriptor.render, hchanged, hs]
        rfl

theorem neverRefuses_render (d : Descriptor) : NeverRefuses d.render := by
  unfold Descriptor.render
  split_ifs
  · exact .ok _
  · exact (neverRefuses_literal d.kind d.value.toValue).bind fun s => .ok _

theorem neverRefuses_writeLine (ls : List (List Char)) (d : Descriptor) :
    NeverRefuses (writeLine ls d) := by
  unfold writeLine
  split_ifs
  · exact .error nofun
  · split
    · exact .error nofun
    · split_ifs
      · exact (neverRefuses_render d).bind fun line => .ok _
      · exact .error nofun

theorem neverRefuses_synthesize (source : List Char) (ds : List Descriptor) :
    NeverRefuses (synthesize source ds) :=
  (NeverRefuses.foldlM neverRefuses_writeLine _ ds).bind fun ls => .ok (unlines ls)

end Source

/-! ## Taking one value -/

/-- A value that can be shown and, if it is a text that may be a number, be read. -/
def Value.IsBrief (kind : Kind) (raw : Value) : Prop :=
  raw.isPrintable = true ∧ (kind = .number → ∀ s, raw = .text s → ¬IsOverlong s.toList)

theorem Value.isBrief_text_iff {kind : Kind} {s : String} :
    (Value.text s).IsBrief kind ↔ (kind = .number → ¬IsOverlong s.toList) := by
  simp [IsBrief, isPrintable]

theorem Value.isBrief_iff_of_ne_text
    {kind : Kind} {raw : Value} (h : ∀ s, raw ≠ .text s) :
    raw.IsBrief kind ↔ raw.isPrintable = true :=
  and_iff_left fun _ s hs => absurd hs (h s)

/-- What becomes of a value for a parameter: it is taken, and can then be written if it is brief,
or it is refused, and the refusal then says why if it is brief. -/
def Settles (kind : Kind) (raw : Value) : Prop :=
  (∃ v, coerce kind raw = .ok v ∧ ((∃ s, literal kind v.toValue = .ok s) ↔ raw.IsBrief kind)) ∨
    ∃ cause, coerce kind raw = .error cause ∧ (cause.area = .parameter ↔ raw.IsBrief kind)

theorem settles_of_taken
    {kind : Kind} {raw : Value} {v : Scalar} {s : String} (h : coerce kind raw = .ok v)
    (hliteral : literal kind v.toValue = .ok s) (hbrief : raw.IsBrief kind) :
    Settles kind raw :=
  Or.inl ⟨v, h, iff_of_true ⟨s, hliteral⟩ hbrief⟩

/-- A refusal shows the value, so the value has to be short enough to be shown. -/
theorem settles_of_refuse
    {kind : Kind} {raw : Value} {reason : Value → Failure} (h : coerce kind raw = refuse reason raw)
    (hreason : (reason raw).area = .parameter)
    (hbrief : raw.IsBrief kind ↔ raw.isPrintable = true) :
    Settles kind raw := by
  unfold refuse at h
  split_ifs at h with hprintable
  · exact Or.inr ⟨_, h, iff_of_true hreason (hbrief.mpr hprintable)⟩
  · exact Or.inr ⟨_, h, iff_of_false nofun fun hraw => hprintable (hbrief.mp hraw)⟩

theorem settles_bool (raw : Value) : Settles .bool raw := by
  cases raw with
  | bool b => exact settles_of_taken rfl rfl ⟨rfl, nofun⟩
  | text s =>
    have hbrief : (Value.text s).IsBrief .bool := Value.isBrief_text_iff.mpr (by simp)
    by_cases htrue : wordOf s = "true"
    · exact settles_of_taken (v := .bool true) (if_pos htrue) rfl hbrief
    · by_cases hfalse : wordOf s = "false"
      · refine settles_of_taken (v := .bool false) ?_ rfl hbrief
        simp only [coerce, if_neg htrue, if_pos hfalse]
      · have hrefused : coerce .bool (.text s) = refuse .expectedBool (.text s) := by
          simp only [coerce, if_neg htrue, if_neg hfalse]
        exact settles_of_refuse hrefused rfl (iff_of_true hbrief rfl)
  | _ => exact settles_of_refuse rfl rfl (Value.isBrief_iff_of_ne_text (by simp))

theorem settles_text (raw : Value) : Settles .text raw := by
  have hprinted (hraw : coerce .text raw = raw.print.map .text) (hne : ∀ s, raw ≠ .text s) :
      Settles .text raw := by
    rw [Value.print] at hraw
    split_ifs at hraw with hprintable
    · exact settles_of_taken hraw rfl ((Value.isBrief_iff_of_ne_text hne).mpr hprintable)
    · exact Or.inr ⟨_, hraw, iff_of_false (by decide) fun hbrief => hprintable hbrief.1⟩
  cases raw with
  | text s => exact settles_of_taken rfl rfl (Value.isBrief_text_iff.mpr (by simp))
  | list items => exact settles_of_refuse rfl rfl (Value.isBrief_iff_of_ne_text (by simp))
  | dict entries => exact settles_of_refuse rfl rfl (Value.isBrief_iff_of_ne_text (by simp))
  | _ => exact hprinted rfl (by simp)

theorem settles_number (raw : Value) : Settles .number raw := by
  cases raw with
  | int n =>
    have hbrief : (Value.int n).IsBrief .number ↔ _ := Value.isBrief_iff_of_ne_text (by simp)
    refine Or.inl ⟨.int n, rfl, ?_⟩
    rw [hbrief]
    change (∃ s, Value.print (.int n) = .ok s) ↔ _
    unfold Value.print
    split_ifs with hprintable
    · simp [hprintable]
    · simp [hprintable]
  | float x =>
    have hbrief : (Value.float x).IsBrief .number := ⟨rfl, by simp⟩
    cases hfinite : x.isFinite with
    | true =>
      obtain ⟨s, hs, -⟩ := exists_numberLiteral_readsBack (x := .float x) hfinite trivial
      exact settles_of_taken (v := .float x) (if_pos hfinite) hs hbrief
    | false =>
      have hrefused : coerce .number (.float x) = refuse .expectedFinite (.float x) := by
        simp [coerce, hfinite]
      exact settles_of_refuse hrefused rfl (iff_of_true hbrief rfl)
  | text s =>
    by_cases hlong : IsOverlong s.toList
    · obtain ⟨count, hcount⟩ := (stopsIf_ofChars? s.toList).error hlong
      refine Or.inr
        ⟨.tooManyDigits count, ?_, iff_of_false (by simp [Failure.area]) fun hbrief => ?_⟩
      · simp only [coerce, hcount]
        rfl
      · exact Value.isBrief_text_iff.mp hbrief rfl hlong
    · have hbrief : (Value.text s).IsBrief .number := Value.isBrief_text_iff.mpr fun _ => hlong
      obtain ⟨found, hfound⟩ := (stopsIf_ofChars? s.toList).ok hlong
      cases found with
      | none =>
        have hrefused : coerce .number (.text s) = refuse .expectedNumber (.text s) := by
          simp only [coerce, hfound]
          rfl
        exact settles_of_refuse hrefused rfl (iff_of_true hbrief rfl)
      | some x =>
        obtain ⟨t, ht⟩ := exists_literal_of_ofChars? hfound
        refine settles_of_taken (v := .ofNumber x) ?_ ht hbrief
        simp only [coerce, hfound]
        rfl
  | _ => exact settles_of_refuse rfl rfl (Value.isBrief_iff_of_ne_text (by simp))

theorem settles (kind : Kind) (raw : Value) : Settles kind raw := by
  cases kind with
  | bool => exact settles_bool raw
  | text => exact settles_text raw
  | number => exact settles_number raw

/-- A value that is taken can be written if it is brief. -/
theorem exists_literal_iff_of_coerce
    {kind : Kind} {raw : Value} {v : Scalar} (h : coerce kind raw = .ok v) :
    (∃ s, literal kind v.toValue = .ok s) ↔ raw.IsBrief kind := by
  rcases settles kind raw with ⟨w, hw, hiff⟩ | ⟨cause, hcause, -⟩
  · obtain rfl := Except.ok.inj (h.symm.trans hw)
    exact hiff
  · exact absurd (h.symm.trans hcause) nofun

namespace Source

variable {ds later edited : List Descriptor} {edits : Edits} {edit refused : String × Value}
  {name : String} {raw : Value}

/-! ## The values that count -/

/-- The kind of the parameter that a value for a name goes to. -/
def kindOf? (ds : List Descriptor) (name : String) : Option Kind :=
  (findLast? ds name).map (·.kind)

/-- A value that is taken where it goes. -/
def isTaken (ds : List Descriptor) (edit : String × Value) : Bool :=
  (kindOf? ds edit.1).any fun kind => (coerce kind edit.2).isOk

/-- A value that is brief for the parameter that it goes to. -/
def IsBriefFor (ds : List Descriptor) (edit : String × Value) : Prop :=
  ∀ kind ∈ kindOf? ds edit.1, edit.2.IsBrief kind

/-- The values that something becomes of: the first one that is not taken, or all of them. -/
def deciding (ds : List Descriptor) (edits : Edits) : Edits :=
  match edits.find? fun edit => !isTaken ds edit with
  | some refused => [refused]
  | none => edits

theorem kindOf?_eq_some_iff {kind : Kind} :
    kindOf? ds name = some kind ↔ ∃ d, findLast? ds name = some d ∧ d.kind = kind :=
  Option.map_eq_some_iff

theorem isBriefFor_iff
    {kind : Kind} (h : kindOf? ds edit.1 = some kind) :
    IsBriefFor ds edit ↔ edit.2.IsBrief kind := by
  simp [IsBriefFor, h]

/-- No value changes what becomes of another one. -/
theorem kindOf?_of_applyEdit
    (h : applyEdit ds name raw = .ok later) :
    kindOf? later = kindOf? ds := by
  obtain ⟨d, value, hlast, -, hlater⟩ := findLast?_of_applyEdit h
  funext other
  unfold kindOf?
  rw [hlater]
  split_ifs with hother
  · rw [hother, hlast]
    rfl
  · rfl

/-- A value is taken, or it is refused; then it is said why if the value is brief. -/
theorem applyEdit_cases
    {kind : Kind} (hkind : kindOf? ds name = some kind) (raw : Value) :
    (∃ later, applyEdit ds name raw = .ok later ∧ isTaken ds (name, raw) = true) ∨
    ∃ failure, applyEdit ds name raw = .error failure ∧ isTaken ds (name, raw) = false ∧
      (failure.area = .parameter ↔ IsBriefFor ds (name, raw)) := by
  obtain ⟨d, hlast, rfl⟩ := kindOf?_eq_some_iff.mp hkind
  rw [applyEdit_of_findLast? hlast, isBriefFor_iff hkind, isTaken, hkind]
  rcases settles d.kind raw with ⟨v, hv, -⟩ | ⟨cause, hcause, hbrief⟩
  · rw [hv]
    exact Or.inl ⟨_, rfl, by simp [hv, Except.isOk, Except.toBool]⟩
  · rw [hcause]
    refine Or.inr ?_
    dsimp only
    split_ifs with harea
    · exact ⟨_, rfl, by simp [hcause, Except.isOk, Except.toBool],
        iff_of_true rfl (hbrief.mp harea)⟩
    · exact ⟨_, rfl, by simp [hcause, Except.isOk, Except.toBool],
        iff_of_false harea fun hraw => harea (hbrief.mpr hraw)⟩

/-! ## Setting several -/

/-- The first value that is not taken ends the work. -/
theorem exists_refusal
    (hknown : ∀ edit ∈ edits, ∃ kind, kindOf? ds edit.1 = some kind)
    (h : edits.find? (fun edit => !isTaken ds edit) = some refused) :
    ∃ later failure, applyInOrder ds edits = (later, some failure) ∧
      (failure.area = .parameter ↔ IsBriefFor ds refused) := by
  induction edits generalizing ds with
  | nil => contradiction
  | cons edit edits ih =>
    obtain ⟨name, raw⟩ := edit
    obtain ⟨⟨kind, hkind⟩, hrest⟩ := List.forall_mem_cons.mp hknown
    rcases applyEdit_cases hkind raw with
      ⟨next, hnext, htaken⟩ | ⟨failure, hfailure, hrefused, hiff⟩
    · rw [List.find?_cons_of_neg (by simp [htaken])] at h
      have hsame := kindOf?_of_applyEdit hnext
      have hfind : edits.find? (fun edit => !isTaken next edit) = some refused := by
        simpa only [isTaken, hsame] using h
      obtain ⟨later, failure, hlater, hiff⟩ := ih (by rwa [hsame]) hfind
      refine ⟨later, failure, by rw [applyInOrder_cons_of_ok hnext, hlater], ?_⟩
      rwa [IsBriefFor, hsame] at hiff
    · rw [List.find?_cons_of_pos (by simp [hrefused])] at h
      obtain rfl := Option.some.inj h
      exact ⟨ds, failure, by rw [applyInOrder, hfailure], hiff⟩

/-- Values that are all taken are all set. -/
theorem exists_applyInOrder
    (hknown : ∀ edit ∈ edits, ∃ kind, kindOf? ds edit.1 = some kind)
    (h : ∀ edit ∈ edits, isTaken ds edit = true) :
    ∃ later, applyInOrder ds edits = (later, none) := by
  induction edits generalizing ds with
  | nil => exact ⟨ds, rfl⟩
  | cons edit edits ih =>
    obtain ⟨name, raw⟩ := edit
    obtain ⟨⟨kind, hkind⟩, hrest⟩ := List.forall_mem_cons.mp hknown
    obtain ⟨hfirst, htaken⟩ := List.forall_mem_cons.mp h
    rcases applyEdit_cases hkind raw with ⟨next, hnext, -⟩ | ⟨failure, -, hrefused, -⟩
    · have hsame := kindOf?_of_applyEdit hnext
      rw [applyInOrder_cons_of_ok hnext]
      refine ih (by rwa [hsame]) fun edit hedit => ?_
      simpa only [isTaken, hsame] using htaken edit hedit
    · exact absurd (hfirst.symm.trans hrefused) nofun

/-- Among brief values there is none that cannot be written. -/
theorem exists_render_of_applyInOrder
    (h : applyInOrder ds edits = (edited, none)) (hbrief : ∀ edit ∈ edits, IsBriefFor ds edit)
    (hds : ∀ d ∈ ds, ∃ line, d.render = .ok line) :
    ∀ d ∈ edited, ∃ line, d.render = .ok line := by
  induction edits generalizing ds with
  | nil =>
    obtain ⟨rfl, -⟩ := Prod.mk.inj h
    exact hds
  | cons edit edits ih =>
    obtain ⟨name, raw⟩ := edit
    obtain ⟨hfirst, hrest⟩ := List.forall_mem_cons.mp hbrief
    obtain ⟨later, hstep, h⟩ := exists_of_applyInOrder_cons h
    have hsame := kindOf?_of_applyEdit hstep
    refine ih h (fun edit hedit => ?_) fun e he => ?_
    · simpa only [IsBriefFor, hsame] using hrest edit hedit
    · obtain ⟨d, value, hlast, hvalue, rfl⟩ := exists_of_applyEdit hstep
      rcases mem_of_mem_updateLast he with he | rfl
      · exact hds e he
      · have hkind : kindOf? ds name = some d.kind := kindOf?_eq_some_iff.mpr ⟨d, hlast, rfl⟩
        exact exists_render_iff.mpr
          (Or.inr ((exists_literal_iff_of_coerce hvalue).mpr ((isBriefFor_iff hkind).mp hfirst)))

theorem findLast?_of_applyInOrder
    (h : applyInOrder ds edits = (edited, none)) (hname : name ∉ edits.map (·.1)) :
    findLast? edited name = findLast? ds name := by
  induction edits generalizing ds with
  | nil =>
    obtain ⟨rfl, -⟩ := Prod.mk.inj h
    rfl
  | cons edit edits ih =>
    obtain ⟨first, raw⟩ := edit
    rw [List.map_cons, List.mem_cons, not_or] at hname
    obtain ⟨later, hstep, h⟩ := exists_of_applyInOrder_cons h
    obtain ⟨d, value, -, -, hlater⟩ := findLast?_of_applyEdit hstep
    rw [ih h hname.2, hlater, if_neg hname.1]

/-- A value that has been set is there when all values have been set. -/
theorem exists_of_mem_edits
    (hnames : (edits.map (·.1)).Nodup) (h : applyInOrder ds edits = (edited, none))
    (hmem : (name, raw) ∈ edits) :
    ∃ d, findLast? edited name = some d ∧ kindOf? ds name = some d.kind ∧
      coerce d.kind raw = .ok d.value := by
  induction edits generalizing ds with
  | nil => contradiction
  | cons edit edits ih =>
    obtain ⟨first, firstRaw⟩ := edit
    obtain ⟨hfirst, hrest⟩ := List.nodup_cons.mp hnames
    obtain ⟨later, hstep, hrun⟩ := exists_of_applyInOrder_cons h
    rcases List.mem_cons.mp hmem with heq | hmem
    · obtain ⟨rfl, rfl⟩ := Prod.mk.inj heq
      obtain ⟨d, value, hlast, hvalue, hlater⟩ := findLast?_of_applyEdit hstep
      refine ⟨{ d with value }, ?_, kindOf?_eq_some_iff.mpr ⟨d, hlast, rfl⟩, hvalue⟩
      rw [findLast?_of_applyInOrder hrun hfirst, hlater]
      exact if_pos rfl
    · obtain ⟨d, hd, hkind, hvalue⟩ := ih hrest hrun hmem
      exact ⟨d, hd, by rwa [kindOf?_of_applyEdit hstep] at hkind, hvalue⟩

/-! ## Writing what was set -/

/-- The value that a parameter has in the text can be written. -/
theorem exists_literal_of_isUnchanged
    {source : List Char} {found : List Descriptor} (hfound : extract source = .ok found)
    (hedited : Edited found edited) {d : Descriptor} (hd : d ∈ edited)
    (h : d.isUnchanged = true) :
    ∃ s, d.literal = .ok s := by
  obtain ⟨i, -, -, p, hp⟩ := hedited.mem_standsIn hfound hd
  obtain ⟨kind, hread, hkind⟩ := hedited.exists_read hfound hd
  obtain ⟨s, hs, -⟩ := exists_literal_sameValue_iff hp hread hkind (fun _ => rfl)
    fun hchanged => absurd (h.symm.trans hchanged) nofun
  exact ⟨s, hs⟩

/-- A value that is taken but not brief keeps the text from being written. -/
theorem synthesize_ne_ok
    {source : List Char} {found : List Descriptor} (hfound : extract source = .ok found)
    (hnames : (edits.map (·.1)).Nodup) (h : applyInOrder found edits = (edited, none))
    (hedit : edit ∈ edits) (hlong : ¬IsBriefFor found edit) (written : List Char) :
    synthesize source edited ≠ .ok written := by
  intro hwritten
  obtain ⟨name, raw⟩ := edit
  obtain ⟨d, hlast, hkind, hvalue⟩ := exists_of_mem_edits hnames h hedit
  rw [isBriefFor_iff hkind, ← exists_literal_iff_of_coerce hvalue] at hlong
  have hd : d ∈ edited := mem_of_findLast? hlast
  obtain ⟨ls, hls, -⟩ := Failure.bind_eq_ok_iff.mp hwritten
  rcases exists_render_iff.mp (exists_render_of_foldlM hls d hd) with hunchanged | hliteral
  · exact hlong (exists_literal_of_isUnchanged hfound (edited_of_applyInOrder h) hd hunchanged)
  · exact hlong hliteral

/-! ## The whole request -/

theorem applyEdits_of_known
    (h : unknownNames ds edits = []) :
    applyEdits ds edits = applyInOrder ds edits := by
  rw [applyEdits, h]

theorem customize_of_refusal
    {source : List Char} {found : List Descriptor} (hfound : extract source = .ok found)
    {failure : Failure} (h : applyEdits found edits = (later, some failure)) :
    customize source edits = .error failure := by
  unfold customize
  simp only [hfound, h, bind, Except.bind]

theorem customize_of_set
    {source : List Char} {found : List Descriptor} (hfound : extract source = .ok found)
    (h : applyEdits found edits = (edited, none)) :
    customize source edits = (do
      let effective ← synthesize source edited
      return (effective, ← edited.mapM Descriptor.toOverride)) := by
  unfold customize
  simp only [hfound, h, bind, Except.bind]

theorem deciding_of_find?
    (h : edits.find? (fun edit => !isTaken ds edit) = some refused) :
    deciding ds edits = [refused] := by
  rw [deciding, h]

theorem deciding_of_isTaken
    (h : ∀ edit ∈ edits, isTaken ds edit = true) :
    deciding ds edits = edits := by
  have hnone : edits.find? (fun edit => !isTaken ds edit) = none := by
    simpa using h
  rw [deciding, hnone]

/-- Brief values that have all been set are written, and every parameter has its override. -/
theorem exists_customize_eq_ok
    {source : List Char} {found : List Descriptor} (hfound : extract source = .ok found)
    (hset : applyEdits found edits = (edited, none))
    (hbrief : ∀ edit ∈ edits, IsBriefFor found edit) :
    ∃ written, synthesize source edited = .ok written ∧
      customize source edits = .ok (written, edited.map overrideOf) := by
  obtain ⟨-, hrun⟩ := applyEdits_eq_none_iff.mp hset
  have hedited := edited_of_applyInOrder hrun
  have hunset : ∀ d ∈ found, ∃ line, d.render = .ok line := by
    intro d hd
    obtain ⟨i, -, -, hunchanged, -⟩ := (extract_standsIn hfound).1 d hd
    exact ⟨_, render_of_isUnchanged hunchanged⟩
  obtain ⟨written, hwritten, -⟩ := synthesize_eq_ok hfound hedited
    (exists_render_of_applyInOrder hrun hbrief hunset)
  refine ⟨_, hwritten, ?_⟩
  rw [customize_of_set hfound hset, hwritten, hedited.mapM_toOverride hfound]
  rfl

/-- Values under known names that are all taken are answered if all of them are brief. -/
theorem isAnswered_iff_of_isTaken
    {source : List Char} {found : List Descriptor} (hfound : extract source = .ok found)
    (hnames : (edits.map (·.1)).Nodup) (hset : applyEdits found edits = (edited, none)) :
    IsAnswered (customize source edits) ↔ ∀ edit ∈ edits, IsBriefFor found edit := by
  obtain ⟨-, hrun⟩ := applyEdits_eq_none_iff.mp hset
  constructor
  · intro hanswered edit hedit
    by_contra hlong
    rw [customize_of_set hfound hset] at hanswered
    refine NeverRefuses.not_isAnswered ((neverRefuses_synthesize source edited).bind ?_) ?_
      hanswered
    · intro written
      rw [(edited_of_applyInOrder hrun).mapM_toOverride hfound]
      exact .ok _
    · intro answer hanswer
      obtain ⟨written, hwritten, -⟩ := Failure.bind_eq_ok_iff.mp hanswer
      exact synthesize_ne_ok hfound hnames hrun hedit hlong written hwritten
  · intro hbrief
    obtain ⟨written, -, hanswer⟩ := exists_customize_eq_ok hfound hset hbrief
    rw [hanswer]
    exact isAnswered_ok _

theorem isAnswered_customize_iff
    {source : List Char} {found : List Descriptor} (hfound : extract source = .ok found)
    (hnames : (edits.map (·.1)).Nodup) :
    IsAnswered (customize source edits) ↔
      (unknownNames found edits = [] → ∀ edit ∈ deciding found edits, IsBriefFor found edit) := by
  cases hunknown : unknownNames found edits with
  | cons name names =>
    have hrefused : applyEdits found edits =
        (found, some (.unknownParameters (name :: names))) := by
      rw [applyEdits, hunknown]
    rw [customize_of_refusal hfound hrefused, isAnswered_error_iff]
    exact iff_of_true rfl fun hnone => absurd hnone (List.cons_ne_nil name names)
  | nil =>
    have happly := applyEdits_of_known hunknown
    have hknown : ∀ edit ∈ edits, ∃ kind, kindOf? found edit.1 = some kind := by
      intro edit hedit
      obtain ⟨d, hd⟩ := unknownNames_eq_nil_iff.mp hunknown edit hedit
      exact ⟨d.kind, kindOf?_eq_some_iff.mpr ⟨d, hd, rfl⟩⟩
    rw [forall_prop_of_true rfl]
    cases hfind : edits.find? fun edit => !isTaken found edit with
    | some refused =>
      obtain ⟨later, failure, hrun, hiff⟩ := exists_refusal hknown hfind
      rw [deciding_of_find? hfind, customize_of_refusal hfound (happly.trans hrun),
        isAnswered_error_iff, hiff]
      simp
    | none =>
      have htaken : ∀ edit ∈ edits, isTaken found edit = true := by
        simpa using hfind
      obtain ⟨edited, hrun⟩ := exists_applyInOrder hknown htaken
      rw [deciding_of_isTaken htaken]
      exact isAnswered_iff_of_isTaken hfound hnames (happly.trans hrun)

/-- A text can be read unless an integer in it has too many digits, and a request to set values in
it is answered, with the written text or with a refusal, unless one of the values that count is too
long for its parameter. -/
theorem extract_and_customize_isAnswered_iff
    (source : List Char) (hnames : (edits.map (·.1)).Nodup) :
    ((∃ found, extract source = .ok found) ↔
      ∀ token, IsNumberToken source token → ¬IsOverlong token) ∧
    (IsAnswered (customize source edits) ↔
      ∃ found, extract source = .ok found ∧
        (unknownNames found edits = [] →
          ∀ edit ∈ deciding found edits, IsBriefFor found edit)) := by
  have hreads := stopsIf_extract source
  constructor
  · rw [hreads.ok_iff]
    push Not
    rfl
  · by_cases hlong : ∃ token, IsNumberToken source token ∧ IsOverlong token
    · obtain ⟨count, hcount⟩ := hreads.error hlong
      have hfails : customize source edits = .error (.tooManyDigits count) := by
        rw [customize, hcount]
        rfl
      rw [hfails, isAnswered_error_iff]
      refine iff_of_false nofun ?_
      rintro ⟨found, hfound, -⟩
      exact absurd (hcount.symm.trans hfound) nofun
    · obtain ⟨found, hfound⟩ := hreads.ok hlong
      rw [isAnswered_customize_iff hfound hnames]
      constructor
      · intro hbrief
        exact ⟨found, hfound, hbrief⟩
      · rintro ⟨found', hfound', hbrief⟩
        obtain rfl := Except.ok.inj (hfound.symm.trans hfound')
        exact hbrief

/-- A value that is too long even to be shown does not count behind one that is refused. -/
theorem extract_and_customize_isAnswered_of_width :
    ([("width", Value.text "wide"), ("label", .int (10 ^ 5000))].map (·.1)).Nodup ∧
    IsAnswered (customize "width = 5; // [0:10]\nlabel = \"a\";".toList
      [("width", .text "wide"), ("label", .int (10 ^ 5000))]) := by
  let width : Descriptor :=
    { Assignment.descriptor ⟨"width", "5".toList, 8, 9, "[0:10]"⟩ 0
        "width = 5; // [0:10]".toList none .number (.int 5) with
      min := some (.int 0), max := some (.int 10) }
  let label : Descriptor :=
    Assignment.descriptor ⟨"label", "\"a\"".toList, 8, 11, ""⟩ 1 "label = \"a\";".toList
      none .text (.text "a")
  have hfound : extract "width = 5; // [0:10]\nlabel = \"a\";".toList = .ok [width, label] :=
    Failure.eq_ok_of_toOption (by decide +kernel)
  have hnames : ([("width", Value.text "wide"), ("label", .int (10 ^ 5000))].map (·.1)).Nodup := by
    decide
  refine ⟨hnames, (extract_and_customize_isAnswered_iff _ hnames).2.mpr ⟨_, hfound, fun _ => ?_⟩⟩
  have hrefused : isTaken [width, label] ("width", .text "wide") = false := by decide +kernel
  have hdeciding : deciding [width, label]
      [("width", .text "wide"), ("label", .int (10 ^ 5000))] = [("width", .text "wide")] :=
    deciding_of_find? (List.find?_cons_of_pos (by simp [hrefused]))
  have hkind : kindOf? [width, label] "width" = some .number := rfl
  rw [hdeciding, List.forall_mem_singleton, isBriefFor_iff hkind]
  exact Value.isBrief_text_iff.mpr fun _ => not_isOverlong_of_ofChars? (by decide +kernel)

/-- A number of one digit more than the reader of integers takes. -/
theorem isOverlong_replicate :
    IsOverlong (List.replicate (Numeral.digitLimit + 1) '1') := by
  let n : Numeral := ⟨false, List.replicate (Numeral.digitLimit + 1) '1', false, [], none⟩
  have hdigits : Numeral.AllDigits n.whole := by
    intro c hc
    rw [List.eq_of_mem_replicate hc]
    rfl
  have hplain : n.IsPlain :=
    ⟨by simp [n], hdigits, nofun, fun _ => rfl, nofun⟩
  have hwritten : n.written = List.replicate (Numeral.digitLimit + 1) '1' := by
    simp [n, Numeral.written, Numeral.exponentChars]
  obtain ⟨hstart, hend⟩ := hplain.noBlankEnds
  rw [← hwritten]
  refine ⟨n, ?_, rfl, by simp [n]⟩
  rw [trim_eq_self hstart hend, Numeral.ofChars?_written hplain]

/-- A text with an assignment of such a number. -/
theorem exists_isNumberToken_isOverlong :
    ∃ source token, IsNumberToken source token ∧ IsOverlong token := by
  let p : Layout :=
    ⟨[], ['x'], [' '], [' '], List.replicate (Numeral.digitLimit + 1) '1', [], []⟩
  have hdigit : ∀ c ∈ p.literal, isBlank c = false ∧ c ≠ ';' ∧ c ≠ '"' ∧ c ≠ '=' := by
    intro c hc
    rw [List.eq_of_mem_replicate hc]
    decide
  obtain ⟨hside, -⟩ := rightHandSide_of_forall (by simp [p]) hdigit
  have hblank : AllBlank [' '] := by simp [AllBlank, isBlank]
  have hname : IsName ['x'] :=
    ⟨[], ['x'], rfl, Or.inl rfl, List.cons_ne_nil _ _, List.forall_mem_singleton.mpr (by decide)⟩
  have hp : p.WellFormed :=
    ⟨List.forall_mem_nil _, hname, hblank, hblank, by simp [p], hside, List.forall_mem_nil _,
      Or.inl rfl⟩
  have hshape := hp.shape_line_of_stopWord? (by decide)
  have hlines : lines (unlines [p.line]) = [p.line] := by
    refine lines_unlines (List.cons_ne_nil _ _) (List.forall_mem_singleton.mpr ?_)
    simp [p, Layout.line, Layout.front, Layout.head, Layout.back]
  refine ⟨unlines [p.line], p.literal, ⟨p.assignment, ?_, .literal⟩, isOverlong_replicate⟩
  have hspecial : p.assignment.isSpecial = false := by decide
  rw [hlines, assignments, hshape]
  dsimp only
  rw [hspecial]
  exact List.mem_cons_self

/-- Not every text can be read. -/
theorem not_forall_isAnswered :
    ¬∀ (source : List Char) (edits : Edits), (edits.map (·.1)).Nodup →
      (∃ found, extract source = .ok found) ∧ IsAnswered (customize source edits) := by
  intro hall
  obtain ⟨source, token, hlong⟩ := exists_isNumberToken_isOverlong
  obtain ⟨hfound, -⟩ := hall source [] List.nodup_nil
  exact (stopsIf_extract source).ok_iff.mp hfound ⟨token, hlong⟩

end Source

end SolidWorkshop
