import SolidWorkshop.Proofs.Source.Answering
import SolidWorkshop.Proofs.Source.Confirmation

/-!
# What becomes of names

Values are set by name.  The last parameter of a name takes the value for it, and every other
parameter stays as it was.  So the places and the values together say what a request leaves, and
the order in which the values were given does not matter, unless one of them is refused: then
those in front of it have been set, and no others.
-/

namespace SolidWorkshop.Source

variable {ds later edited found before after : List Descriptor} {d e : Descriptor} {i j : Nat}
  {edits first second others : Edits} {name : String} {raw : Value}

/-! ## The last parameter of a name, by its place -/

/-- The parameter stands at this place, and no parameter of its name stands behind it. -/
structure IsLastAt (ds : List Descriptor) (i : Nat) (d : Descriptor) : Prop where
  here : ds[i]? = some d
  behind : ∀ j e, i < j → ds[j]? = some e → e.name ≠ d.name

namespace IsLastAt

theorem of_append
    (hafter : ∀ e ∈ after, e.name ≠ d.name) :
    IsLastAt (before ++ d :: after) before.length d := by
  refine ⟨by simp, fun j e hj he => ?_⟩
  rw [List.getElem?_append_right (Nat.le_of_lt hj)] at he
  obtain ⟨k, hk⟩ : ∃ k, j - before.length = k + 1 := ⟨j - before.length - 1, by omega⟩
  rw [hk, List.getElem?_cons_succ] at he
  exact hafter e (List.mem_of_getElem? he)

/-- A name has one last parameter. -/
theorem unique
    (hd : IsLastAt ds i d) (he : IsLastAt ds j e) (hname : d.name = e.name) :
    i = j ∧ d = e := by
  obtain rfl : i = j := by
    rcases Nat.lt_trichotomy i j with hlt | heq | hlt
    · exact absurd hname.symm (hd.behind j e hlt he.here)
    · exact heq
    · exact absurd hname (he.behind i d hlt hd.here)
  exact ⟨rfl, Option.some.inj (hd.here.symm.trans he.here)⟩

/-- Which parameter is the last one of a name is a matter of names alone. -/
theorem of_map_name
    (hd : IsLastAt ds i d) (hnames : later.map (·.name) = ds.map (·.name))
    (he : later[i]? = some e) :
    IsLastAt later i e := by
  have hsame : ∀ j : Nat, later[j]?.map Descriptor.name = ds[j]?.map Descriptor.name := by
    intro j
    rw [← List.getElem?_map, ← List.getElem?_map, hnames]
  have hname : e.name = d.name := by
    have hplace := hsame i
    rw [he, hd.here] at hplace
    exact Option.some.inj hplace
  refine ⟨he, fun j f hj hf => ?_⟩
  have hplace := hsame j
  rw [hf] at hplace
  obtain ⟨g, hg, hgf⟩ := Option.map_eq_some_iff.mp hplace.symm
  rw [hname, ← hgf]
  exact hd.behind j g hj hg

end IsLastAt

/-! ## Values set by name -/

/-- The last parameter of every name among the values has taken the value for its name, and
nothing else has changed. -/
structure SetsByName (ds : List Descriptor) (edits : Edits) (edited : List Descriptor) : Prop where
  names : edited.map (·.name) = ds.map (·.name)
  taken : ∀ i d raw, IsLastAt ds i d → (d.name, raw) ∈ edits →
    ∃ value, coerce d.kind raw = .ok value ∧ edited[i]? = some { d with value }
  kept : ∀ i d, ds[i]? = some d → (IsLastAt ds i d → d.name ∉ edits.map (·.1)) →
    edited[i]? = some d

namespace SetsByName

theorem refl (ds : List Descriptor) : SetsByName ds [] ds where
  names := rfl
  taken := fun _ _ _ _ hmem => absurd hmem List.not_mem_nil
  kept := fun _ _ hd _ => hd

/-- One value is set by name. -/
theorem of_applyEdit
    (h : applyEdit ds name raw = .ok later) :
    SetsByName ds [(name, raw)] later := by
  obtain ⟨d, value, hlast, hvalue, rfl⟩ := exists_of_applyEdit h
  obtain ⟨rfl, before, after, rfl, hafter⟩ := findLast?_eq_some_iff.mp hlast
  have hplace : IsLastAt (before ++ d :: after) before.length d := .of_append hafter
  rw [updateLast_append_cons rfl hafter]
  constructor
  · simp
  · intro i e raw' he hmem
    obtain ⟨hname, rfl⟩ := Prod.mk.inj (List.mem_singleton.mp hmem)
    obtain ⟨rfl, rfl⟩ := he.unique hplace hname
    exact ⟨value, hvalue, by simp⟩
  · intro i e he hother
    have hi : before.length ≠ i := by
      rintro rfl
      obtain rfl : d = e := Option.some.inj (hplace.here.symm.trans he)
      exact hother hplace List.mem_cons_self
    have hset : before ++ { d with value } :: after =
        (before ++ d :: after).set before.length { d with value } := by
      simp
    rw [hset, List.getElem?_set_ne hi]
    exact he

/-- Values for some names and then for others are values for all of them. -/
theorem append
    (hfirst : SetsByName ds first later) (hsecond : SetsByName later second edited)
    (hdisjoint : (first.map (·.1)).Disjoint (second.map (·.1))) :
    SetsByName ds (first ++ second) edited := by
  constructor
  · rw [hsecond.names, hfirst.names]
  · intro i d raw hd hmem
    rcases List.mem_append.mp hmem with hmem | hmem
    · obtain ⟨value, hvalue, hlater⟩ := hfirst.taken i d raw hd hmem
      have hname : d.name ∉ second.map (·.1) := hdisjoint (List.mem_map_of_mem hmem)
      exact ⟨value, hvalue, hsecond.kept i _ hlater fun _ => hname⟩
    · have hname : d.name ∉ first.map (·.1) :=
        fun hearlier => hdisjoint hearlier (List.mem_map_of_mem hmem)
      have hlater := hfirst.kept i d hd.here fun _ => hname
      exact hsecond.taken i d raw (hd.of_map_name hfirst.names hlater) hmem
  · intro i d hd hother
    rw [List.map_append] at hother
    have hlater := hfirst.kept i d hd fun hlast =>
      fun hmem => hother hlast (List.mem_append_left _ hmem)
    refine hsecond.kept i d hlater fun hlast => ?_
    have hbefore : IsLastAt ds i d := hlast.of_map_name hfirst.names.symm hd
    exact fun hmem => hother hbefore (List.mem_append_right _ hmem)

/-- The values under a name decide, not their order. -/
theorem perm
    (h : SetsByName ds edits edited) (hperm : others.Perm edits) :
    SetsByName ds others edited where
  names := h.names
  taken := fun i d raw hd hmem => h.taken i d raw hd (hperm.mem_iff.mp hmem)
  kept := fun i d hd hother => h.kept i d hd fun hlast hmem =>
    hother hlast ((hperm.map (·.1)).mem_iff.mpr hmem)

/-- What is left when values have been set is decided by the values. -/
theorem unique
    (h : SetsByName ds edits edited) (h' : SetsByName ds edits later) :
    edited = later := by
  have hlength : ∀ {after}, SetsByName ds edits after → after.length = ds.length := by
    intro after hafter
    have hnames := congrArg List.length hafter.names
    rwa [List.length_map, List.length_map] at hnames
  refine List.ext_getElem? fun i => ?_
  cases hd : ds[i]? with
  | none =>
    have hi := List.getElem?_eq_none_iff.mp hd
    rw [List.getElem?_eq_none (by rwa [hlength h]), List.getElem?_eq_none (by rwa [hlength h'])]
  | some d =>
    by_cases hset : IsLastAt ds i d ∧ d.name ∈ edits.map (·.1)
    · obtain ⟨hlast, hname⟩ := hset
      obtain ⟨⟨_, raw⟩, hmem, rfl⟩ := List.mem_map.mp hname
      obtain ⟨value, hvalue, hedited⟩ := h.taken i d raw hlast hmem
      obtain ⟨value', hvalue', hlater⟩ := h'.taken i d raw hlast hmem
      obtain rfl := Except.ok.inj (hvalue.symm.trans hvalue')
      rw [hedited, hlater]
    · rw [not_and] at hset
      rw [h.kept i d hd hset, h'.kept i d hd hset]

theorem of_applyInOrder
    (hnames : (edits.map (·.1)).Nodup) (h : applyInOrder ds edits = (edited, none)) :
    SetsByName ds edits edited := by
  induction edits generalizing ds with
  | nil =>
    obtain ⟨rfl, -⟩ := Prod.mk.inj h
    exact refl ds
  | cons edit edits ih =>
    obtain ⟨name, raw⟩ := edit
    obtain ⟨hname, hrest⟩ := List.nodup_cons.mp hnames
    obtain ⟨later, hstep, hrun⟩ := exists_of_applyInOrder_cons h
    have hdisjoint : ([(name, raw)].map (·.1)).Disjoint (edits.map (·.1)) :=
      List.singleton_disjoint.mpr hname
    exact (of_applyEdit hstep).append (ih hrest hrun) hdisjoint

end SetsByName

/-! ## Which requests are carried out -/

theorem isTaken_iff :
    isTaken ds (name, raw) = true ↔
      ∃ d value, findLast? ds name = some d ∧ coerce d.kind raw = .ok value := by
  unfold isTaken kindOf?
  cases findLast? ds name with
  | none => simp
  | some d => cases hcoerce : coerce d.kind raw <;> simp [hcoerce, Except.isOk, Except.toBool]

/-- Values are set in order exactly if each of them is taken by the last parameter of its name. -/
theorem exists_applyInOrder_iff
    (hnames : (edits.map (·.1)).Nodup) :
    (∃ edited, applyInOrder ds edits = (edited, none)) ↔
      ∀ name raw, (name, raw) ∈ edits →
        ∃ d value, findLast? ds name = some d ∧ coerce d.kind raw = .ok value := by
  constructor
  · rintro ⟨edited, hrun⟩ name raw hmem
    obtain ⟨e, -, hkind, hvalue⟩ := exists_of_mem_edits hnames hrun hmem
    obtain ⟨d, hlast, hd⟩ := kindOf?_eq_some_iff.mp hkind
    exact ⟨d, e.value, hlast, by rwa [hd]⟩
  · intro htaken
    refine exists_applyInOrder ?_ ?_
    · rintro ⟨name, raw⟩ hmem
      obtain ⟨d, -, hlast, -⟩ := htaken name raw hmem
      exact ⟨d.kind, kindOf?_eq_some_iff.mpr ⟨d, hlast, rfl⟩⟩
    · rintro ⟨name, raw⟩ hmem
      exact isTaken_iff.mpr (htaken name raw hmem)

theorem exists_applyEdits_iff
    (hnames : (edits.map (·.1)).Nodup) :
    (∃ edited, applyEdits ds edits = (edited, none)) ↔
      ∀ name raw, (name, raw) ∈ edits →
        ∃ d value, findLast? ds name = some d ∧ coerce d.kind raw = .ok value := by
  rw [← exists_applyInOrder_iff hnames]
  simp only [applyEdits_eq_none_iff]
  constructor
  · rintro ⟨edited, -, hrun⟩
    exact ⟨edited, hrun⟩
  · rintro ⟨edited, hrun⟩
    refine ⟨edited, unknownNames_eq_nil_iff.mpr ?_, hrun⟩
    rintro ⟨name, raw⟩ hmem
    obtain ⟨d, -, hlast, -⟩ := (exists_applyInOrder_iff hnames).mp ⟨edited, hrun⟩ name raw hmem
    exact ⟨d, hlast⟩

/-! ## What a refusal leaves -/

/-- The work on values ends with a failure, and leaves these parameters.  With an unknown name
among the values nothing is set.  Otherwise one of the values is refused by the last parameter of
its name, and exactly those in front of it have been set. -/
inductive StopsWith (ds : List Descriptor) (edits : Edits) : List Descriptor → Failure → Prop
  | unknown (hunknown : ∃ edit ∈ edits, findLast? ds edit.1 = none) :
    StopsWith ds edits ds (.unknownParameters (unknownNames ds edits))
  | refused {front back : Edits} {name : String} {raw : Value} {d : Descriptor} {cause : Failure}
    {later : List Descriptor} (hknown : ∀ edit ∈ edits, ∃ d, findLast? ds edit.1 = some d)
    (hedits : edits = front ++ (name, raw) :: back) (hlast : findLast? ds name = some d)
    (hrefused : coerce d.kind raw = .error cause) (hfront : SetsByName ds front later) :
    StopsWith ds edits later (.forParameter name cause)

/-- Work goes on behind the values that have been set. -/
theorem applyInOrder_append
    (h : applyInOrder ds first = (later, none)) (second : Edits) :
    applyInOrder ds (first ++ second) = applyInOrder later second := by
  induction first generalizing ds with
  | nil =>
    obtain ⟨rfl, -⟩ := Prod.mk.inj h
    rfl
  | cons edit first ih =>
    obtain ⟨name, raw⟩ := edit
    obtain ⟨next, hstep, hrun⟩ := exists_of_applyInOrder_cons h
    rw [List.cons_append, applyInOrder_cons_of_ok hstep]
    exact ih hrun

/-- Work that ends early ends at one of the values, and those in front of it have been set. -/
theorem exists_of_applyInOrder_eq_some
    {failure : Failure} (h : applyInOrder ds edits = (later, some failure)) :
    ∃ front name raw back, edits = front ++ (name, raw) :: back ∧
      applyInOrder ds front = (later, none) ∧ applyEdit later name raw = .error failure := by
  induction edits generalizing ds with
  | nil => exact absurd (Prod.mk.inj h).2 nofun
  | cons edit edits ih =>
    obtain ⟨name, raw⟩ := edit
    cases hstep : applyEdit ds name raw with
    | ok next =>
      rw [applyInOrder_cons_of_ok hstep] at h
      obtain ⟨front, other, refused, back, rfl, hfront, hrefused⟩ := ih h
      refine ⟨(name, raw) :: front, other, refused, back, rfl, ?_, hrefused⟩
      rw [applyInOrder_cons_of_ok hstep, hfront]
    | error cause =>
      rw [applyInOrder, hstep] at h
      obtain ⟨rfl, hfailure⟩ := Prod.mk.inj h
      obtain rfl := Option.some.inj hfailure
      exact ⟨[], name, raw, edits, rfl, rfl, hstep⟩

/-- A brief value that is refused is refused under its name. -/
theorem applyEdit_eq_error
    {cause : Failure} (hlast : findLast? ds name = some d)
    (hrefused : coerce d.kind raw = .error cause) (hbrief : raw.IsBrief d.kind) :
    applyEdit ds name raw = .error (.forParameter name cause) := by
  have harea : cause.area = .parameter := by
    rcases settles d.kind raw with ⟨value, hvalue, -⟩ | ⟨cause', hcause', hiff⟩
    · exact absurd (hrefused.symm.trans hvalue) nofun
    · obtain rfl := Except.error.inj (hrefused.symm.trans hcause')
      exact hiff.mpr hbrief
  rw [applyEdit_of_findLast? hlast, hrefused]
  exact if_pos harea

theorem applyEdits_of_unknown
    (h : ∃ edit ∈ edits, findLast? ds edit.1 = none) :
    applyEdits ds edits = (ds, some (.unknownParameters (unknownNames ds edits))) := by
  obtain ⟨edit, hmem, hnone⟩ := h
  cases hunknown : unknownNames ds edits with
  | nil =>
    obtain ⟨d, hd⟩ := unknownNames_eq_nil_iff.mp hunknown edit hmem
    exact absurd (hnone.symm.trans hd) nofun
  | cons name names => rw [applyEdits, hunknown]

theorem isLastAt_of_findLast?
    (h : findLast? ds name = some d) :
    d.name = name ∧ ∃ i, IsLastAt ds i d := by
  obtain ⟨rfl, before, after, rfl, hafter⟩ := findLast?_eq_some_iff.mp h
  exact ⟨rfl, before.length, .of_append hafter⟩

theorem nodup_front
    {front back : Edits} (h : ((front ++ (name, raw) :: back).map (·.1)).Nodup) :
    (front.map (·.1)).Nodup ∧ name ∉ front.map (·.1) := by
  rw [List.map_append, List.map_cons] at h
  obtain ⟨hfront, -, hdisjoint⟩ := List.nodup_append.mp h
  exact ⟨hfront, fun hmem => hdisjoint name hmem name List.mem_cons_self rfl⟩

/-- Under known names, all values have been set in front of the one that ends the work. -/
theorem applyInOrder_eq_some_iff
    (hknown : ∀ edit ∈ edits, ∃ d, findLast? ds edit.1 = some d)
    (hnames : (edits.map (·.1)).Nodup) (hbrief : ∀ edit ∈ edits, IsBriefFor ds edit)
    {failure : Failure} :
    applyInOrder ds edits = (later, some failure) ↔ StopsWith ds edits later failure := by
  have hraw : ∀ {name raw d}, (name, raw) ∈ edits → findLast? ds name = some d →
      raw.IsBrief d.kind := by
    intro name raw d hmem hlast
    exact (isBriefFor_iff (kindOf?_eq_some_iff.mpr ⟨d, hlast, rfl⟩)).mp (hbrief _ hmem)
  constructor
  · intro h
    obtain ⟨front, name, raw, back, rfl, hrun, hstep⟩ := exists_of_applyInOrder_eq_some h
    have hmem : (name, raw) ∈ front ++ (name, raw) :: back := by simp
    obtain ⟨d, hlast⟩ := hknown (name, raw) hmem
    obtain ⟨hfront, hname⟩ := nodup_front hnames
    have hlater : findLast? later name = some d := by
      rw [findLast?_of_applyInOrder hrun hname, hlast]
    cases hcoerce : coerce d.kind raw with
    | ok value =>
      rw [applyEdit_of_findLast? hlater, hcoerce] at hstep
      contradiction
    | error cause =>
      rw [applyEdit_eq_error hlater hcoerce (hraw hmem hlast)] at hstep
      obtain rfl := Except.error.inj hstep
      exact .refused hknown rfl hlast hcoerce (.of_applyInOrder hfront hrun)
  · intro h
    cases h with
    | unknown hunknown =>
      obtain ⟨edit, hmem, hnone⟩ := hunknown
      obtain ⟨d, hd⟩ := hknown edit hmem
      exact absurd (hnone.symm.trans hd) nofun
    | @refused front back name raw d cause later _ hedits hlast hrefused hset =>
      subst hedits
      obtain ⟨hfront, hname⟩ := nodup_front hnames
      have htaken : ∀ other value, (other, value) ∈ front →
          ∃ e taken, findLast? ds other = some e ∧ coerce e.kind value = .ok taken := by
        intro other value hmem
        obtain ⟨e, he⟩ := hknown (other, value) (List.mem_append_left _ hmem)
        obtain ⟨rfl, i, hi⟩ := isLastAt_of_findLast? he
        obtain ⟨taken, htaken, -⟩ := hset.taken i e value hi hmem
        exact ⟨e, taken, he, htaken⟩
      obtain ⟨reached, hrun⟩ := (exists_applyInOrder_iff hfront).mpr htaken
      obtain rfl := (SetsByName.of_applyInOrder hfront hrun).unique hset
      have hlater : findLast? reached name = some d := by
        rw [findLast?_of_applyInOrder hrun hname, hlast]
      have hmem : (name, raw) ∈ front ++ (name, raw) :: back := by simp
      rw [applyInOrder_append hrun, applyInOrder,
        applyEdit_eq_error hlater hrefused (hraw hmem hlast)]

theorem applyEdits_eq_some_iff
    (hnames : (edits.map (·.1)).Nodup) (hbrief : ∀ edit ∈ edits, IsBriefFor ds edit)
    {failure : Failure} :
    applyEdits ds edits = (later, some failure) ↔ StopsWith ds edits later failure := by
  by_cases hknown : ∀ edit ∈ edits, ∃ d, findLast? ds edit.1 = some d
  · rw [applyEdits_of_known (unknownNames_eq_nil_iff.mpr hknown)]
    exact applyInOrder_eq_some_iff hknown hnames hbrief
  · have hunknown : ∃ edit ∈ edits, findLast? ds edit.1 = none := by
      simpa [← Option.ne_none_iff_exists'] using hknown
    rw [applyEdits_of_unknown hunknown]
    constructor
    · intro h
      obtain ⟨rfl, hfailure⟩ := Prod.mk.inj h
      obtain rfl := Option.some.inj hfailure
      exact .unknown hunknown
    · intro h
      cases h with
      | unknown => rfl
      | refused hall => exact absurd hall hknown

/-! ## The whole request -/

/-- What has been set and written comes with an override for every parameter. -/
theorem exists_of_customize_eq_ok
    {source effective : List Char} {overrides : List Override}
    (hfound : extract source = .ok found) (hnames : (edits.map (·.1)).Nodup)
    (h : customize source edits = .ok (effective, overrides)) :
    ∃ edited, applyEdits found edits = (edited, none) ∧ SetsByName found edits edited ∧
      synthesize source edited = .ok effective ∧ overrides = edited.map overrideOf := by
  obtain ⟨found', edited, hfound', hset, hwritten, hoverrides⟩ := exists_of_customize h
  obtain rfl := Except.ok.inj (hfound.symm.trans hfound')
  obtain ⟨-, hrun⟩ := applyEdits_eq_none_iff.mp hset
  exact ⟨edited, hset, .of_applyInOrder hnames hrun, hwritten, (eq_map_overrideOf hoverrides).symm⟩

theorem exists_customize_iff
    {source : List Char} (hfound : extract source = .ok found)
    (hnames : (edits.map (·.1)).Nodup) (hbrief : ∀ edit ∈ edits, IsBriefFor found edit) :
    (∃ answer, customize source edits = .ok answer) ↔
      ∀ name raw, (name, raw) ∈ edits →
        ∃ d value, findLast? found name = some d ∧ coerce d.kind raw = .ok value := by
  rw [← exists_applyEdits_iff hnames]
  constructor
  · rintro ⟨⟨effective, overrides⟩, hanswer⟩
    obtain ⟨edited, hset, -⟩ := exists_of_customize_eq_ok hfound hnames hanswer
    exact ⟨edited, hset⟩
  · rintro ⟨edited, hset⟩
    obtain ⟨written, -, hanswer⟩ := exists_customize_eq_ok hfound hset hbrief
    exact ⟨_, hanswer⟩

/-- Requests with the same values in another order have the same result, or none both. -/
theorem toOption_customize_of_perm
    {source : List Char} (hfound : extract source = .ok found)
    (hnames : (edits.map (·.1)).Nodup) (hbrief : ∀ edit ∈ edits, IsBriefFor found edit)
    (hperm : others.Perm edits) :
    (customize source others).toOption = (customize source edits).toOption := by
  have hnames' : (others.map (·.1)).Nodup := (hperm.map _).nodup_iff.mpr hnames
  have hbrief' : ∀ edit ∈ others, IsBriefFor found edit :=
    fun edit hmem => hbrief edit (hperm.mem_iff.mp hmem)
  have hsame : (∃ answer, customize source others = .ok answer) ↔
      ∃ answer, customize source edits = .ok answer := by
    rw [exists_customize_iff hfound hnames' hbrief', exists_customize_iff hfound hnames hbrief]
    simp only [hperm.mem_iff]
  cases hanswer : customize source edits with
  | error failure =>
    cases hother : customize source others with
    | error cause => rfl
    | ok answer =>
      obtain ⟨answer', hanswer'⟩ := hsame.mp ⟨answer, hother⟩
      exact absurd (hanswer.symm.trans hanswer') nofun
  | ok answer =>
    obtain ⟨answer', hother⟩ := hsame.mpr ⟨answer, hanswer⟩
    obtain ⟨edited, -, hset, hwritten, hoverrides⟩ :=
      exists_of_customize_eq_ok hfound hnames hanswer
    obtain ⟨edited', -, hset', hwritten', hoverrides'⟩ :=
      exists_of_customize_eq_ok hfound hnames' hother
    obtain rfl := (hset.perm hperm).unique hset'
    have heffective := Except.ok.inj (hwritten.symm.trans hwritten')
    rw [hother]
    exact congrArg some (Prod.ext heffective.symm (hoverrides'.trans hoverrides.symm))

/-- Of values that are brief, every one has to be taken by the last parameter of its name; then all
are set there, and nowhere else, and the order of the values does not matter.  Otherwise it is
known which of them have been set. -/
theorem customize_sets_by_name
    {source : List Char} (hfound : extract source = .ok found)
    (hnames : (edits.map (·.1)).Nodup) (hbrief : ∀ edit ∈ edits, IsBriefFor found edit) :
    ((∃ answer, customize source edits = .ok answer) ↔
      ∀ name raw, (name, raw) ∈ edits →
        ∃ d value, findLast? found name = some d ∧ coerce d.kind raw = .ok value) ∧
    (∀ others : Edits, others.Perm edits →
      (customize source others).toOption = (customize source edits).toOption) ∧
    (∀ effective overrides, customize source edits = .ok (effective, overrides) →
      customize source [] = .ok (source, found.map overrideOf) ∧
      ∃ edited, applyEdits found edits = (edited, none) ∧ SetsByName found edits edited ∧
        synthesize source edited = .ok effective ∧ overrides = edited.map overrideOf) ∧
    ∀ later failure, applyEdits found edits = (later, some failure) ↔
      StopsWith found edits later failure := by
  refine ⟨exists_customize_iff hfound hnames hbrief, fun others hperm => ?_, ?_, ?_⟩
  · exact toOption_customize_of_perm hfound hnames hbrief hperm
  · intro effective overrides hanswer
    have hunset : applyEdits found [] = (found, none) := by
      simp [applyEdits, unknownNames, applyInOrder]
    exact ⟨customize_of_applyEdits_eq_self hfound hunset,
      exists_of_customize_eq_ok hfound hnames hanswer⟩
  · exact fun later failure => applyEdits_eq_some_iff hnames hbrief

/-- Of two parameters with one name the second one takes the value. -/
theorem customize_sets_by_name_of_width :
    ∃ found edited, extract "width = 1;\nwidth = 2;".toList = .ok found ∧
      ([("width", Value.int 7)].map (·.1)).Nodup ∧
      (∀ edit ∈ [("width", Value.int 7)], IsBriefFor found edit) ∧
      applyEdits found [("width", .int 7)] = (edited, none) ∧
      SetsByName found [("width", .int 7)] edited ∧
      synthesize "width = 1;\nwidth = 2;".toList edited = .ok "width = 1;\nwidth = 7;".toList ∧
      edited.map overrideOf = [⟨"width", .int 1, .number⟩, ⟨"width", .int 7, .number⟩] := by
  let first : Descriptor :=
    Assignment.descriptor ⟨"width", "1".toList, 8, 9, ""⟩ 0 "width = 1;".toList
      none .number (.int 1)
  let second : Descriptor :=
    Assignment.descriptor ⟨"width", "2".toList, 8, 9, ""⟩ 1 "width = 2;".toList
      none .number (.int 2)
  have hfound : extract "width = 1;\nwidth = 2;".toList = .ok [first, second] :=
    Failure.eq_ok_of_toOption (by decide +kernel)
  have hnames : ([("width", Value.int 7)].map (·.1)).Nodup := by decide
  have hkind : kindOf? [first, second] "width" = some .number := rfl
  have hbrief : ∀ edit ∈ [("width", Value.int 7)], IsBriefFor [first, second] edit := by
    rw [List.forall_mem_singleton, isBriefFor_iff hkind]
    exact (Value.isBrief_iff_of_ne_text (by simp)).mpr (by decide +kernel)
  have hanswer : customize "width = 1;\nwidth = 2;".toList [("width", .int 7)] =
      .ok ("width = 1;\nwidth = 7;".toList,
        [⟨"width", .int 1, .number⟩, ⟨"width", .int 7, .number⟩]) :=
    Failure.eq_ok_of_toOption (by decide +kernel)
  obtain ⟨-, -, hanswers, -⟩ := customize_sets_by_name hfound hnames hbrief
  obtain ⟨-, edited, hset, hbyname, hwritten, hoverrides⟩ := hanswers _ _ hanswer
  exact ⟨_, edited, hfound, hnames, hbrief, hset, hbyname, hwritten, hoverrides.symm⟩

end SolidWorkshop.Source
