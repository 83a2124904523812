import SolidWorkshop.Proofs.Source.Override

/-!
# Setting values by name

A value that is given for a name goes to the last parameter of that name and changes nothing of it
but its value.  So names and kinds stay what they were while values are set, and what becomes of
one value does not depend on those that were set for other names.
-/

namespace SolidWorkshop.Source

variable {ds ds' before after : List Descriptor} {d e : Descriptor} {name : String} {raw : Value}

/-! ## The last parameter of a name -/

theorem findLast?_eq_some_iff :
    findLast? ds name = some d ↔
      d.name = name ∧ ∃ before after, ds = before ++ d :: after ∧ ∀ e ∈ after, e.name ≠ name := by
  unfold findLast?
  rw [List.find?_eq_some_iff_append, beq_iff_eq]
  refine and_congr_right fun _ => ?_
  constructor
  · rintro ⟨later, earlier, hds, hlater⟩
    refine ⟨earlier.reverse, later.reverse, ?_, ?_⟩
    · rw [← List.reverse_reverse ds, hds]
      simp
    · intro e he
      simpa using hlater e (List.mem_reverse.mp he)
  · rintro ⟨before, after, rfl, hafter⟩
    refine ⟨after.reverse, before.reverse, by simp, ?_⟩
    intro e he
    simpa using hafter e (List.mem_reverse.mp he)

theorem findLast?_append_cons (before after : List Descriptor) (d : Descriptor) (name : String) :
    findLast? (before ++ d :: after) name =
      (findLast? after name).or (if d.name = name then some d else findLast? before name) := by
  unfold findLast?
  rw [List.reverse_append, List.reverse_cons, List.append_assoc, List.singleton_append,
    List.find?_append, List.find?_cons]
  by_cases h : d.name = name
  · simp [h]
  · simp [h, beq_false_of_ne h]

theorem mem_of_findLast?
    (h : findLast? ds name = some d) :
    d ∈ ds :=
  List.mem_reverse.mp (List.mem_of_find?_eq_some h)

/-- The last parameter of a name is the one that is changed. -/
theorem updateLast_append_cons
    (hname : d.name = name) (hafter : ∀ e ∈ after, e.name ≠ name) (e : Descriptor) :
    updateLast name e (before ++ d :: after) = before ++ e :: after := by
  have hlater : (after.reverse ++ d :: before.reverse).takeWhile (·.name != name) =
      after.reverse := by
    rw [List.takeWhile_append_of_pos, List.takeWhile_cons_of_neg]
    · simp
    · simp [hname]
    · intro e he
      simpa using hafter e (List.mem_reverse.mp he)
  have hplace : (before ++ d :: after).length - after.reverse.length - 1 = before.length := by
    simp only [List.length_append, List.length_cons, List.length_reverse]
    omega
  unfold updateLast
  rw [List.reverse_append, List.reverse_cons, List.append_assoc, List.singleton_append, hlater]
  dsimp only
  rw [hplace, List.set_append_right _ _ (Nat.le_refl _), Nat.sub_self, List.set_cons_zero]

/-! ## One value -/

/-- A value is set when it can be taken for the last parameter of its name. -/
theorem applyEdit_of_findLast?
    (hlast : findLast? ds name = some d) :
    applyEdit ds name raw =
      match coerce d.kind raw with
      | .ok value => .ok (updateLast name { d with value } ds)
      | .error cause =>
        if cause.area = .parameter then .error (.forParameter name cause) else .error cause := by
  unfold applyEdit Descriptor.set
  rw [hlast]
  dsimp only
  cases coerce d.kind raw with
  | ok value => rfl
  | error cause => rfl

theorem exists_of_applyEdit
    (h : applyEdit ds name raw = .ok ds') :
    ∃ d value, findLast? ds name = some d ∧ coerce d.kind raw = .ok value ∧
      ds' = updateLast name { d with value } ds := by
  cases hlast : findLast? ds name with
  | none => simp [applyEdit, hlast] at h
  | some d =>
    rw [applyEdit_of_findLast? hlast] at h
    split at h
    · next value hvalue => exact ⟨d, value, rfl, hvalue, (Except.ok.inj h).symm⟩
    · split_ifs at h

/-- A value that is set can be found under its name, and under no other one. -/
theorem findLast?_updateLast
    (hlast : findLast? ds name = some d) (he : e.name = name) (other : String) :
    findLast? (updateLast name e ds) other =
      if other = name then some e else findLast? ds other := by
  obtain ⟨hname, before, after, rfl, hafter⟩ := findLast?_eq_some_iff.mp hlast
  rw [updateLast_append_cons hname hafter, findLast?_append_cons, findLast?_append_cons, he, hname]
  by_cases hother : other = name
  · subst hother
    have hnone : findLast? after other = none := by
      simpa [findLast?] using hafter
    rw [hnone]
    simp
  · rw [if_neg (Ne.symm hother), if_neg (Ne.symm hother), if_neg hother]

/-- When a value is set, what is found under the other names is what it was. -/
theorem findLast?_of_applyEdit
    (h : applyEdit ds name raw = .ok ds') :
    ∃ d value, findLast? ds name = some d ∧ coerce d.kind raw = .ok value ∧
      ∀ other, findLast? ds' other =
        if other = name then some { d with value } else findLast? ds other := by
  obtain ⟨d, value, hlast, hvalue, rfl⟩ := exists_of_applyEdit h
  have hname : ({ d with value } : Descriptor).name = name := (findLast?_eq_some_iff.mp hlast).1
  exact ⟨d, value, hlast, hvalue, findLast?_updateLast hlast hname⟩

/-- A value that is there already changes nothing. -/
theorem applyEdit_eq_self
    (hlast : findLast? ds name = some d) (hvalue : coerce d.kind raw = .ok d.value) :
    applyEdit ds name raw = .ok ds := by
  rw [applyEdit_of_findLast? hlast, hvalue]
  obtain ⟨hname, before, after, rfl, hafter⟩ := findLast?_eq_some_iff.mp hlast
  exact congrArg Except.ok (updateLast_append_cons hname hafter d)

/-! ## Several values -/

theorem unknownNames_eq_nil_iff {edits : Edits} :
    unknownNames ds edits = [] ↔ ∀ edit ∈ edits, ∃ d, findLast? ds edit.1 = some d := by
  unfold unknownNames
  rw [← List.length_eq_zero_iff, List.length_mergeSort, List.length_eq_zero_iff,
    List.filter_eq_nil_iff]
  simp only [List.forall_mem_map, Option.isNone_iff_eq_none]
  exact forall₂_congr fun edit _ => Option.ne_none_iff_exists'

theorem applyInOrder_cons_of_ok
    {edits : Edits} (h : applyEdit ds name raw = .ok ds') :
    applyInOrder ds ((name, raw) :: edits) = applyInOrder ds' edits := by
  rw [applyInOrder, h]

/-- Several values are set when the first one is set and then the others are. -/
theorem exists_of_applyInOrder_cons
    {edits : Edits} {edited : List Descriptor}
    (h : applyInOrder ds ((name, raw) :: edits) = (edited, none)) :
    ∃ later, applyEdit ds name raw = .ok later ∧ applyInOrder later edits = (edited, none) := by
  rw [applyInOrder] at h
  split at h
  · next later hstep => exact ⟨later, hstep, h⟩
  · exact absurd (Prod.mk.inj h).2 (Option.some_ne_none _)

theorem mem_of_mem_updateLast
    (h : e ∈ updateLast name d ds) :
    e ∈ ds ∨ e = d :=
  List.mem_or_eq_of_mem_set h

/-! ## Overrides -/

/-- The override that a descriptor stands for. -/
def overrideOf (d : Descriptor) : Override :=
  ⟨d.name, d.value, d.kind⟩

theorem mapM_toOverride_of_isName
    (h : ∀ d ∈ ds, Override.isName d.name = true) :
    ds.mapM Descriptor.toOverride = .ok (ds.map overrideOf) := by
  induction ds with
  | nil => rfl
  | cons d ds ih =>
    obtain ⟨hd, hrest⟩ := List.forall_mem_cons.mp h
    have hfirst : d.toOverride = .ok (overrideOf d) := if_pos hd
    rw [List.mapM_cons, hfirst, ih hrest]
    rfl

theorem eq_map_overrideOf
    {overrides : List Override} (h : ds.mapM Descriptor.toOverride = .ok overrides) :
    ds.map overrideOf = overrides := by
  rw [← List.forall₂_eq_eq_eq, List.forall₂_map_left_iff]
  exact (forall₂_of_mapM h).imp fun d o hd => (eq_of_toOverride hd.2).symm

/-- Without its sigil every name of an assignment can be overridden. -/
theorem isName_of_mem_extract
    {source : List Char} {found : List Descriptor}
    (hfound : extract source = .ok found) (hd : d ∈ found) :
    Override.isName d.name = true := by
  obtain ⟨rawLine, a, line, title, hshape, hdescriptor⟩ := exists_assignment_of_mem_scan hfound hd
  obtain ⟨hspecial, kind, value, note, -, -, hnote⟩ := descriptorOf?_eq_some_iff.mp hdescriptor
  obtain ⟨p, hp, -, rfl, -⟩ := Shape.exists_layout_of_assignment hshape
  have hname : d.name = String.ofList p.name := by
    rw [annotate_frame hnote]
    rfl
  obtain ⟨mark, word, hparts, hmark, hne, hword⟩ := hp.name
  have hsigil : p.name.head? ≠ some sigil := by
    simpa [Assignment.isSpecial, Layout.assignment] using hspecial
  have hplain : p.name = word := by
    rcases hmark with rfl | rfl
    · exact hparts
    · exact absurd (by rw [hparts]; rfl) hsigil
  rw [hname, hplain, Override.isName]
  have hempty : (String.ofList word).isEmpty = false := by
    simpa using hne
  rw [hempty, String.toList_ofList]
  exact List.all_eq_true.mpr hword

/-- Setting values does not keep a parameter from being overridden. -/
theorem Edited.mapM_toOverride
    {source : List Char} {found edited : List Descriptor} (hfound : extract source = .ok found)
    (hedited : Edited found edited) :
    edited.mapM Descriptor.toOverride = .ok (edited.map overrideOf) := by
  refine mapM_toOverride_of_isName fun e he => ?_
  obtain ⟨d, hd, value, rfl, -⟩ := exists_of_mem_right hedited.forall₂_isEditOf he
  have hname := isName_of_mem_extract hfound hd
  exact hname

end SolidWorkshop.Source
