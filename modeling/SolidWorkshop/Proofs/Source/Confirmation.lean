import SolidWorkshop.Proofs.Lookup
import SolidWorkshop.Proofs.Source.Edits

/-!
# Confirming what was extracted

A form sends back the values of all parameters, also of those that nobody has touched.  Of several
parameters with one name it sends the value of the last one.  A value that has the kind of its
parameter is taken as it is, so such values change neither the text nor the overrides.  The value
of a literal that a range has made a number of need not have that kind: then it is refused, or it
is taken as another value.
-/

namespace SolidWorkshop

namespace Source

variable {found ds edited : List Descriptor} {name : String} {raw : Value}

/-! ## The values that are sent back -/

/-- The values of parameters by name, the last one of every name. -/
def confirming (found : List Descriptor) : Edits :=
  found.foldl (fun edits d => setEntry d.name d.value.toValue edits) []

theorem confirming_append_singleton (found : List Descriptor) (d : Descriptor) :
    confirming (found ++ [d]) = setEntry d.name d.value.toValue (confirming found) := by
  rw [confirming, List.foldl_append]
  rfl

theorem nodup_keys_confirming (found : List Descriptor) :
    ((confirming found).map (·.1)).Nodup := by
  induction found using List.reverseRecOn with
  | nil => exact List.nodup_nil
  | append_singleton found d ih =>
    rw [confirming_append_singleton]
    exact nodup_keys_setEntry ih d.name d.value.toValue

theorem lookup_confirming (found : List Descriptor) (name : String) :
    (confirming found).lookup name = (findLast? found name).map (·.value.toValue) := by
  induction found using List.reverseRecOn with
  | nil => rfl
  | append_singleton found d ih =>
    rw [confirming_append_singleton, findLast?_append_cons]
    by_cases hname : d.name = name
    · subst hname
      rw [lookup_setEntry_self, if_pos rfl]
      rfl
    · rw [lookup_setEntry_of_ne (Ne.symm hname), if_neg hname]
      exact ih

/-- For every name the value of the last parameter of that name is sent, and nothing else is. -/
theorem mem_confirming_iff :
    (name, raw) ∈ confirming found ↔
      ∃ d, findLast? found name = some d ∧ raw = d.value.toValue := by
  constructor
  · intro h
    have hlookup := lookup_eq_some_of_mem (nodup_keys_confirming found) h
    rw [lookup_confirming] at hlookup
    obtain ⟨d, hd, rfl⟩ := Option.map_eq_some_iff.mp hlookup
    exact ⟨d, hd, rfl⟩
  · rintro ⟨d, hd, rfl⟩
    refine mem_of_lookup ?_
    rw [lookup_confirming, hd]
    rfl

/-! ## Taking them -/

/-- Values that are there already change nothing, however many of them are set. -/
theorem applyInOrder_eq_self
    {edits : Edits}
    (h : ∀ name raw, (name, raw) ∈ edits →
      ∃ d, findLast? ds name = some d ∧ coerce d.kind raw = .ok d.value) :
    applyInOrder ds edits = (ds, none) := by
  induction edits with
  | nil => rfl
  | cons edit edits ih =>
    obtain ⟨name, raw⟩ := edit
    obtain ⟨d, hd, hvalue⟩ := h name raw List.mem_cons_self
    rw [applyInOrder_cons_of_ok (applyEdit_eq_self hd hvalue)]
    exact ih fun other value hmem => h other value (List.mem_cons_of_mem _ hmem)

/-- No value is sent back under an unknown name. -/
theorem applyEdits_confirming (found : List Descriptor) :
    applyEdits found (confirming found) = applyInOrder found (confirming found) := by
  have hknown : unknownNames found (confirming found) = [] := by
    rw [unknownNames_eq_nil_iff]
    rintro ⟨name, raw⟩ hmem
    obtain ⟨d, hd, -⟩ := mem_confirming_iff.mp hmem
    exact ⟨d, hd⟩
  rw [applyEdits, hknown]

theorem applyEdits_confirming_eq_self
    (h : ∀ name d, findLast? found name = some d → d.value.HasKind d.kind) :
    applyEdits found (confirming found) = (found, none) := by
  rw [applyEdits_confirming]
  refine applyInOrder_eq_self fun name raw hmem => ?_
  obtain ⟨d, hd, rfl⟩ := mem_confirming_iff.mp hmem
  exact ⟨d, hd, coerce_of_hasKind (h name d hd)⟩

/-- The last parameter of a name has a value of its kind when one has been set for it; otherwise
it is the one that it was. -/
theorem hasKind_or_eq_of_applyEdit
    {later : List Descriptor} {first : String} (h : applyEdit ds first raw = .ok later)
    {d : Descriptor} (hd : findLast? later name = some d) :
    d.value.HasKind d.kind ∨ name ≠ first ∧ findLast? ds name = some d := by
  obtain ⟨e, value, -, hvalue, hlater⟩ := findLast?_of_applyEdit h
  rw [hlater] at hd
  split_ifs at hd with hfirst
  · obtain rfl := Option.some.inj hd
    exact Or.inl (hasKind_of_coerce hvalue)
  · exact Or.inr ⟨hfirst, hd⟩

/-- Once values have been set, the last parameter of every name that was among them has a value of
its kind. -/
theorem hasKind_or_eq_of_applyInOrder
    {edits : Edits} (h : applyInOrder ds edits = (edited, none)) {d : Descriptor}
    (hd : findLast? edited name = some d) :
    d.value.HasKind d.kind ∨ name ∉ edits.map (·.1) ∧ findLast? ds name = some d := by
  induction edits generalizing ds with
  | nil =>
    obtain ⟨rfl, -⟩ := Prod.mk.inj h
    exact Or.inr ⟨List.not_mem_nil, hd⟩
  | cons edit edits ih =>
    obtain ⟨first, raw⟩ := edit
    obtain ⟨later, hstep, h⟩ := exists_of_applyInOrder_cons h
    rcases ih h with hkind | ⟨hrest, hlater⟩
    · exact Or.inl hkind
    · rcases hasKind_or_eq_of_applyEdit hstep hlater with hkind | ⟨hfirst, hbefore⟩
      · exact Or.inl hkind
      · refine Or.inr ⟨?_, hbefore⟩
        rw [List.map_cons, List.mem_cons, not_or]
        exact ⟨hfirst, hrest⟩

/-! ## Writing them -/

/-- Descriptors with unchanged values give the text back. -/
theorem foldlM_writeLine_eq_self
    {ls : List (List Char)} (h : ∀ d ∈ ds, StandsIn 0 ls d) :
    ds.foldlM writeLine ls = .ok ls := by
  induction ds with
  | nil => rfl
  | cons d ds ih =>
    obtain ⟨hd, hrest⟩ := List.forall_mem_cons.mp h
    obtain ⟨i, hline, hget, hunchanged, -⟩ := hd
    have hwrite := writeLine_eq_ok (by simpa using hline) hget (render_of_isUnchanged hunchanged)
    have hsame : ls.set i d.rawLine = ls := by
      obtain ⟨hi, hget⟩ := List.getElem?_eq_some_iff.mp hget
      rw [← hget, List.set_getElem_self]
    rw [List.foldlM_cons, hwrite, hsame]
    exact ih hrest

theorem synthesize_extracted
    {source : List Char} (hfound : extract source = .ok found) :
    synthesize source found = .ok source := by
  rw [synthesize, foldlM_writeLine_eq_self (extract_standsIn hfound).1]
  exact congrArg Except.ok (Text.unlines_lines source)

/-- If the values that are set leave the parameters as they are, the text stays as it is. -/
theorem customize_of_applyEdits_eq_self
    {source : List Char} (hfound : extract source = .ok found) {edits : Edits}
    (h : applyEdits found edits = (found, none)) :
    customize source edits = .ok (source, found.map overrideOf) := by
  refine Failure.bind_eq_ok_iff.mpr ⟨found, hfound, ?_⟩
  rw [h]
  dsimp only
  rw [synthesize_extracted hfound, Edited.mapM_toOverride hfound .refl]
  rfl

/-- Values that leave the overrides as they were leave the parameters as they were. -/
theorem eq_of_map_overrideOf
    (hedits : List.Forall₂ (fun d e => Descriptor.IsEditOf e d) found edited)
    (h : edited.map overrideOf = found.map overrideOf) :
    edited = found := by
  induction hedits with
  | nil => rfl
  | @cons d e found edited hedit _ ih =>
    rw [List.map_cons, List.map_cons] at h
    obtain ⟨hfirst, hrest⟩ := List.cons.inj h
    obtain ⟨value, rfl, -⟩ := hedit
    obtain rfl : value = d.value := congrArg Override.value hfirst
    rw [ih hrest]

/-! ## The whole text -/

/-- The values of the parameters come back as overrides of the same text.  Sending them back gives
this answer again exactly if the last parameter of every name has a value of its kind. -/
theorem customize_confirming_eq_iff
    {source : List Char} (hfound : extract source = .ok found) :
    ∃ overrides, customize source [] = .ok (source, overrides) ∧
      (customize source (confirming found) = .ok (source, overrides) ↔
        ∀ name d, findLast? found name = some d → d.value.HasKind d.kind) := by
  have hunset : applyEdits found [] = (found, none) := by
    simp [applyEdits, unknownNames, applyInOrder]
  refine ⟨found.map overrideOf, customize_of_applyEdits_eq_self hfound hunset, ?_, ?_⟩
  · intro h name d hd
    obtain ⟨found', edited, hfound', happly, -, hoverrides⟩ := exists_of_customize h
    obtain rfl : found = found' := Except.ok.inj (hfound.symm.trans hfound')
    have hedits := (edited_of_applyEdits happly).forall₂_isEditOf
    obtain rfl : edited = found := eq_of_map_overrideOf hedits (eq_map_overrideOf hoverrides)
    rw [applyEdits_confirming] at happly
    rcases hasKind_or_eq_of_applyInOrder happly hd with hkind | ⟨hunset, -⟩
    · exact hkind
    · exact absurd (List.mem_map_of_mem (mem_confirming_iff.mpr ⟨d, hd, rfl⟩)) hunset
  · intro h
    exact customize_of_applyEdits_eq_self hfound (applyEdits_confirming_eq_self h)

/-- Of two parameters with one name the last one is confirmed, whatever the first one is. -/
theorem customize_confirming_eq_iff_of_width :
    ∃ found overrides,
      extract "width = 1; // [0:10]\nwidth = \"2\";".toList = .ok found ∧
      confirming found = [("width", .text "2")] ∧
      customize "width = 1; // [0:10]\nwidth = \"2\";".toList [] =
        .ok ("width = 1; // [0:10]\nwidth = \"2\";".toList, overrides) ∧
      (customize "width = 1; // [0:10]\nwidth = \"2\";".toList (confirming found) =
          .ok ("width = 1; // [0:10]\nwidth = \"2\";".toList, overrides) ↔
        ∀ name d, findLast? found name = some d → d.value.HasKind d.kind) := by
  let number : Descriptor :=
    { Assignment.descriptor ⟨"width", "1".toList, 8, 9, "[0:10]"⟩ 0
        "width = 1; // [0:10]".toList none .number (.int 1) with
      min := some (.int 0), max := some (.int 10) }
  let text : Descriptor :=
    Assignment.descriptor ⟨"width", "\"2\"".toList, 8, 11, ""⟩ 1 "width = \"2\";".toList
      none .text (.text "2")
  have hfound : extract "width = 1; // [0:10]\nwidth = \"2\";".toList = .ok [number, text] :=
    Failure.eq_ok_of_toOption (by decide +kernel)
  obtain ⟨overrides, hunset, hiff⟩ := customize_confirming_eq_iff hfound
  exact ⟨[number, text], overrides, hfound, rfl, hunset, hiff⟩

/-- Not every text stays as it is when its own values are sent back. -/
theorem not_forall_customize_confirming :
    ¬∀ (source : List Char) (found : List Descriptor), extract source = .ok found →
      ∃ overrides, customize source [] = .ok (source, overrides) ∧
        customize source (confirming found) = .ok (source, overrides) := by
  intro hall
  let label : Descriptor :=
    { Assignment.descriptor ⟨"label", "\"abc\"".toList, 8, 13, "[0:10]"⟩ 0
        "label = \"abc\"; // [0:10]".toList none .text (.text "abc") with
      kind := .number, min := some (.int 0), max := some (.int 10) }
  have hfound : extract "label = \"abc\"; // [0:10]".toList = .ok [label] :=
    Failure.eq_ok_of_toOption (by decide +kernel)
  obtain ⟨overrides, -, hconfirmed⟩ := hall _ _ hfound
  have hrefused :
      (customize "label = \"abc\"; // [0:10]".toList (confirming [label])).toOption = none := by
    decide +kernel
  rw [hconfirmed] at hrefused
  contradiction

end Source

end SolidWorkshop
