import Mathlib.Data.List.Nodup
import SolidWorkshop.Proofs.Source.Writing

/-!
# Writing into another text

Parameters that were read from one text may be written into another one, all of them or some, in
any order.  A parameter is stale there when its line is not the one that it was read from.  No two
parameters of a text stand on one line, so what is written for one of them neither makes nor
mends a stale one: a stale parameter is always found out, and otherwise the order does not matter.
-/

namespace SolidWorkshop.Source

variable {ls written : List (List Char)} {ds selection others found edited : List Descriptor}
  {source text line : List Char} {d e : Descriptor} {i : Nat}

/-! ## Stale parameters -/

/-- The line of the parameter is past the last line, or another one than it was read from. -/
def IsStale (ls : List (List Char)) (d : Descriptor) : Prop :=
  (ls.length : Int) ≤ d.line ∨
    ∃ (i : Nat) (line : List Char), d.line = i ∧ ls[i]? = some line ∧ line ≠ d.rawLine

theorem not_isStale_iff
    (hline : d.line = i) :
    ¬IsStale ls d ↔ ls[i]? = some d.rawLine := by
  constructor
  · intro hfresh
    rw [IsStale, not_or] at hfresh
    obtain ⟨hshort, hsame⟩ := hfresh
    have hi : i < ls.length := by omega
    rw [List.getElem?_eq_getElem hi]
    by_contra hother
    exact hsame ⟨i, ls[i], hline, List.getElem?_eq_getElem hi, fun heq => hother (heq ▸ rfl)⟩
  · rintro hget (hpast | ⟨j, line, hj, hline', hne⟩)
    · obtain ⟨hi, -⟩ := List.getElem?_eq_some_iff.mp hget
      omega
    · obtain rfl : i = j := by omega
      exact hne (Option.some.inj (hline'.symm.trans hget))

theorem writeLine_of_isStale
    (hline : d.line = i) (hstale : IsStale ls d) :
    writeLine ls d = .error (.stale d.name d.line) := by
  unfold writeLine
  rcases hstale with hpast | ⟨j, line, hj, hget, hne⟩
  · rw [if_pos hpast]
  · obtain ⟨hj', -⟩ := List.getElem?_eq_some_iff.mp hget
    have hother : ls[j]? ≠ some d.rawLine := by
      rw [hget]
      exact fun heq => hne (Option.some.inj heq)
    rw [if_neg (by omega), hj, place?_natCast hj']
    dsimp only
    rw [if_neg hother]

/-- What is written on one line changes nothing for a parameter on another one. -/
theorem isStale_set_iff
    {j : Nat} (hj : e.line = j) (hne : i ≠ j) :
    IsStale (ls.set i line) e ↔ IsStale ls e := by
  rw [← not_iff_not, not_isStale_iff hj, not_isStale_iff hj, List.getElem?_set_ne hne]

/-! ## A selection of parameters -/

/-- Parameters of a text: each of them stands on some line, no two of them on the same one, and
all of their lines can be rendered. -/
structure Selected (selection : List Descriptor) : Prop where
  placed : ∀ d ∈ selection, ∃ i : Nat, d.line = i
  distinct : selection.Pairwise fun d e => d.line ≠ e.line
  rendered : ∀ d ∈ selection, ∃ line, d.render = .ok line

/-- A line number belongs to one parameter of a text. -/
theorem Edited.eq_of_line
    (hfound : extract source = .ok found) (hedited : Edited found edited) (hd : d ∈ edited)
    (he : e ∈ edited) (hline : d.line = e.line) :
    d = e := by
  have hnodup : (edited.map (·.line)).Nodup :=
    List.pairwise_map.mpr ((hedited.pairwise_line hfound).imp fun h => Int.ne_of_lt h)
  exact List.inj_on_of_nodup_map hnodup hd he hline

/-- Parameters of one text are a selection when none of them is taken twice. -/
theorem Edited.selected
    (hfound : extract source = .ok found) (hedited : Edited found edited)
    (hmem : ∀ d ∈ selection, d ∈ edited) (hnodup : selection.Nodup)
    (hrender : ∀ d ∈ selection, ∃ line, d.render = .ok line) :
    Selected selection := by
  refine ⟨fun d hd => ?_, ?_, hrender⟩
  · obtain ⟨i, hline, -⟩ := hedited.mem_standsIn hfound (hmem d hd)
    exact ⟨i, hline⟩
  · refine hnodup.pairwise_of_forall_ne fun d hd e he hne hline => ?_
    exact hne (hedited.eq_of_line hfound (hmem d hd) (hmem e he) hline)

theorem Selected.perm
    (h : Selected selection) (hperm : others.Perm selection) :
    Selected others where
  placed := fun d hd => h.placed d (hperm.mem_iff.mp hd)
  distinct := (hperm.pairwise_iff fun hne => hne.symm).mpr h.distinct
  rendered := fun d hd => h.rendered d (hperm.mem_iff.mp hd)

/-- The work ends at a stale parameter, if there is one.  The line that is written for another one
leaves it as stale as it was. -/
theorem Selected.exists_foldlM_eq_error
    (h : Selected ds) (hstale : ∃ d ∈ ds, IsStale ls d) :
    ∃ d ∈ ds, IsStale ls d ∧ ds.foldlM writeLine ls = .error (.stale d.name d.line) := by
  induction ds generalizing ls with
  | nil =>
    obtain ⟨d, hd, -⟩ := hstale
    contradiction
  | cons d ds ih =>
    obtain ⟨⟨i, hline⟩, hplaced⟩ := List.forall_mem_cons.mp h.placed
    obtain ⟨hfirst, hdistinct⟩ := List.pairwise_cons.mp h.distinct
    obtain ⟨⟨line, hrender⟩, hrendered⟩ := List.forall_mem_cons.mp h.rendered
    by_cases hd : IsStale ls d
    · refine ⟨d, List.mem_cons_self, hd, ?_⟩
      rw [List.foldlM_cons, writeLine_of_isStale hline hd]
      rfl
    · have hother : ∀ e ∈ ds, IsStale (ls.set i line) e ↔ IsStale ls e := by
        intro e he
        obtain ⟨j, hj⟩ := hplaced e he
        refine isStale_set_iff hj ?_
        rintro rfl
        exact hfirst e he (hline.trans hj.symm)
      have hlater : ∃ e ∈ ds, IsStale (ls.set i line) e := by
        obtain ⟨e, he, hstale⟩ := hstale
        rcases List.mem_cons.mp he with rfl | he
        · contradiction
        · exact ⟨e, he, (hother e he).mpr hstale⟩
      obtain ⟨e, he, hstale, hfold⟩ := ih ⟨hplaced, hdistinct, hrendered⟩ hlater
      refine ⟨e, List.mem_cons_of_mem d he, (hother e he).mp hstale, ?_⟩
      rw [List.foldlM_cons, writeLine_eq_ok hline ((not_isStale_iff hline).mp hd) hrender]
      exact hfold

/-! ## What is written -/

/-- The lines of parameters have been replaced by what they are rendered to, and no other ones. -/
structure IsRendered (ls : List (List Char)) (ds : List Descriptor)
    (written : List (List Char)) : Prop where
  length : written.length = ls.length
  untouched : ∀ i : Nat, (∀ d ∈ ds, d.line ≠ i) → written[i]? = ls[i]?
  replaced : ∀ d ∈ ds, ∀ i : Nat, d.line = i →
    ∃ line, d.render = .ok line ∧ written[i]? = some line

/-- The lines and the parameters decide what is written, not the order. -/
theorem IsRendered.unique
    {written' : List (List Char)} (h : IsRendered ls ds written)
    (h' : IsRendered ls others written') (hperm : others.Perm ds) :
    written' = written := by
  refine List.ext_getElem? fun i => ?_
  by_cases hany : ∃ d ∈ ds, d.line = i
  · obtain ⟨d, hd, hline⟩ := hany
    obtain ⟨line, hrender, hget⟩ := h.replaced d hd i hline
    obtain ⟨line', hrender', hget'⟩ := h'.replaced d (hperm.mem_iff.mpr hd) i hline
    rw [hget, hget', Except.ok.inj (hrender.symm.trans hrender')]
  · push Not at hany
    rw [h.untouched i hany, h'.untouched i fun d hd => hany d (hperm.mem_iff.mp hd)]

theorem Selected.exists_synthesize_eq_ok
    (h : Selected selection) (hfresh : ∀ d ∈ selection, ¬IsStale (Text.lines text) d) :
    ∃ written, synthesize text selection = .ok (Text.unlines written) ∧
      IsRendered (Text.lines text) selection written := by
  have hstand : ∀ d ∈ selection, ∃ i : Nat, d.line = i ∧
      (Text.lines text)[i]? = some d.rawLine := by
    intro d hd
    obtain ⟨i, hline⟩ := h.placed d hd
    exact ⟨i, hline, (not_isStale_iff hline).mp (hfresh d hd)⟩
  obtain ⟨written, hwritten, hlength, huntouched, hreplaced⟩ :=
    exists_synthesize_of_standing h.distinct hstand h.rendered
  exact ⟨written, hwritten, hlength, huntouched, hreplaced⟩

/-- A selection is stale exactly if one of its parameters is. -/
theorem Selected.synthesize_eq_stale_iff
    (h : Selected selection) :
    (∃ name place, synthesize text selection = .error (.stale name place)) ↔
      ∃ d ∈ selection, IsStale (Text.lines text) d := by
  constructor
  · rintro ⟨name, place, herror⟩
    by_contra hfresh
    push Not at hfresh
    obtain ⟨written, hwritten, -⟩ := h.exists_synthesize_eq_ok hfresh
    exact absurd (herror.symm.trans hwritten) nofun
  · intro hstale
    obtain ⟨d, -, -, hfold⟩ := h.exists_foldlM_eq_error hstale
    refine ⟨d.name, d.line, ?_⟩
    rw [synthesize, hfold]
    rfl

/-- In another order the same is written, or nothing is. -/
theorem Selected.toOption_synthesize_of_perm
    (h : Selected selection) (hperm : others.Perm selection) :
    (synthesize text others).toOption = (synthesize text selection).toOption := by
  by_cases hstale : ∃ d ∈ selection, IsStale (Text.lines text) d
  · have hothers : ∃ d ∈ others, IsStale (Text.lines text) d := by
      simpa only [hperm.mem_iff] using hstale
    obtain ⟨name, place, herror⟩ := h.synthesize_eq_stale_iff.mpr hstale
    obtain ⟨name', place', herror'⟩ := (h.perm hperm).synthesize_eq_stale_iff.mpr hothers
    rw [herror, herror']
    rfl
  · push Not at hstale
    obtain ⟨written, hwritten, hrendered⟩ := h.exists_synthesize_eq_ok hstale
    obtain ⟨written', hwritten', hrendered'⟩ :=
      (h.perm hperm).exists_synthesize_eq_ok fun d hd => hstale d (hperm.mem_iff.mp hd)
    rw [hwritten, hwritten', hrendered.unique hrendered' hperm]

/-- Edited parameters of one text are written into another one unless one of them is stale there.
Then their lines are rendered and no other line is changed, whatever the order is. -/
theorem synthesize_selection
    (hfound : extract source = .ok found) (hedited : Edited found edited)
    (hmem : ∀ d ∈ selection, d ∈ edited) (hnodup : selection.Nodup)
    (hrender : ∀ d ∈ selection, ∃ line, d.render = .ok line) (text : List Char) :
    ((∃ name place, synthesize text selection = .error (.stale name place)) ↔
      ∃ d ∈ selection, IsStale (Text.lines text) d) ∧
    ((∀ d ∈ selection, ¬IsStale (Text.lines text) d) →
      ∃ written, synthesize text selection = .ok (Text.unlines written) ∧
        IsRendered (Text.lines text) selection written) ∧
    ∀ others : List Descriptor, others.Perm selection →
      (synthesize text others).toOption = (synthesize text selection).toOption := by
  have hselected := hedited.selected hfound hmem hnodup hrender
  exact ⟨hselected.synthesize_eq_stale_iff, hselected.exists_synthesize_eq_ok,
    fun others hperm => hselected.toOption_synthesize_of_perm hperm⟩

/-- Two parameters are written, the second one first, into a text with one line more.  In a text
with a line in front of theirs both of them are stale. -/
theorem synthesize_selection_of_width :
    ∃ found edited selection, extract "width = 1;\nlabel = \"a\";".toList = .ok found ∧
      Edited found edited ∧ selection = edited.reverse ∧ (∀ d ∈ selection, d ∈ edited) ∧
      selection.Nodup ∧ (∀ d ∈ selection, ∃ line, d.render = .ok line) ∧
      (∃ written,
        synthesize "width = 1;\nlabel = \"a\";\ncube(width);".toList selection =
          .ok (Text.unlines written) ∧
        IsRendered ["width = 1;".toList, "label = \"a\";".toList, "cube(width);".toList] selection
          written) ∧
      ∃ name place, synthesize "// mm\nwidth = 1;\nlabel = \"a\";".toList selection =
        .error (.stale name place) := by
  let width : Descriptor :=
    Assignment.descriptor ⟨"width", "1".toList, 8, 9, ""⟩ 0 "width = 1;".toList
      none .number (.int 1)
  let label : Descriptor :=
    Assignment.descriptor ⟨"label", "\"a\"".toList, 8, 11, ""⟩ 1 "label = \"a\";".toList
      none .text (.text "a")
  let wider : Descriptor := { width with value := .int 7 }
  have hfound : extract "width = 1;\nlabel = \"a\";".toList = .ok [width, label] :=
    Failure.eq_ok_of_toOption (by decide +kernel)
  have hedited : Edited [width, label] [wider, label] :=
    .single ⟨0, width, .int 7, wider, rfl, rfl, rfl⟩
  have hmem : ∀ d ∈ [label, wider], d ∈ [wider, label] := by simp
  have hnodup : [label, wider].Nodup := by decide +kernel
  have hwider : wider.render = .ok "width = 7;".toList :=
    Failure.eq_ok_of_toOption (by decide +kernel)
  have hlabel : label.render = .ok "label = \"a\";".toList :=
    Failure.eq_ok_of_toOption (by decide +kernel)
  have hrender : ∀ d ∈ [label, wider], ∃ line, Descriptor.render d = .ok line :=
    List.forall_mem_cons.mpr ⟨⟨_, hlabel⟩, List.forall_mem_singleton.mpr ⟨_, hwider⟩⟩
  have hlonger : Text.lines "width = 1;\nlabel = \"a\";\ncube(width);".toList =
      ["width = 1;".toList, "label = \"a\";".toList, "cube(width);".toList] := by
    decide +kernel
  obtain ⟨-, hwritten, -⟩ := synthesize_selection hfound hedited hmem hnodup hrender
    "width = 1;\nlabel = \"a\";\ncube(width);".toList
  obtain ⟨hstale, -⟩ := synthesize_selection hfound hedited hmem hnodup hrender
    "// mm\nwidth = 1;\nlabel = \"a\";".toList
  rw [hlonger] at hwritten
  refine ⟨_, _, _, hfound, hedited, rfl, hmem, hnodup, hrender, hwritten ?_, hstale.mpr ?_⟩
  · refine List.forall_mem_cons.mpr ⟨?_, List.forall_mem_singleton.mpr ?_⟩
    · exact (not_isStale_iff (i := 1) rfl).mpr rfl
    · exact (not_isStale_iff (i := 0) rfl).mpr rfl
  · exact ⟨label, List.mem_cons_self,
      Or.inr ⟨1, "width = 1;".toList, rfl, by decide +kernel, by decide +kernel⟩⟩

end SolidWorkshop.Source
