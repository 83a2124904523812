import Mathlib.Tactic.SplitIfs
import SolidWorkshop.Engine.Workspace
import SolidWorkshop.Proofs.Lookup
import SolidWorkshop.Proofs.Storage.Names

/-!
# What writing into a workspace leaves alone

A file that is written stands at its place, and directories stand above it; every other place is
as it was.  The files of a library stay below the directory of libraries.
-/

namespace SolidWorkshop.Engine

/-! ## The places that texts lead to -/

theorem place_eq_ok_iff
    {relative : String} {at_ : Place} :
    place relative = .ok at_ ↔
      Storage.components relative = at_ ∧ at_ ≠ [] ∧ ".." ∉ at_ := by
  unfold place
  dsimp only
  split_ifs with hrefused
  · refine iff_of_false nofun ?_
    rintro ⟨rfl, hne, hback⟩
    simp [hne, hback] at hrefused
  · rw [Except.ok.injEq, and_iff_left_of_imp]
    rintro rfl
    simpa using hrefused

/-- A text is refused when it has no names, or one that leads back. -/
theorem place_eq_error
    {relative : String} {failure : Failure} (h : place relative = .error failure) :
    failure = .outsideWorkspace relative ∧
      (Storage.components relative = [] ∨ ".." ∈ Storage.components relative) := by
  unfold place at h
  dsimp only at h
  split_ifs at h with hrefused
  exact ⟨(Except.error.inj h).symm, by simpa using hrefused⟩

/-- The names of a library's file are below the directory of libraries. -/
theorem components_libraryPath (library relative : String) :
    Storage.components (Workspace.libraryPath library relative) =
      libraryRoot :: (Storage.components library ++ Storage.components relative) := by
  have hroot : Storage.IsName libraryRoot :=
    ⟨by decide, by decide, by decide, by decide⟩
  rw [Workspace.libraryPath, Storage.components_append_slash, Storage.components_append_slash,
    hroot.components_eq, List.singleton_append, List.cons_append]

/-- A file of a library has its place below the directory of libraries. -/
theorem head?_of_place_libraryPath
    {library relative : String} {at_ : Place}
    (h : place (Workspace.libraryPath library relative) = .ok at_) :
    at_.head? = some libraryRoot := by
  obtain ⟨rfl, -⟩ := place_eq_ok_iff.mp h
  rw [components_libraryPath, List.head?_cons]

namespace Workspace

variable {w w' : Workspace} {at_ target : Place}

/-! ## Places that are left alone -/

theorem lookup_filter_self (entries : List (Place × Entry)) :
    (entries.filter fun e => e.1 != target).lookup target = none := by
  rw [List.lookup_eq_none_iff]
  intro e he
  simpa [bne_comm] using (List.mem_filter.mp he).2

theorem entry?_put_of_ne
    (hne : at_ ≠ target) (entry : Entry) :
    entry? (w.put target entry) at_ = w.entry? at_ := by
  unfold entry? put
  dsimp only
  rw [List.lookup_append, lookup_filter_of_ne _ hne, List.lookup_cons, beq_false_of_ne hne,
    List.lookup_nil, Option.or_none]

theorem entry?_put_self
    (hne : target ≠ []) (entry : Entry) :
    entry? (w.put target entry) target = some entry := by
  unfold entry? put
  dsimp only
  rw [if_neg (by simpa using hne), List.lookup_append, lookup_filter_self, List.lookup_cons,
    beq_self_eq_true, Option.none_or]

theorem entry?_makeDirectory_of_ne
    (hne : at_ ≠ target) :
    entry? (w.makeDirectory target) at_ = w.entry? at_ := by
  unfold makeDirectory
  split_ifs
  · rfl
  · exact entry?_put_of_ne hne _

theorem entry?_foldl_makeDirectory
    {places : List Place} (hnot : at_ ∉ places) :
    entry? (places.foldl makeDirectory w) at_ = w.entry? at_ := by
  induction places generalizing w with
  | nil => rfl
  | cons first rest ih =>
    rw [List.mem_cons, not_or] at hnot
    obtain ⟨hfirst, hrest⟩ := hnot
    rw [List.foldl_cons, ih hrest, entry?_makeDirectory_of_ne hfirst]

theorem ne_nil_of_mem_chain
    (h : at_ ∈ chain target) :
    at_ ≠ [] := by
  obtain ⟨k, hk, rfl⟩ := List.mem_map.mp h
  have hlength : 0 < target.length := by
    have := List.mem_range.mp hk
    omega
  simpa using List.ne_nil_of_length_pos hlength

theorem prefix_of_mem_chain
    (h : at_ ∈ chain target) :
    at_ <+: target := by
  obtain ⟨k, -, rfl⟩ := List.mem_map.mp h
  exact List.take_prefix _ _

/-- Making a directory touches the place and those above it. -/
theorem entry?_makeDirectories
    (haway : ¬at_ <+: target) (h : w.makeDirectories target = .ok w') :
    w'.entry? at_ = w.entry? at_ := by
  unfold makeDirectories at h
  split_ifs at h
  obtain rfl := Except.ok.inj h
  rw [entry?_foldl_makeDirectory fun hmem => haway (prefix_of_mem_chain hmem)]
  have hne : at_ ≠ [] := by
    rintro rfl
    exact haway List.nil_prefix
  unfold entry?
  rw [if_neg (by simpa using hne), if_neg (by simpa using hne)]

/-- Writing a file touches the place and those above it. -/
theorem entry?_write
    (haway : ¬at_ <+: target) (content : ByteArray) :
    entry? (w.write target content).1 at_ = w.entry? at_ := by
  unfold write
  cases hmake : w.makeDirectories target.dropLast with
  | error failure => rfl
  | ok made =>
    have hmade : made.entry? at_ = w.entry? at_ :=
      entry?_makeDirectories (fun h => haway (h.trans (List.dropLast_prefix target))) hmake
    dsimp only
    split_ifs
    · exact hmade
    · exact hmade
    · have hne : at_ ≠ target := by
        rintro rfl
        exact haway (List.prefix_refl at_)
      rw [entry?_put_of_ne hne, hmade]

theorem entry?_writeAt
    {relative : String} (content : ByteArray)
    (haway : ∀ target, place relative = .ok target → ¬at_ <+: target) :
    entry? (w.writeAt relative content).1 at_ = w.entry? at_ := by
  unfold writeAt
  cases hplace : place relative with
  | error failure => rfl
  | ok target => exact entry?_write (haway target hplace) content

/-! ## Staging a library -/

/-- What every file of a library keeps when it is written is kept by staging them. -/
theorem stageFrom_induction
    {motive : Workspace → Prop} {library : String} (h : motive w)
    (hwrite : ∀ (w : Workspace) relative content, motive w →
      motive (w.writeAt (libraryPath library relative) content).1)
    (count : Nat) (files : List (String × ByteArray)) :
    motive (w.stageFrom count library files).1 := by
  induction files generalizing w count with
  | nil => exact h
  | cons file files ih =>
    obtain ⟨relative, content⟩ := file
    have hwritten := hwrite w relative content h
    unfold stageFrom
    cases hresult : w.writeAt (libraryPath library relative) content with
    | mk later refusal =>
      rw [hresult] at hwritten
      cases refusal with
      | none => exact ih hwritten (count + 1)
      | some failure =>
        dsimp only
        split_ifs
        · exact ih hwritten count
        · exact hwritten

/-- A library leaves every place alone that is not below the directory of libraries. -/
theorem entry?_stageFrom
    {library : String} {files : List (String × ByteArray)} {count : Nat} (hne : at_ ≠ [])
    (hhead : at_.head? ≠ some libraryRoot) :
    entry? (w.stageFrom count library files).1 at_ = w.entry? at_ := by
  apply stageFrom_induction (motive := fun later => later.entry? at_ = w.entry? at_) rfl
  intro later relative content hlater
  rw [entry?_writeAt content, hlater]
  rintro target htarget ⟨rest, rfl⟩
  have hroot := head?_of_place_libraryPath htarget
  rw [List.head?_append_of_ne_nil _ hne] at hroot
  exact hhead hroot

end Workspace

end SolidWorkshop.Engine
