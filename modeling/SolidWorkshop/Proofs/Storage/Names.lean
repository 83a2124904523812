import SolidWorkshop.Proofs.Text.Cutting
import SolidWorkshop.Storage.Path

/-!
# The names of a path

A text with a slash in it spells the names in front of the slash and then the names behind it.
Together with the texts that hold no slash this says what names every text spells, and they are
the names that are read.  Names that do not lead back are followed down, to a place below the
directory that they are followed from.
-/

namespace SolidWorkshop.Storage

open Text

/-! ## The names of a text -/

/-- A name that something in a directory can have. -/
structure IsName (name : String) : Prop where
  ne_empty : name ≠ ""
  ne_here : name ≠ "."
  ne_back : name ≠ ".."
  no_slash : '/' ∉ name.toList

/-- A text spells a row of names. -/
inductive Spells : String → List String → Prop
  | empty : Spells "" []
  | here : Spells "." []
  | back : Spells ".." [".."]
  | name {name : String} (h : IsName name) : Spells name [name]
  | slash {s t : String} {front rest : List String} (hs : Spells s front) (ht : Spells t rest) :
      Spells (s ++ "/" ++ t) (front ++ rest)

theorem components_append_slash (s t : String) :
    components (s ++ "/" ++ t) = components s ++ components t := by
  have hpieces : splitOn '/' (s ++ "/" ++ t).toList =
      splitOn '/' s.toList ++ splitOn '/' t.toList := by
    rw [splitOn_eq_list_splitOn, splitOn_eq_list_splitOn, splitOn_eq_list_splitOn,
      String.toList_append, String.toList_append, List.append_assoc]
    exact List.splitOn_append_cons_self s.toList t.toList
  rw [components, hpieces, List.map_append, List.filter_append]
  rfl

theorem IsName.components_eq
    {name : String} (h : IsName name) :
    components name = [name] := by
  rw [components, splitOn_eq_singleton h.no_slash, List.map_singleton, String.ofList_toList,
    List.filter_cons_of_pos (by simp [h.ne_empty, h.ne_here]), List.filter_nil]

theorem Spells.components_eq
    {s : String} {names : List String} (h : Spells s names) :
    components s = names := by
  induction h with
  | empty => decide
  | here => decide
  | back => decide
  | name hname => exact hname.components_eq
  | slash _ _ ihs iht => rw [components_append_slash, ihs, iht]

/-- A text without a slash spells one name or none. -/
theorem exists_spells_of_no_slash
    {piece : String} (hfree : '/' ∉ piece.toList) :
    ∃ names, Spells piece names := by
  by_cases hempty : piece = ""
  · exact ⟨[], hempty ▸ .empty⟩
  by_cases hhere : piece = "."
  · exact ⟨[], hhere ▸ .here⟩
  by_cases hback : piece = ".."
  · exact ⟨[".."], hback ▸ .back⟩
  exact ⟨[piece], .name ⟨hempty, hhere, hback, hfree⟩⟩

theorem exists_spells_intercalate
    {pieces : List String} (hfree : ∀ piece ∈ pieces, '/' ∉ piece.toList) :
    ∃ names, Spells ("/".intercalate pieces) names := by
  induction pieces with
  | nil => exact ⟨[], .empty⟩
  | cons piece pieces ih =>
    obtain ⟨hpiece, hpieces⟩ := List.forall_mem_cons.mp hfree
    obtain ⟨front, hfront⟩ := exists_spells_of_no_slash hpiece
    by_cases hlast : pieces = []
    · rw [hlast, String.intercalate_singleton]
      exact ⟨front, hfront⟩
    · obtain ⟨rest, hrest⟩ := ih hpieces
      rw [String.intercalate_cons_of_ne_nil hlast]
      exact ⟨front ++ rest, .slash hfront hrest⟩

/-- The names of a text are those that it spells. -/
theorem spells_iff
    {s : String} {names : List String} :
    Spells s names ↔ components s = names := by
  refine ⟨Spells.components_eq, ?_⟩
  rintro rfl
  have hpieces : "/".intercalate ((splitOn '/' s.toList).map String.ofList) = s := by
    rw [← String.toList_inj, String.toList_intercalate, List.map_map]
    simpa [joinWith] using joinWith_splitOn '/' s.toList
  have hfree : ∀ piece ∈ (splitOn '/' s.toList).map String.ofList, '/' ∉ piece.toList := by
    intro piece hpiece
    obtain ⟨text, htext, rfl⟩ := List.mem_map.mp hpiece
    rw [String.toList_ofList]
    exact not_mem_of_mem_splitOn htext
  obtain ⟨names, hspells⟩ := exists_spells_intercalate hfree
  rw [hpieces] at hspells
  rwa [hspells.components_eq]

/-- A name that does not lead back is one that something in a directory can have. -/
theorem isName_of_mem_components
    {s name : String} (hname : name ∈ components s) (hback : name ≠ "..") :
    IsName name := by
  obtain ⟨hpiece, hkept⟩ := List.mem_filter.mp hname
  obtain ⟨piece, hmem, rfl⟩ := List.mem_map.mp hpiece
  rw [Bool.and_eq_true, bne_iff_ne, bne_iff_ne] at hkept
  refine ⟨hkept.1, hkept.2, hback, ?_⟩
  rw [String.toList_ofList]
  exact not_mem_of_mem_splitOn hmem

theorem mem_of_mem_components
    {s name : String} {c : Char} (hname : name ∈ components s) (hc : c ∈ name.toList) :
    c ∈ s.toList := by
  obtain ⟨piece, hmem, rfl⟩ := List.mem_map.mp (List.mem_of_mem_filter hname)
  rw [String.toList_ofList] at hc
  exact mem_of_mem_splitOn hmem hc

/-- Names are found again in the text that they make. -/
theorem components_intercalate
    {names : List String} (hnames : ∀ name ∈ names, IsName name) :
    components ("/".intercalate names) = names := by
  induction names with
  | nil => rfl
  | cons name names ih =>
    obtain ⟨hname, hrest⟩ := List.forall_mem_cons.mp hnames
    by_cases hlast : names = []
    · rw [hlast, String.intercalate_singleton, hname.components_eq]
    · rw [String.intercalate_cons_of_ne_nil hlast, components_append_slash, hname.components_eq,
        ih hrest]
      rfl

/-! ## Names that are followed -/

namespace Path

theorem foldl_follow
    {names : List String} (hback : ".." ∉ names) (done : List String) :
    names.foldl follow done = done ++ names := by
  induction names generalizing done with
  | nil => exact (List.append_nil done).symm
  | cons name rest ih =>
    rw [List.mem_cons, not_or] at hback
    rw [List.foldl_cons, ih hback.2, follow, if_neg (Ne.symm hback.1), List.append_assoc,
      List.singleton_append]

theorem join_names (path : Path) (names : List String) :
    path.join ⟨"", names⟩ = ⟨path.root, path.names ++ names⟩ := by
  simp [join, isAbsolute]

/-- Names that do not lead back lead down from where a path leads. -/
theorem resolve_join_names
    {names : List String} (hback : ".." ∉ names) (base path : Path) :
    base.resolve (path.join ⟨"", names⟩) = ⟨"/", (base.resolve path).names ++ names⟩ := by
  have hjoin : (base.join ⟨path.root, path.names ++ names⟩).names =
      (base.join path).names ++ names := by
    by_cases habsolute : path.root.isEmpty = true
    · simp [join, isAbsolute, habsolute]
    · simp [join, isAbsolute, habsolute]
  rw [join_names, resolve, hjoin, List.foldl_append, foldl_follow hback]
  rfl

end Path

end SolidWorkshop.Storage
