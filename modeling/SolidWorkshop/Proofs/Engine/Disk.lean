import SolidWorkshop.Proofs.Engine.Workspace

/-!
# The disk that workspaces share

A workspace is a directory of a disk on which other workspaces stand beside it.  What is done in a
workspace is done on the disk, at places that start with the name of its directory.  Seen from
this directory it is what would be done in a file area of one's own, and seen from every other
directory nothing has been done.
-/

namespace SolidWorkshop.Engine

open Text

namespace Workspace

variable {disk w : Workspace} {dir first : String} {at_ target : Place} {entry : Entry}

/-! ## A directory of a disk -/

/-- The place in a directory of a place below it. -/
def inside? (dir : String) : Place → Option Place
  | [] => none
  | first :: rest => if first = dir ∧ rest ≠ [] then some rest else none

/-- The entries below a directory, with their places in it. -/
def entriesBelow (disk : Workspace) (dir : String) : List (Place × Entry) :=
  disk.entries.filterMap fun e => (inside? dir e.1).map (·, e.2)

/-- A directory as a workspace of its own. -/
def below (disk : Workspace) (dir : String) : Workspace :=
  ⟨disk.isDirectory [dir], disk.entriesBelow dir⟩

/-- The place on the disk that a place in a directory leads to: its names are followed one after
another, and double points lead back. -/
def located (dir : String) (at_ : Place) : Place :=
  (dir :: at_).foldl Storage.Path.follow []

theorem inside?_eq_some_iff :
    inside? dir target = some at_ ↔ at_ ≠ [] ∧ target = dir :: at_ := by
  cases target with
  | nil => simp [inside?]
  | cons first rest =>
    simp only [inside?, Option.ite_none_right_eq_some, Option.some.injEq, List.cons.injEq]
    constructor
    · rintro ⟨⟨rfl, hne⟩, rfl⟩
      exact ⟨hne, rfl, rfl⟩
    · rintro ⟨hne, rfl, rfl⟩
      exact ⟨⟨rfl, hne⟩, rfl⟩

/-- Without double points a place in a directory stays in it. -/
theorem located_eq_cons
    (hdir : dir ≠ "..") (hback : ".." ∉ at_) :
    located dir at_ = dir :: at_ :=
  Storage.Path.foldl_follow (by simpa [hdir.symm] using hback) []

/-! ## What is done on the disk -/

/-- Hand out a workspace under a name. -/
def handOut (disk : Workspace) (dir : String) : Workspace :=
  ({ disk with isPresent := true }.put [dir] .directory).put [dir, libraryRoot] .directory

/-- Write a file at a place in a directory, given by its text. -/
def writeIn (disk : Workspace) (dir relative : String) (content : ByteArray) :
    Workspace × Option Failure :=
  match place relative with
  | .error failure => (disk, some failure)
  | .ok at_ => disk.write (located dir at_) content

/-- The disk without a directory and all that stands below it. -/
def cleared (disk : Workspace) (dir : String) : Workspace :=
  { disk with entries := disk.entries.filter fun e => e.1.head? != some dir }

/-- The entries of a workspace, and its directory, as they stand on the disk. -/
def grafted (dir : String) (w : Workspace) : List (Place × Entry) :=
  (if w.isPresent then [([dir], .directory)] else []) ++ w.entries.map fun e => (dir :: e.1, e.2)

/-- Leave a workspace in the place of a directory and of all that stands below it. -/
def leaveIn (disk : Workspace) (dir : String) (w : Workspace) : Workspace :=
  { disk with entries := (disk.cleared dir).entries ++ grafted dir w }

/-- Nothing stands under a name, nor below it. -/
def isFree (disk : Workspace) (dir : String) : Bool :=
  disk.entries.all fun e => e.1.head? != some dir

/-! ## Seen from the directory -/

/-- On the disk stands, under a name, what stands in a workspace. -/
structure Holds (disk : Workspace) (dir : String) (w : Workspace) : Prop where
  directory : disk.entry? [dir] = if w.isPresent then some .directory else none
  entries : disk.entriesBelow dir = w.entries

/-- Under every name but one, the same stands on two disks. -/
def SameBeside (dir : String) (disk disk' : Workspace) : Prop :=
  ∀ other, other ≠ dir →
    disk'.entry? [other] = disk.entry? [other] ∧
      disk'.entriesBelow other = disk.entriesBelow other

theorem SameBeside.refl (dir : String) (disk : Workspace) : SameBeside dir disk disk :=
  fun _ _ => ⟨rfl, rfl⟩

theorem SameBeside.trans
    {disk' disk'' : Workspace} (h : SameBeside dir disk disk') (h' : SameBeside dir disk' disk'') :
    SameBeside dir disk disk'' := by
  intro other hother
  obtain ⟨hentry, hbelow⟩ := h other hother
  obtain ⟨hentry', hbelow'⟩ := h' other hother
  exact ⟨hentry'.trans hentry, hbelow'.trans hbelow⟩

theorem SameBeside.holds
    {disk' : Workspace} (h : SameBeside dir disk disk') {other : String} (hother : other ≠ dir)
    (hholds : disk.Holds other w) :
    disk'.Holds other w :=
  ⟨(h other hother).1.trans hholds.directory, (h other hother).2.trans hholds.entries⟩

theorem lookup_entriesBelow
    (disk : Workspace) (hne : at_ ≠ []) :
    (disk.entriesBelow dir).lookup at_ = disk.entries.lookup (dir :: at_) := by
  unfold entriesBelow
  induction disk.entries with
  | nil => rfl
  | cons e entries ih =>
    obtain ⟨target, entry⟩ := e
    rw [List.lookup_cons]
    cases hinside : inside? dir target with
    | none =>
      have haway : dir :: at_ ≠ target := by
        rintro rfl
        exact absurd (hinside.symm.trans (inside?_eq_some_iff.mpr ⟨hne, rfl⟩)) nofun
      rw [List.filterMap_cons_none (by simp [hinside]), beq_false_of_ne haway]
      exact ih
    | some found =>
      obtain ⟨-, rfl⟩ := inside?_eq_some_iff.mp hinside
      rw [List.filterMap_cons_some (by simp [hinside]; rfl), List.lookup_cons]
      by_cases hsame : at_ = found
      · simp [hsame]
      · simp [beq_false_of_ne hsame, ih]

namespace Holds

theorem below_eq
    (h : disk.Holds dir w) :
    disk.below dir = w := by
  obtain ⟨isPresent, entries⟩ := w
  unfold below isDirectory
  rw [h.directory, h.entries]
  cases isPresent with
  | _ => rfl

/-- Every place in the workspace is a place on the disk. -/
theorem entry?_cons
    (h : disk.Holds dir w) (at_ : Place) :
    disk.entry? (dir :: at_) = w.entry? at_ := by
  cases at_ with
  | nil => exact h.directory
  | cons name names =>
    have hlookup : (disk.entriesBelow dir).lookup (name :: names) = _ :=
      lookup_entriesBelow disk (List.cons_ne_nil name names)
    rw [h.entries] at hlookup
    exact hlookup.symm

theorem isFile_cons
    (h : disk.Holds dir w) (at_ : Place) :
    disk.isFile (dir :: at_) = w.isFile at_ := by
  rw [isFile, isFile, h.entry?_cons]

theorem isDirectory_cons
    (h : disk.Holds dir w) (at_ : Place) :
    disk.isDirectory (dir :: at_) = w.isDirectory at_ := by
  rw [isDirectory, isDirectory, h.entry?_cons]

theorem read?_cons
    (h : disk.Holds dir w) (at_ : Place) :
    disk.read? (dir :: at_) = w.read? at_ := by
  rw [read?, read?, h.entry?_cons]

end Holds

/-! ## One entry -/

theorem entriesBelow_put_of_inside?
    (h : inside? dir target = none) (disk : Workspace) (entry : Entry) :
    (disk.put target entry).entriesBelow dir = disk.entriesBelow dir := by
  unfold entriesBelow put
  dsimp only
  rw [List.filterMap_append, List.filterMap_filter]
  simp only [List.filterMap_cons, h, Option.map_none, List.filterMap_nil, List.append_nil]
  refine List.filterMap_congr fun e _ => ?_
  by_cases he : e.1 = target
  · simp [he, h]
  · simp [he]

theorem entriesBelow_put_cons
    (hne : at_ ≠ []) (disk : Workspace) (entry : Entry) :
    (disk.put (dir :: at_) entry).entriesBelow dir =
      (disk.entriesBelow dir).filter (fun e => e.1 != at_) ++ [(at_, entry)] := by
  have hinside : inside? dir (dir :: at_) = some at_ := inside?_eq_some_iff.mpr ⟨hne, rfl⟩
  unfold entriesBelow put
  dsimp only
  rw [List.filterMap_append, List.filterMap_filter, List.filter_filterMap]
  simp only [List.filterMap_cons, hinside, Option.map_some, List.filterMap_nil]
  congr 1
  refine List.filterMap_congr fun e _ => ?_
  cases he : inside? dir e.1 with
  | none => simp
  | some found =>
    obtain ⟨-, htarget⟩ := inside?_eq_some_iff.mp he
    rw [htarget]
    by_cases hsame : found = at_
    · simp [hsame, Option.filter]
    · simp [hsame, Option.filter]

theorem Holds.put_cons
    (h : disk.Holds dir w) (hne : at_ ≠ []) (entry : Entry) :
    (disk.put (dir :: at_) entry).Holds dir (w.put at_ entry) where
  directory := by
    rw [entry?_put_of_ne (by simpa using hne.symm)]
    exact h.directory
  entries := by
    rw [entriesBelow_put_cons hne, h.entries]
    rfl

theorem Holds.put_directory
    (h : disk.Holds dir w) :
    (disk.put [dir] .directory).Holds dir { w with isPresent := true } where
  directory := entry?_put_self (List.cons_ne_nil dir []) .directory
  entries := by
    rw [entriesBelow_put_of_inside? (by simp [inside?]), h.entries]

theorem sameBeside_put (disk : Workspace) (dir : String) (at_ : Place) (entry : Entry) :
    SameBeside dir disk (disk.put (dir :: at_) entry) := by
  intro other hother
  constructor
  · exact entry?_put_of_ne (by simp [hother]) entry
  · refine entriesBelow_put_of_inside? ?_ disk entry
    simp [inside?, hother.symm]

/-! ## Directories and files -/

theorem chain_cons (name : String) (at_ : Place) :
    chain (name :: at_) = [name] :: (chain at_).map (name :: ·) := by
  simp [chain, List.range_succ_eq_map, Function.comp_def]

theorem Holds.makeDirectory_cons
    (h : disk.Holds dir w) (hne : at_ ≠ []) :
    (disk.makeDirectory (dir :: at_)).Holds dir (w.makeDirectory at_) := by
  unfold makeDirectory
  rw [h.isDirectory_cons]
  split_ifs
  · exact h
  · exact h.put_cons hne .directory

/-- A workspace whose directory is made is there. -/
theorem Holds.makeDirectory_singleton
    (h : disk.Holds dir w) :
    (disk.makeDirectory [dir]).Holds dir { w with isPresent := true } := by
  obtain ⟨isPresent, entries⟩ := w
  unfold makeDirectory
  rw [h.isDirectory_cons]
  cases isPresent with
  | true => exact h
  | false => exact h.put_directory

theorem sameBeside_makeDirectory (disk : Workspace) (dir : String) (at_ : Place) :
    SameBeside dir disk (disk.makeDirectory (dir :: at_)) := by
  unfold makeDirectory
  split_ifs
  · exact .refl dir disk
  · exact sameBeside_put disk dir at_ .directory

theorem Holds.foldl_makeDirectory
    {places : List Place} (h : disk.Holds dir w) (hne : ∀ at_ ∈ places, at_ ≠ []) :
    ((places.map (dir :: ·)).foldl makeDirectory disk).Holds dir
      (places.foldl makeDirectory w) := by
  induction places generalizing disk w with
  | nil => exact h
  | cons at_ places ih =>
    obtain ⟨hfirst, hrest⟩ := List.forall_mem_cons.mp hne
    exact ih (h.makeDirectory_cons hfirst) hrest

theorem sameBeside_foldl_makeDirectory (disk : Workspace) (dir : String) (places : List Place) :
    SameBeside dir disk ((places.map (dir :: ·)).foldl makeDirectory disk) := by
  induction places generalizing disk with
  | nil => exact .refl dir disk
  | cons at_ places ih => exact (sameBeside_makeDirectory disk dir at_).trans (ih _)

theorem hasZero_cons
    (hzero : '\x00' ∉ dir.toList) (at_ : Place) :
    hasZero (dir :: at_) = hasZero at_ := by
  simp [hasZero, hzero]

/-- No file stands in the way on the disk if none does in the workspace. -/
theorem Holds.any_isFile_chain_cons
    (h : disk.Holds dir w) (at_ : Place) :
    (chain (dir :: at_).dropLast).any disk.isFile = (chain at_.dropLast).any w.isFile := by
  have hdirectory : disk.isFile [dir] = false := by
    rw [h.isFile_cons]
    unfold isFile entry?
    cases w.isPresent with
    | _ => rfl
  cases at_ with
  | nil => rfl
  | cons name names =>
    rw [List.dropLast_cons_of_ne_nil (List.cons_ne_nil name names), chain_cons, List.any_cons,
      hdirectory, Bool.false_or, List.any_map]
    exact congrArg _ (funext fun at_ => h.isFile_cons at_)

/-- Directories are made on the disk as they are in the workspace. -/
theorem Holds.makeDirectories_cons
    (h : disk.Holds dir w) (hzero : '\x00' ∉ dir.toList) (at_ : Place) :
    (∃ failure, disk.makeDirectories (dir :: at_) = .error failure ∧
      w.makeDirectories at_ = .error failure) ∨
    ∃ disk' w', disk.makeDirectories (dir :: at_) = .ok disk' ∧ w.makeDirectories at_ = .ok w' ∧
      disk'.Holds dir w' ∧ SameBeside dir disk disk' := by
  unfold makeDirectories
  rw [hasZero_cons hzero, h.any_isFile_chain_cons, h.isFile_cons]
  split_ifs
  · exact Or.inl ⟨_, rfl, rfl⟩
  · exact Or.inl ⟨_, rfl, rfl⟩
  · exact Or.inl ⟨_, rfl, rfl⟩
  · have hthere : Holds { disk with isPresent := true } dir w := ⟨h.directory, h.entries⟩
    refine Or.inr ⟨_, _, rfl, rfl, ?_, ?_⟩
    · rw [chain_cons]
      exact hthere.makeDirectory_singleton.foldl_makeDirectory fun _ => ne_nil_of_mem_chain
    · have hsame : SameBeside dir disk { disk with isPresent := true } :=
        fun _ _ => ⟨rfl, rfl⟩
      rw [chain_cons]
      exact (hsame.trans (sameBeside_makeDirectory _ dir [])).trans
        (sameBeside_foldl_makeDirectory _ dir (chain at_))

/-- What has been done on a disk is what would have been done in a workspace, and it has the same
end. -/
structure Follows (dir : String) (disk : Workspace) (done own : Workspace × Option Failure) :
    Prop where
  refusal : done.2 = own.2
  holds : done.1.Holds dir own.1
  beside : SameBeside dir disk done.1

theorem Holds.write_cons
    (h : disk.Holds dir w) (hzero : '\x00' ∉ dir.toList) (hne : at_ ≠ []) (content : ByteArray) :
    Follows dir disk (disk.write (dir :: at_) content) (w.write at_ content) := by
  unfold write
  rw [List.dropLast_cons_of_ne_nil hne]
  rcases h.makeDirectories_cons hzero at_.dropLast with
    ⟨failure, hdisk, hown⟩ | ⟨disk', w', hdisk, hown, hholds, hbeside⟩
  · rw [hdisk, hown]
    exact ⟨rfl, h, .refl dir disk⟩
  · rw [hdisk, hown]
    dsimp only
    rw [hasZero_cons hzero, hholds.isDirectory_cons]
    split_ifs
    · exact ⟨rfl, hholds, hbeside⟩
    · exact ⟨rfl, hholds, hbeside⟩
    · exact ⟨rfl, hholds.put_cons hne _, hbeside.trans (sameBeside_put disk' dir at_ _)⟩

/-- A file given by its text is written in the directory: a text that would lead out of it is
refused. -/
theorem Holds.writeIn
    (h : disk.Holds dir w) (hzero : '\x00' ∉ dir.toList) (hdir : dir ≠ "..") (relative : String)
    (content : ByteArray) :
    Follows dir disk (disk.writeIn dir relative content) (w.writeAt relative content) := by
  unfold Workspace.writeIn writeAt
  cases hplace : place relative with
  | error failure => exact ⟨rfl, h, .refl dir disk⟩
  | ok at_ =>
    obtain ⟨-, hne, hback⟩ := place_eq_ok_iff.mp hplace
    dsimp only
    rw [located_eq_cons hdir hback]
    exact h.write_cons hzero hne content

/-! ## A whole directory -/

theorem isFree_iff :
    disk.isFree dir = true ↔ ∀ e ∈ disk.entries, e.1.head? ≠ some dir := by
  simp [isFree]

/-- Under a free name nothing is kept. -/
theorem holds_removed
    (hfree : disk.isFree dir = true) :
    disk.Holds dir removed where
  directory := by
    refine List.lookup_eq_none_iff.mpr fun e he => ?_
    have haway : [dir] ≠ e.1 := fun heq => isFree_iff.mp hfree e he (by rw [← heq]; rfl)
    simpa using haway
  entries := by
    refine List.filterMap_eq_nil_iff.mpr fun e he => ?_
    cases hinside : inside? dir e.1 with
    | none => rfl
    | some at_ =>
      obtain ⟨-, htarget⟩ := inside?_eq_some_iff.mp hinside
      exact absurd (by rw [htarget]; rfl) (isFree_iff.mp hfree e he)

theorem holds_handOut
    (hfree : disk.isFree dir = true) :
    (disk.handOut dir).Holds dir fresh := by
  have hthere : Holds { disk with isPresent := true } dir removed :=
    ⟨(holds_removed hfree).directory, (holds_removed hfree).entries⟩
  exact hthere.put_directory.put_cons (List.cons_ne_nil libraryRoot []) .directory

theorem sameBeside_handOut (disk : Workspace) (dir : String) :
    SameBeside dir disk (disk.handOut dir) := by
  have hthere : SameBeside dir disk { disk with isPresent := true } := fun _ _ => ⟨rfl, rfl⟩
  exact (hthere.trans (sameBeside_put _ dir [] .directory)).trans
    (sameBeside_put _ dir [libraryRoot] .directory)

theorem isFree_cleared (disk : Workspace) (dir : String) :
    (disk.cleared dir).isFree dir = true := by
  refine isFree_iff.mpr fun e he => ?_
  simpa using (List.mem_filter.mp he).2

theorem lookup_filter_head?
    (hne : first ≠ dir) (entries : List (Place × Entry)) (rest : Place) :
    (entries.filter fun e => e.1.head? != some dir).lookup (first :: rest) =
      entries.lookup (first :: rest) := by
  induction entries with
  | nil => rfl
  | cons e entries ih =>
    obtain ⟨target, entry⟩ := e
    by_cases htarget : target.head? = some dir
    · have haway : first :: rest ≠ target := by
        rintro rfl
        exact hne (Option.some.inj htarget)
      rw [List.filter_cons_of_neg (by simpa using htarget), List.lookup_cons,
        beq_false_of_ne haway, ih]
    · rw [List.filter_cons_of_pos (by simpa using htarget), List.lookup_cons, List.lookup_cons, ih]

theorem sameBeside_cleared (disk : Workspace) (dir : String) :
    SameBeside dir disk (disk.cleared dir) := by
  intro other hother
  constructor
  · exact lookup_filter_head? hother disk.entries []
  · unfold cleared entriesBelow
    dsimp only
    rw [List.filterMap_filter]
    refine List.filterMap_congr fun e _ => ?_
    by_cases htarget : e.1.head? = some dir
    · obtain ⟨rest, hrest⟩ := List.head?_eq_some_iff.mp htarget
      simp [hrest, inside?, hother.symm]
    · simp [htarget]

theorem head?_of_mem_grafted
    {e : Place × Entry} (he : e ∈ grafted dir w) :
    e.1.head? = some dir := by
  unfold grafted at he
  rcases List.mem_append.mp he with he | he
  · split_ifs at he
    · obtain rfl := List.mem_singleton.mp he
      rfl
    · contradiction
  · obtain ⟨inner, -, rfl⟩ := List.mem_map.mp he
    rfl

theorem sameBeside_leaveIn (disk : Workspace) (dir : String) (w : Workspace) :
    SameBeside dir disk (disk.leaveIn dir w) := by
  refine (sameBeside_cleared disk dir).trans fun other hother => ⟨?_, ?_⟩
  · have hnone : (grafted dir w).lookup [other] = none := by
      refine List.lookup_eq_none_iff.mpr fun e he => ?_
      have haway : [other] ≠ e.1 := fun heq => by
        have hhead := head?_of_mem_grafted he
        rw [← heq] at hhead
        exact hother (Option.some.inj hhead)
      simpa using haway
    unfold leaveIn entry?
    dsimp only
    rw [List.lookup_append, hnone, Option.or_none]
    rfl
  · have hnone : (grafted dir w).filterMap (fun e => (inside? other e.1).map (·, e.2)) = [] := by
      refine List.filterMap_eq_nil_iff.mpr fun e he => ?_
      obtain ⟨rest, hrest⟩ := List.head?_eq_some_iff.mp (head?_of_mem_grafted he)
      simp [hrest, inside?, hother.symm]
    unfold leaveIn entriesBelow
    dsimp only
    rw [List.filterMap_append, hnone, List.append_nil]

theorem holds_leaveIn
    (disk : Workspace) (dir : String) (hplaces : ∀ e ∈ w.entries, e.1 ≠ []) :
    (disk.leaveIn dir w).Holds dir w := by
  obtain ⟨hdirectory, hentries⟩ := holds_removed (isFree_cleared disk dir)
  constructor
  · have hinner : (w.entries.map fun e => (dir :: e.1, e.2)).lookup [dir] = none := by
      refine List.lookup_eq_none_iff.mpr fun e he => ?_
      obtain ⟨inner, hinner, rfl⟩ := List.mem_map.mp he
      simpa using (hplaces inner hinner).symm
    have hcleared : (disk.cleared dir).entries.lookup [dir] = none := hdirectory
    change ((disk.cleared dir).entries ++ grafted dir w).lookup [dir] = _
    rw [List.lookup_append, hcleared, Option.none_or, grafted, List.lookup_append, hinner,
      Option.or_none]
    split_ifs
    · simp
    · rfl
  · have hcleared : (disk.cleared dir).entries.filterMap
        (fun e => (inside? dir e.1).map (·, e.2)) = [] := hentries
    have hinner : (w.entries.map fun e => (dir :: e.1, e.2)).filterMap
        (fun e => (inside? dir e.1).map (·, e.2)) = w.entries := by
      rw [List.filterMap_map]
      refine (List.filterMap_congr fun e he => ?_).trans List.filterMap_some
      have hinside : inside? dir (dir :: e.1) = some e.1 :=
        inside?_eq_some_iff.mpr ⟨hplaces e he, rfl⟩
      simp [hinside]
    have hdirectory : (if w.isPresent then [([dir], Entry.directory)] else []).filterMap
        (fun e => (inside? dir e.1).map (·, e.2)) = [] := by
      split_ifs
      · simp [inside?]
      · rfl
    unfold leaveIn entriesBelow grafted
    dsimp only
    rw [List.filterMap_append, List.filterMap_append, hcleared, hdirectory, hinner]
    rfl

end Workspace

end SolidWorkshop.Engine
