import SolidWorkshop.Proofs.Compile.Isolation

/-!
# Staged files stay inside and are found again

The text of a place is refused, or it leads down from the directory of a workspace, whatever
slashes and points stand in it.  So a library is staged below the directory of libraries,
whatever it and its files are called, and on a disk nothing beside the workspace changes.  A file
is found under every spelling of its place; of several files that are spelled differently and
have one place the last one is found.
-/

namespace SolidWorkshop

namespace Engine

/-! ## The places that texts lead to -/

/-- A text leads from every directory down to a place, along names that something in a directory
can have; just the texts with these names lead there, and the text of the place is one. -/
structure LeadsDown (relative : String) (at_ : Place) : Prop where
  nonempty : at_ ≠ []
  names : ∀ name ∈ at_, Storage.IsName name
  extended : ∀ directory : Storage.Path,
    directory.join ⟨"", at_⟩ = ⟨directory.root, directory.names ++ at_⟩
  below : ∀ base directory : Storage.Path,
    base.resolve (directory.join ⟨"", at_⟩) = ⟨"/", (base.resolve directory).names ++ at_⟩
  own : place (Workspace.placeText at_) = .ok at_
  spelling : ∀ other,
    place other = .ok at_ ↔ Storage.components other = Storage.components relative

theorem leadsDown_of_place
    {relative : String} {at_ : Place} (h : place relative = .ok at_) :
    LeadsDown relative at_ := by
  obtain ⟨hcomponents, hne, hback⟩ := place_eq_ok_iff.mp h
  have hnames : ∀ name ∈ at_, Storage.IsName name := by
    intro name hname
    have haway : name ≠ ".." := by
      rintro rfl
      exact hback hname
    rw [← hcomponents] at hname
    exact Storage.isName_of_mem_components hname haway
  refine ⟨hne, hnames, fun directory => directory.join_names at_,
    Storage.Path.resolve_join_names hback,
    place_eq_ok_iff.mpr ⟨Storage.components_intercalate hnames, hne, hback⟩, fun other => ?_⟩
  rw [place_eq_ok_iff, hcomponents, and_iff_left ⟨hne, hback⟩]

example : (place "//libraries/./BOSL2//sub/.hidden/").toOption =
    some ["libraries", "BOSL2", "sub", ".hidden"] := by decide +kernel

/-- A place of a library's file is refused only if a name in it leads back. -/
theorem place_libraryPath_eq_ok
    {library relative : String}
    (hback : ".." ∉ Storage.components (Workspace.libraryPath library relative)) :
    place (Workspace.libraryPath library relative) =
      .ok (Storage.components (Workspace.libraryPath library relative)) := by
  refine place_eq_ok_iff.mpr ⟨rfl, ?_, hback⟩
  rw [components_libraryPath]
  exact List.cons_ne_nil _ _

namespace Workspace

variable {w w' : Workspace} {relative library : String} {content : ByteArray}
  {files : List (String × ByteArray)}

theorem hasZero_components
    (hzero : '\x00' ∉ relative.toList) :
    hasZero (Storage.components relative) = false := by
  refine List.any_eq_false.mpr fun name hname hin => hzero ?_
  exact Storage.mem_of_mem_components hname (by simpa using hin)

theorem zero_not_mem_libraryPath
    (hlibrary : '\x00' ∉ library.toList) (hrelative : '\x00' ∉ relative.toList) :
    '\x00' ∉ (libraryPath library relative).toList := by
  have hroot : '\x00' ∉ libraryRoot.toList := by decide
  simp [libraryPath, hroot, hlibrary, hrelative]

/-! ## What staging leaves alone -/

/-- Staging a library leaves all places alone that are not below the directory of libraries, and
this directory too if it is there. -/
structure StagesBelow (w : Workspace) (library : String) (files : List (String × ByteArray)) :
    Prop where
  elsewhere : ∀ at_, at_ ≠ [] → at_.head? ≠ some libraryRoot →
    entry? (w.stage library files).1 at_ = w.entry? at_
  source : entry? (w.stage library files).1 [inputFile] = w.entry? [inputFile]
  artifact : entry? (w.stage library files).1 [outputFile] = w.entry? [outputFile]
  below : w.isPresent = true → w.isDirectory [libraryRoot] = true →
    ∀ at_, entry? (w.stage library files).1 at_ ≠ w.entry? at_ →
      ∃ name names, at_ = libraryRoot :: name :: names

theorem stagesBelow (w : Workspace) (library : String) (files : List (String × ByteArray)) :
    StagesBelow w library files where
  elsewhere at_ hne hhead := entry?_stageFrom hne hhead
  source := entry?_stageFrom (List.cons_ne_nil _ _) (by decide)
  artifact := entry?_stageFrom (List.cons_ne_nil _ _) (by decide)
  below := by
    intro hpresent hlibraries at_ hchanged
    have hkept : ∀ directory, w.isDirectory directory = true →
        entry? (w.stage library files).1 directory = w.entry? directory := by
      intro directory hdirectory
      rw [isDirectory_iff.mp hdirectory]
      exact isDirectory_iff.mp (isDirectory_stageFrom hdirectory 0 library files)
    have hne : at_ ≠ [] := by
      rintro rfl
      exact hchanged (hkept [] (by rw [isDirectory_nil, hpresent]))
    by_cases hhead : at_.head? = some libraryRoot
    · obtain ⟨names, rfl⟩ := List.head?_eq_some_iff.mp hhead
      by_cases hnames : names = []
      · rw [hnames] at hchanged
        exact absurd (hkept [libraryRoot] hlibraries) hchanged
      · obtain ⟨name, rest, rfl⟩ := List.exists_cons_of_ne_nil hnames
        exact ⟨name, rest, rfl⟩
    · exact absurd (entry?_stageFrom hne hhead) hchanged

/-! ## What is found after staging -/

/-- A file that is not refused for anything else is refused just if a name in its place leads
back. -/
theorem isNone_refusal_iff
    (hzero : '\x00' ∉ (libraryPath library relative).toList) {refusal : Option Failure}
    (h : w.writeAt (libraryPath library relative) content = (w', refusal))
    (hrefusal : ∀ failure, refusal = some failure → failure.area = .value) :
    refusal.isNone = true ↔ ".." ∉ Storage.components (libraryPath library relative) := by
  unfold writeAt at h
  cases hplace : place (libraryPath library relative) with
  | error failure =>
    rw [hplace] at h
    obtain ⟨-, rfl⟩ := Prod.mk.inj h
    refine iff_of_false nofun fun hback => ?_
    exact absurd ((place_libraryPath_eq_ok hback).symm.trans hplace) nofun
  | ok at_ =>
    obtain ⟨rfl, -, hback⟩ := place_eq_ok_iff.mp hplace
    rw [hplace] at h
    refine iff_of_true ?_ hback
    cases refusal with
    | none => rfl
    | some failure =>
      have hfound := (read?_write_of_refused h []).2 (hrefusal failure rfl)
      exact absurd hfound (Bool.eq_false_iff.mp (hasZero_components hzero))

/-- The files that are counted are those with a place in the workspace. -/
theorem count_stageFrom
    (hlibrary : '\x00' ∉ library.toList) (hfiles : ∀ file ∈ files, '\x00' ∉ file.1.toList)
    {count n : Nat} (h : w.stageFrom count library files = (w', .ok n)) :
    n = count +
      files.countP fun file => ".." ∉ Storage.components (libraryPath library file.1) := by
  induction files generalizing w count with
  | nil =>
    obtain ⟨-, hn⟩ := Prod.mk.inj h
    exact (Except.ok.inj hn).symm
  | cons file files ih =>
    obtain ⟨hfile, hrest⟩ := List.forall_mem_cons.mp hfiles
    obtain ⟨later, refusal, hwrite, hrefusal, hlater⟩ := stageFrom_cons_eq_ok h
    have hnone := isNone_refusal_iff (zero_not_mem_libraryPath hlibrary hfile) hwrite hrefusal
    rw [ih hrest hlater]
    by_cases hback : ".." ∈ Storage.components (libraryPath library file.1)
    · rw [if_neg (by simpa [hback] using hnone), List.countP_cons_of_neg (by simpa using hback)]
    · rw [if_pos (hnone.mpr hback), List.countP_cons_of_pos (by simpa using hback)]
      omega

/-- Of the files that lead to a place the last one is there. -/
theorem exists_last_of_leadsTo
    {file : String × ByteArray} {at_ : Place} (hfile : file ∈ files)
    (hleads : leadsTo (libraryPath library file.1) at_ = true) :
    ∃ before last after, files = before ++ last :: after ∧
      leadsTo (libraryPath library last.1) at_ = true ∧
      (∀ later ∈ after, leadsTo (libraryPath library later.1) at_ = false) ∧
      stagedAt library files at_ = some last.2 := by
  have hthere : (files.reverse.find? fun file =>
      leadsTo (libraryPath library file.1) at_).isSome = true :=
    List.find?_isSome.mpr ⟨file, List.mem_reverse.mpr hfile, hleads⟩
  obtain ⟨last, hlast⟩ := Option.isSome_iff_exists.mp hthere
  obtain ⟨hleadsLast, after, before, hfiles, hafter⟩ := List.find?_eq_some_iff_append.mp hlast
  refine ⟨before.reverse, last, after.reverse, ?_, hleadsLast, ?_, ?_⟩
  · rw [← List.reverse_reverse files, hfiles, List.reverse_append, List.reverse_cons,
      List.append_assoc, List.singleton_append]
  · intro later hlater
    simpa using hafter later (List.mem_reverse.mp hlater)
  · rw [stagedAt, hlast]
    rfl

/-- All files of a library that have a place in the workspace are counted, and under the name of
each of them the content of the last file with this place is read. -/
structure ReadsBack (library : String) (files : List (String × ByteArray)) (w : Workspace)
    (count : Nat) : Prop where
  counted : count =
    files.countP fun file => ".." ∉ Storage.components (libraryPath library file.1)
  found : ∀ file ∈ files, ".." ∉ Storage.components (libraryPath library file.1) →
    ∃ before last after, files = before ++ last :: after ∧
      Storage.components (libraryPath library last.1) =
        Storage.components (libraryPath library file.1) ∧
      (∀ later ∈ after, Storage.components (libraryPath library later.1) ≠
        Storage.components (libraryPath library file.1)) ∧
      w.readAt (libraryPath library file.1) = .ok (some last.2)

theorem readsBack_of_stage
    (hlibrary : '\x00' ∉ library.toList) (hfiles : ∀ file ∈ files, '\x00' ∉ file.1.toList)
    {n : Nat} (h : w.stage library files = (w', .ok n)) :
    ReadsBack library files w' n where
  counted := by
    rw [count_stageFrom hlibrary hfiles h, Nat.zero_add]
  found := by
    intro file hfile hback
    have hplace := place_libraryPath_eq_ok hback
    have hzero := hasZero_components (zero_not_mem_libraryPath hlibrary (hfiles file hfile))
    have hleads : ∀ other : String × ByteArray,
        leadsTo (libraryPath library other.1)
            (Storage.components (libraryPath library file.1)) = true ↔
          Storage.components (libraryPath library other.1) =
            Storage.components (libraryPath library file.1) := by
      intro other
      rw [leadsTo_iff, (leadsDown_of_place hplace).spelling, and_iff_right hzero]
    obtain ⟨before, last, after, hsplit, hlast, hafter, hstaged⟩ :=
      exists_last_of_leadsTo hfile ((hleads file).mpr rfl)
    refine ⟨before, last, after, hsplit, (hleads last).mp hlast, ?_, ?_⟩
    · intro later hlater hsame
      exact absurd ((hleads later).mpr hsame) (Bool.eq_false_iff.mp (hafter later hlater))
    · rw [readAt, hplace]
      have hread := read?_stageFrom h (Storage.components (libraryPath library file.1))
      rw [hstaged, Option.some_or] at hread
      exact read_eq_of_read? hread

end Workspace

end Engine

namespace Compile

open Engine

/-- Staged through a directory of a disk, a library comes to what it comes to in a workspace of
its own, and beside the directory the disk is as it was. -/
structure StagesInside (dir : String) (disk w : Workspace) (library : String)
    (files : List (String × ByteArray)) : Prop where
  result : ((Access.onDisk dir).stageFrom 0 disk library files).2 = (w.stage library files).2
  holds : ((Access.onDisk dir).stageFrom 0 disk library files).1.Holds dir
    (w.stage library files).1
  beside : Workspace.SameBeside dir disk
    ((Access.onDisk dir).stageFrom 0 disk library files).1

theorem stagesInside
    {dir : String} {disk w : Workspace} (hzero : '\x00' ∉ dir.toList) (hdir : dir ≠ "..")
    (hholds : disk.Holds dir w) (library : String) (files : List (String × ByteArray)) :
    StagesInside dir disk w library files := by
  have hrefines := onDisk_refines_own hzero hdir disk
  obtain ⟨hresult, hafter, hbeside⟩ :=
    hrefines.stageFrom ⟨hholds, .refl dir disk⟩ 0 library files
  rw [Access.own_stageFrom] at hresult hafter
  exact ⟨hresult, hafter, hbeside⟩

/-- Every text is refused as a place or leads down to one, and just the texts that spell its names
lead to the same place.  Hence a library is staged below the directory of libraries, away from
source, artifact and all other workspaces; and if nothing is in the way, the files with a place in
the workspace are counted and read back, the last one of those with the same place. -/
theorem staged_files_stay_inside_and_read_back :
    (∀ relative names,
      Storage.Spells relative names ↔ Storage.components relative = names) ∧
    (∀ relative,
      (place relative = .error (.outsideWorkspace relative) ∧
        (Storage.components relative = [] ∨ ".." ∈ Storage.components relative)) ∨
      ∃ at_, place relative = .ok at_ ∧ LeadsDown relative at_) ∧
    (∀ w library files, Workspace.StagesBelow w library files) ∧
    (∀ dir (disk w : Workspace) library files, '\x00' ∉ dir.toList → dir ≠ ".." →
      disk.Holds dir w → StagesInside dir disk w library files) ∧
    ∀ (w w' : Workspace) library files n, '\x00' ∉ library.toList →
      (∀ file ∈ files, '\x00' ∉ file.1.toList) → w.stage library files = (w', .ok n) →
      Workspace.ReadsBack library files w' n := by
  refine ⟨fun _ _ => Storage.spells_iff, fun relative => ?_, Workspace.stagesBelow, ?_, ?_⟩
  · cases hplace : place relative with
    | error failure =>
      obtain ⟨rfl, hnames⟩ := place_eq_error hplace
      exact Or.inl ⟨rfl, hnames⟩
    | ok at_ => exact Or.inr ⟨at_, rfl, leadsDown_of_place hplace⟩
  · intro dir disk w library files hzero hdir hholds
    exact stagesInside hzero hdir hholds library files
  · intro w w' library files n hlibrary hfiles h
    exact Workspace.readsBack_of_stage hlibrary hfiles h

/-- Files of a library: two spellings of one place, and one that leads back. -/
def respelled : List (String × ByteArray) :=
  [("std.scad", "a".toUTF8), ("sub/dir/x.scad", "b".toUTF8), ("../escape.scad", "c".toUTF8),
    (".//std.scad", "d".toUTF8)]

theorem staged_files_stay_inside_and_read_back_of_respelled :
    StagesInside "scad_1" (Workspace.removed.handOut "scad_1") .fresh "BOSL2" respelled ∧
      ∃ w, Workspace.fresh.stage "BOSL2" respelled = (w, .ok 3) ∧
        Workspace.ReadsBack "BOSL2" respelled w 3 := by
  obtain ⟨-, -, -, hinside, hreadsBack⟩ := staged_files_stay_inside_and_read_back
  have hholds : (Workspace.removed.handOut "scad_1").Holds "scad_1" .fresh :=
    Workspace.holds_handOut (by decide +kernel)
  have hcount : (Workspace.fresh.stage "BOSL2" respelled).2 = .ok 3 :=
    Failure.eq_ok_of_toOption (by decide +kernel)
  have hstage := Prod.ext rfl hcount
  have hzero : ∀ file ∈ respelled, '\x00' ∉ file.1.toList := by decide +kernel
  exact ⟨hinside _ _ _ _ _ (by decide) (by decide) hholds,
    _, hstage, hreadsBack _ _ _ _ _ (by decide) hzero hstage⟩

end Compile

end SolidWorkshop
