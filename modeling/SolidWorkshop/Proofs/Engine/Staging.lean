import SolidWorkshop.Compile.Stage
import SolidWorkshop.Proofs.Engine.Workspace

/-!
# What a prepared workspace holds

The engine finds the source in its place and every file of the library in the place that its name
leads to; of several files with one place it finds the last one.  A file with a name that is
refused is left out, and there are no other files.
-/

namespace SolidWorkshop

namespace Engine.Workspace

variable {w w' : Workspace} {at_ target : Place} {content : ByteArray} {relative library : String}

/-! ## Making directories -/

theorem read?_eq_none_of_isFile
    (h : w.isFile at_ = false) :
    w.read? at_ = none := by
  unfold isFile at h
  unfold read?
  split at h
  · contradiction
  · contradiction
  · next hfile _ =>
    split
    · next content hentry => exact absurd hentry (hfile content)
    · rfl

theorem isFile_put_directory
    (hne : target ≠ []) (hfile : w.isFile target = false) (at_ : Place) :
    (w.put target .directory).isFile at_ = w.isFile at_ := by
  by_cases hat : at_ = target
  · subst hat
    rw [hfile, isFile, entry?_put_self hne]
  · rw [isFile, isFile, entry?_put_of_ne hat]

theorem isFile_makeDirectory
    (hne : target ≠ []) (hfile : w.isFile target = false) (at_ : Place) :
    (w.makeDirectory target).isFile at_ = w.isFile at_ := by
  unfold makeDirectory
  split_ifs
  · rfl
  · exact isFile_put_directory hne hfile at_

/-- What is in a file that may be read can be had. -/
theorem read_eq_of_read?
    (h : w.read? at_ = some content) :
    w.read at_ = .ok (some content) := by
  have hdenial : w.denial? at_ = none := by
    unfold read? at h
    unfold denial?
    split at h
    · next hentry => rw [hentry]
    · contradiction
  rw [read, hdenial, h]

theorem read?_put_self
    (hne : target ≠ []) (entry : Entry) :
    (w.put target entry).read? target =
      match entry with
      | .file content => some content
      | .directory | .sealed _ => none := by
  rw [read?, entry?_put_self hne]
  cases entry with
  | _ => rfl

theorem read?_put_of_ne
    (hne : at_ ≠ target) (entry : Entry) :
    (w.put target entry).read? at_ = w.read? at_ := by
  rw [read?, read?, entry?_put_of_ne hne]

theorem read?_makeDirectory
    (hne : target ≠ []) (hfile : w.isFile target = false) (at_ : Place) :
    (w.makeDirectory target).read? at_ = w.read? at_ := by
  unfold makeDirectory
  split_ifs
  · rfl
  · by_cases hat : at_ = target
    · subst hat
      rw [read?_put_self hne, read?_eq_none_of_isFile hfile]
    · exact read?_put_of_ne hat .directory

theorem read?_foldl_makeDirectory
    {places : List Place} (hne : ∀ target ∈ places, target ≠ [])
    (hfile : ∀ target ∈ places, w.isFile target = false) (at_ : Place) :
    (places.foldl makeDirectory w).read? at_ = w.read? at_ := by
  induction places generalizing w with
  | nil => rfl
  | cons first places ih =>
    obtain ⟨hfirst, hrest⟩ := List.forall_mem_cons.mp hne
    obtain ⟨hfirstFile, hrestFile⟩ := List.forall_mem_cons.mp hfile
    rw [List.foldl_cons, ih hrest, read?_makeDirectory hfirst hfirstFile]
    intro target htarget
    rw [isFile_makeDirectory hfirst hfirstFile]
    exact hrestFile target htarget

theorem eq_or_mem_chain_dropLast
    (h : at_ ∈ chain target) :
    at_ = target ∨ at_ ∈ chain target.dropLast := by
  obtain ⟨k, hk, rfl⟩ := List.mem_map.mp h
  rw [List.mem_range] at hk
  by_cases hlast : k + 1 = target.length
  · exact Or.inl (by rw [hlast, List.take_length])
  · refine Or.inr (List.mem_map.mpr ⟨k, ?_, ?_⟩)
    · rw [List.mem_range, List.length_dropLast]
      omega
    · rw [List.dropLast_eq_take, List.take_take, Nat.min_eq_left (by omega)]

theorem read?_isPresent (w : Workspace) (isPresent : Bool) (at_ : Place) :
    read? { w with isPresent } at_ = w.read? at_ := by
  cases at_ with
  | nil =>
    unfold read? entry?
    cases isPresent with
    | _ =>
      cases w.isPresent with
      | _ => rfl
  | cons name names => rfl

theorem isFile_isPresent (w : Workspace) (isPresent : Bool) (at_ : Place) :
    isFile { w with isPresent } at_ = w.isFile at_ := by
  cases at_ with
  | nil =>
    unfold isFile entry?
    cases isPresent with
    | _ =>
      cases w.isPresent with
      | _ => rfl
  | cons name names => rfl

/-- Making directories makes no file and takes none away. -/
theorem read?_makeDirectories
    (h : w.makeDirectories target = .ok w') (at_ : Place) :
    w'.read? at_ = w.read? at_ := by
  unfold makeDirectories at h
  split_ifs at h with hzero habove hthere
  obtain rfl := Except.ok.inj h
  have hfile : ∀ place ∈ chain target, w.isFile place = false := by
    intro place hplace
    rcases eq_or_mem_chain_dropLast hplace with rfl | hmem
    · simpa using hthere
    · exact Bool.eq_false_iff.mpr fun hfile => habove (List.any_eq_true.mpr ⟨place, hmem, hfile⟩)
  rw [read?_foldl_makeDirectory (fun _ hplace => ne_nil_of_mem_chain hplace), read?_isPresent]
  intro place hplace
  rw [isFile_isPresent]
  exact hfile place hplace

/-! ## Writing a file -/

theorem read?_write_of_written
    (hne : target ≠ []) (h : w.write target content = (w', none)) (at_ : Place) :
    hasZero target = false ∧ w'.read? at_ = if at_ = target then some content else w.read? at_ := by
  unfold write at h
  cases hmake : w.makeDirectories target.dropLast with
  | error failure => simp [hmake] at h
  | ok made =>
    rw [hmake] at h
    dsimp only at h
    split_ifs at h with hzero hdirectory
    · simp at h
    · simp at h
    · obtain ⟨rfl, -⟩ := Prod.mk.inj h
      refine ⟨by simpa using hzero, ?_⟩
      split_ifs with hat
      · rw [hat, read?_put_self hne]
      · rw [read?_put_of_ne hat, read?_makeDirectories hmake]

/-- A file that cannot be written leaves no trace but directories. -/
theorem read?_write_of_refused
    {failure : Failure} (h : w.write target content = (w', some failure)) (at_ : Place) :
    w'.read? at_ = w.read? at_ ∧ (failure.area = .value → hasZero target = true) := by
  unfold write at h
  cases hmake : w.makeDirectories target.dropLast with
  | error cause =>
    rw [hmake] at h
    obtain ⟨rfl, hcause⟩ := Prod.mk.inj h
    obtain rfl := Option.some.inj hcause
    refine ⟨rfl, fun harea => ?_⟩
    unfold makeDirectories at hmake
    split_ifs at hmake with hzero
    · obtain ⟨name, hname, hin⟩ := List.any_eq_true.mp hzero
      exact List.any_eq_true.mpr ⟨name, List.dropLast_subset target hname, hin⟩
    · obtain rfl := Except.error.inj hmake
      contradiction
    · obtain rfl := Except.error.inj hmake
      contradiction
  | ok made =>
    rw [hmake] at h
    dsimp only at h
    split_ifs at h with hzero hdirectory
    · obtain ⟨rfl, -⟩ := Prod.mk.inj h
      exact ⟨read?_makeDirectories hmake at_, fun _ => hzero⟩
    · obtain ⟨rfl, hcause⟩ := Prod.mk.inj h
      obtain rfl := Option.some.inj hcause
      exact ⟨read?_makeDirectories hmake at_, nofun⟩
    · simp at h

/-- A file with this name is written at this place. -/
def leadsTo (relative : String) (at_ : Place) : Bool :=
  !hasZero at_ && (place relative).toOption == some at_

theorem leadsTo_iff :
    leadsTo relative at_ = true ↔ hasZero at_ = false ∧ place relative = .ok at_ := by
  rw [leadsTo, Bool.and_eq_true, Bool.not_eq_true', beq_iff_eq]
  refine and_congr_right fun _ => ⟨Failure.eq_ok_of_toOption, fun h => ?_⟩
  rw [h]
  rfl

/-- A file that is written, or refused for its name, is all that changes. -/
theorem read?_writeAt
    {refusal : Option Failure} (h : w.writeAt relative content = (w', refusal))
    (hrefusal : ∀ failure, refusal = some failure → failure.area = .value) (at_ : Place) :
    w'.read? at_ = (if leadsTo relative at_ then some content else none).or (w.read? at_) := by
  unfold writeAt at h
  cases hplace : place relative with
  | error failure =>
    rw [hplace] at h
    obtain ⟨rfl, -⟩ := Prod.mk.inj h
    have hnot : ¬leadsTo relative at_ = true := fun hleads =>
      absurd (hplace.symm.trans (leadsTo_iff.mp hleads).2) nofun
    rw [if_neg hnot, Option.none_or]
  | ok target =>
    rw [hplace] at h
    have hleads : leadsTo relative at_ = true ↔ hasZero target = false ∧ at_ = target := by
      rw [leadsTo_iff, hplace, Except.ok.injEq]
      constructor
      · rintro ⟨hzero, rfl⟩
        exact ⟨hzero, rfl⟩
      · rintro ⟨hzero, rfl⟩
        exact ⟨hzero, rfl⟩
    cases refusal with
    | none =>
      obtain ⟨-, hne, -⟩ := place_eq_ok_iff.mp hplace
      obtain ⟨hzero, hread⟩ := read?_write_of_written hne h at_
      rw [hread]
      split_ifs with hat hleads' hleads'
      · rfl
      · exact absurd (hleads.mpr ⟨hzero, hat⟩) hleads'
      · exact absurd (hleads.mp hleads').2 hat
      · rfl
    | some failure =>
      obtain ⟨hread, hzero⟩ := read?_write_of_refused h at_
      have hnot : ¬leadsTo relative at_ = true := fun hleads' => by
        have := (hleads.mp hleads').1.symm.trans (hzero (hrefusal failure rfl))
        contradiction
      rw [hread, if_neg hnot, Option.none_or]

/-! ## Staging a library -/

/-- The content that the files of a library lead to at a place: the last one counts. -/
def stagedAt (library : String) (files : List (String × ByteArray)) (at_ : Place) :
    Option ByteArray :=
  (files.reverse.find? fun file => leadsTo (libraryPath library file.1) at_).map (·.2)

theorem stagedAt_cons (file : String × ByteArray) (files : List (String × ByteArray)) :
    stagedAt library (file :: files) at_ =
      (stagedAt library files at_).or
        (if leadsTo (libraryPath library file.1) at_ then some file.2 else none) := by
  unfold stagedAt
  rw [List.reverse_cons, List.find?_append, Option.map_or]
  congr 1
  cases hleads : leadsTo (libraryPath library file.1) at_ with
  | true => simp [hleads]
  | false => simp [hleads]

/-- A library is staged when its first file is written, or refused for its name, and the others
are staged. -/
theorem stageFrom_cons_eq_ok
    {file : String × ByteArray} {files : List (String × ByteArray)} {count n : Nat}
    (h : w.stageFrom count library (file :: files) = (w', .ok n)) :
    ∃ later refusal, w.writeAt (libraryPath library file.1) file.2 = (later, refusal) ∧
      (∀ failure, refusal = some failure → failure.area = .value) ∧
      later.stageFrom (if refusal.isNone then count + 1 else count) library files =
        (w', .ok n) := by
  obtain ⟨relative, content⟩ := file
  unfold stageFrom at h
  cases hwrite : w.writeAt (libraryPath library relative) content with
  | mk later refusal =>
    rw [hwrite] at h
    cases refusal with
    | none => exact ⟨later, none, rfl, fun _ hnone => by contradiction, h⟩
    | some failure =>
      dsimp only at h
      split_ifs at h with harea
      · refine ⟨later, some failure, rfl, ?_, h⟩
        rintro cause ⟨⟩
        exact harea
      · have hfailed := (Prod.mk.inj h).2
        contradiction

/-- Staging a library puts its files into their places, and nothing else. -/
theorem read?_stageFrom
    {files : List (String × ByteArray)} {count n : Nat}
    (h : w.stageFrom count library files = (w', .ok n)) (at_ : Place) :
    w'.read? at_ = (stagedAt library files at_).or (w.read? at_) := by
  induction files generalizing w count with
  | nil =>
    obtain ⟨rfl, -⟩ := Prod.mk.inj h
    rfl
  | cons file files ih =>
    obtain ⟨later, refusal, hwrite, hrefusal, hrest⟩ := stageFrom_cons_eq_ok h
    rw [stagedAt_cons, Option.or_assoc, ih hrest, read?_writeAt hwrite hrefusal]

/-! ## Directories stay -/

theorem isDirectory_iff :
    w.isDirectory at_ = true ↔ w.entry? at_ = some .directory := by
  unfold isDirectory
  cases w.entry? at_ with
  | none => simp
  | some entry =>
    cases entry with
    | _ => simp

theorem isDirectory_nil (w : Workspace) : w.isDirectory [] = w.isPresent := by
  unfold isDirectory entry?
  cases w.isPresent with
  | _ => rfl

theorem isDirectory_makeDirectory
    (h : w.isDirectory at_ = true) (target : Place) :
    (w.makeDirectory target).isDirectory at_ = true := by
  unfold makeDirectory
  split_ifs with hthere
  · exact h
  · have hne : at_ ≠ target := by
      rintro rfl
      exact hthere h
    rw [isDirectory_iff] at h ⊢
    rw [entry?_put_of_ne hne, h]

theorem isDirectory_makeDirectories
    (h : w.isDirectory at_ = true) (hmake : w.makeDirectories target = .ok w') :
    w'.isDirectory at_ = true := by
  have hthere : isDirectory { w with isPresent := true } at_ = true := by
    by_cases hat : at_ = []
    · rw [hat, isDirectory_nil]
    · unfold isDirectory entry? at h ⊢
      rw [if_neg (by simpa using hat)] at h ⊢
      exact h
  unfold makeDirectories at hmake
  split_ifs at hmake
  obtain rfl := Except.ok.inj hmake
  exact List.foldlRecOn (motive := fun made => made.isDirectory at_ = true) (chain target)
    makeDirectory hthere fun _ hmade above _ => isDirectory_makeDirectory hmade above

/-- No file takes the place of a directory. -/
theorem isDirectory_write
    (h : w.isDirectory at_ = true) (target : Place) (content : ByteArray) :
    (w.write target content).1.isDirectory at_ = true := by
  unfold write
  cases hmake : w.makeDirectories target.dropLast with
  | error failure => exact h
  | ok made =>
    have hmade := isDirectory_makeDirectories h hmake
    dsimp only
    split_ifs with hzero hdirectory
    · exact hmade
    · exact hmade
    · have hne : at_ ≠ target := by
        rintro rfl
        exact hdirectory hmade
      rw [isDirectory_iff] at hmade ⊢
      rw [entry?_put_of_ne hne, hmade]

theorem isDirectory_writeAt
    (h : w.isDirectory at_ = true) (relative : String) (content : ByteArray) :
    (w.writeAt relative content).1.isDirectory at_ = true := by
  unfold writeAt
  cases place relative with
  | error failure => exact h
  | ok target => exact isDirectory_write h target content

theorem isDirectory_stageFrom
    (h : w.isDirectory at_ = true) (count : Nat) (library : String)
    (files : List (String × ByteArray)) :
    (w.stageFrom count library files).1.isDirectory at_ = true :=
  stageFrom_induction (motive := fun later => later.isDirectory at_ = true) h
    (fun _ _ content hlater => isDirectory_writeAt hlater _ content) count files

/-- Writing a file does not take the workspace away. -/
theorem isPresent_writeAt
    (hpresent : w.isPresent = true) (relative : String) (content : ByteArray) :
    (w.writeAt relative content).1.isPresent = true := by
  rw [← isDirectory_nil] at hpresent ⊢
  exact isDirectory_writeAt hpresent relative content

theorem isPresent_stageFrom
    (hpresent : w.isPresent = true) (count : Nat) (library : String)
    (files : List (String × ByteArray)) :
    (w.stageFrom count library files).1.isPresent = true := by
  rw [← isDirectory_nil] at hpresent ⊢
  exact isDirectory_stageFrom hpresent count library files

end Engine.Workspace

namespace Compile

open Engine

/-- In a workspace are the source, in its place, and the files of a library, and no other files. -/
def HoldsOnly (source library : String) (files : List (String × ByteArray)) (w : Workspace) : Prop :=
  ∀ at_, w.read? at_ =
    if at_ = [inputFile] then some source.toUTF8 else Workspace.stagedAt library files at_

/-- A fresh workspace with the files of a library, if there are any. -/
def stocked (library : String) (files : List (String × ByteArray)) :
    Workspace × Except Failure Nat :=
  if files.isEmpty then (.fresh, .ok 0) else Workspace.fresh.stage library files

/-- A fresh workspace with the library and the source in it, as far as they can be written. -/
def furnish (message : CompileMessage) (library : String) (files : List (String × ByteArray)) :
    Workspace × Option Failure :=
  match stocked library files with
  | (w, .error failure) => (w, some failure)
  | (w, .ok _) => w.writeAt inputFile message.source.toUTF8

/-- A workspace, unless something was refused in it. -/
def unlessRefused : Workspace × Option Failure → Except Failure Workspace
  | (_, some failure) => .error failure
  | (w, none) => .ok w

section

variable {message : CompileMessage} {library : String} {files : List (String × ByteArray)}
  {w : Workspace}

theorem prepare_eq_furnish
    (message : CompileMessage) (library : String) (files : List (String × ByteArray)) :
    prepare message library files = unlessRefused (furnish message library files) := by
  unfold prepare furnish stocked
  generalize (if files.isEmpty then (Workspace.fresh, .ok 0)
    else Workspace.fresh.stage library files) = staged
  obtain ⟨w, staged⟩ := staged
  cases staged with
  | error failure => rfl
  | ok count =>
    dsimp only
    cases w.writeAt inputFile message.source.toUTF8 with
    | mk w refusal =>
      cases refusal with
      | _ => rfl

/-- A workspace is ready when the library is staged and the source is written. -/
theorem prepare_eq_ok_iff :
    prepare message library files = .ok w ↔
      ∃ staged n, stocked library files = (staged, .ok n) ∧
        staged.writeAt inputFile message.source.toUTF8 = (w, none) := by
  rw [prepare_eq_furnish]
  unfold furnish
  generalize message.source.toUTF8 = source
  obtain ⟨staged, count⟩ := stocked library files
  cases count with
  | error failure => simp [unlessRefused]
  | ok n =>
    cases hwrite : staged.writeAt inputFile source with
    | mk later refusal =>
      cases refusal with
      | none => simp [hwrite, unlessRefused]
      | some failure => simp [hwrite, unlessRefused]

theorem isPresent_stocked (library : String) (files : List (String × ByteArray)) :
    (stocked library files).1.isPresent = true := by
  unfold stocked
  split_ifs
  · rfl
  · exact Workspace.isPresent_stageFrom rfl 0 library files

theorem isPresent_furnish
    (message : CompileMessage) (library : String) (files : List (String × ByteArray)) :
    (furnish message library files).1.isPresent = true := by
  have hstocked := isPresent_stocked library files
  unfold furnish
  split
  · next hrefused =>
    rw [hrefused] at hstocked
    exact hstocked
  · next hstaged =>
    rw [hstaged] at hstocked
    exact Workspace.isPresent_writeAt hstocked inputFile message.source.toUTF8

theorem place_inputFile : place inputFile = .ok [inputFile] :=
  Failure.eq_ok_of_toOption (by decide +kernel)

theorem read?_fresh (at_ : Place) : Workspace.fresh.read? at_ = none := by
  cases at_ with
  | nil => rfl
  | cons name names =>
    have hlookup : Workspace.fresh.entry? (name :: names) =
        [([libraryRoot], Entry.directory)].lookup (name :: names) := rfl
    rw [Workspace.read?, hlookup, List.lookup_cons, List.lookup_nil]
    cases name :: names == [libraryRoot] with
    | _ => rfl

/-- A workspace that has been prepared holds what it has been prepared with. -/
theorem holdsOnly_of_prepare
    (h : prepare message library files = .ok w) :
    HoldsOnly message.source library files w := by
  obtain ⟨staged, n, hstaged, hwritten⟩ := prepare_eq_ok_iff.mp h
  intro at_
  have hinput : Workspace.leadsTo inputFile at_ = true ↔ at_ = [inputFile] := by
    rw [Workspace.leadsTo_iff, place_inputFile, Except.ok.injEq]
    constructor
    · rintro ⟨-, rfl⟩
      rfl
    · rintro rfl
      exact ⟨by decide, rfl⟩
  have hlibrary : staged.read? at_ = Workspace.stagedAt library files at_ := by
    unfold stocked at hstaged
    split_ifs at hstaged with hnone
    · obtain ⟨rfl, -⟩ := Prod.mk.inj hstaged
      obtain rfl := List.isEmpty_iff.mp hnone
      exact read?_fresh at_
    · rw [Workspace.read?_stageFrom hstaged, read?_fresh, Option.or_none]
  rw [Workspace.read?_writeAt hwritten (by simp), hlibrary]
  split_ifs with hleads hat hat
  · rfl
  · exact absurd (hinput.mp hleads) hat
  · exact absurd (hinput.mpr hat) hleads
  · rfl

end

end Compile

end SolidWorkshop
