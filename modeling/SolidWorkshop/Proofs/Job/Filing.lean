import SolidWorkshop.Proofs.Job.Pruning
import SolidWorkshop.Proofs.Storage.SafeName

/-!
# Where artifacts are filed

The id that a job gets is a safe name, whatever was asked for.  The file of the job's artifact is
named for this id, so it is directly in the directory of the artifacts and no other known job has
the same.
-/

namespace SolidWorkshop.Storage.Path

/-! ## What is directly in a directory -/

/-- A path leads to something that is directly in a directory. -/
def IsChild (directory path : Path) : Prop :=
  ∃ name, IsName name ∧ path = ⟨directory.root, directory.names ++ [name]⟩

theorem isChild_join
    {name : String} (hname : IsName name) (directory : Path) :
    directory.IsChild (directory.join ⟨"", [name]⟩) :=
  ⟨name, hname, join_names directory [name]⟩

/-- What is directly in a directory is still there when both are looked up. -/
theorem IsChild.resolve
    {directory path : Path} (h : directory.IsChild path) (base : Path) :
    (base.resolve directory).IsChild (base.resolve path) := by
  obtain ⟨name, hname, rfl⟩ := h
  refine ⟨name, hname, ?_⟩
  rw [← join_names]
  exact resolve_join_names (by simpa using hname.ne_back.symm) base directory

theorem exists_text_join_eq (directory : Path) :
    ∃ front, ∀ name, (directory.join ⟨"", [name]⟩).text = front ++ name := by
  by_cases hnames : directory.names = []
  · refine ⟨directory.root, fun name => ?_⟩
    simp [join_names, text, hnames]
  · refine ⟨directory.root ++ ("/".intercalate directory.names ++ "/"), fun name => ?_⟩
    rw [join_names, text, if_neg (by simp), String.append_assoc,
      String.intercalate_append_of_ne_nil hnames (by simp), String.intercalate_singleton]

/-- Paths in one directory that read the same have the same name. -/
theorem text_join_inj
    {directory : Path} {name other : String}
    (h : (directory.join ⟨"", [name]⟩).text = (directory.join ⟨"", [other]⟩).text) :
    name = other := by
  obtain ⟨front, hfront⟩ := exists_text_join_eq directory
  rw [hfront, hfront] at h
  exact (String.append_right_inj front).mp h

end SolidWorkshop.Storage.Path

namespace SolidWorkshop.Job

open Storage (IsName IsSafeName Path)

/-- The path of the artifact of a job, once there is one. -/
def Record.artifactPath? (r : Record) (directory : Path) : Option Path :=
  r.artifact.map fun name => directory.join ⟨"", [name]⟩

namespace Board

/-! ## Ids -/

theorem isSafeName_generated (n : Nat) : IsSafeName ("generated-" ++ toString n) := by
  apply Storage.isSafeName_of_plain
  · exact fun hempty => absurd (String.append_eq_empty_iff.mp hempty).1 (by decide)
  · intro c hc
    rw [Nat.toString_eq_ofList_toDigits, String.toList_append, List.mem_append] at hc
    rcases hc with hword | hdigit
    · have hall : "generated-".toList.all (fun c => c.isAlphanum || c == '-') = true := by decide
      simpa using List.all_eq_true.mp hall c hword
    · rw [String.toList_ofList] at hdigit
      refine Or.inl (Bool.or_eq_true_iff.mpr (Or.inr ?_))
      exact Numeral.allDigits_toDigits n c hdigit

/-- The id for a job is a safe name, and it is the one that was asked for if that is safe. -/
theorem isSafeName_idFor (b : Board) (asked : String) :
    IsSafeName (b.idFor asked).1 ∧ (IsSafeName asked → (b.idFor asked).1 = asked) := by
  unfold idFor
  dsimp only
  rcases Storage.safeName_cases asked "" with hempty | hsafe
  · rw [hempty]
    refine ⟨isSafeName_generated _, fun hasked => ?_⟩
    exact absurd ((hasked.safeName_eq "").symm.trans hempty) hasked.ne_empty
  · rw [if_neg (by simpa using hsafe.ne_empty)]
    dsimp only
    exact ⟨hsafe, fun hasked => hasked.safeName_eq ""⟩

section Submit

variable {b : Board} {request : CompileRequest} {asked : Option String} {id : String}

theorem idFor_of_submit
    (h : (b.submit request asked).2 = .ok id) :
    (b.idFor (wanted request asked)).1 = id := by
  unfold submit at h
  split_ifs at h
  generalize b.idFor (wanted request asked) = chosen at h ⊢
  obtain ⟨newId, generated⟩ := chosen
  dsimp only at h
  split_ifs at h
  exact Except.ok.inj h

theorem isSafeName_of_submit
    (h : (b.submit request asked).2 = .ok id) :
    IsSafeName id ∧ (IsSafeName (wanted request asked) → id = wanted request asked) := by
  rw [← idFor_of_submit h]
  exact b.isSafeName_idFor _

end Submit

/-! ## The invariant -/

/-- A record has a safe id, and its result tells the path of its artifact. -/
structure IsLocated (directory : Path) (r : Record) : Prop where
  id : IsSafeName r.id
  result : ∀ result ∈ r.result, ∃ path ∈ r.artifactPath? directory, result.artifactPath = path.text

section Located

variable {b c : Board} {t : Turn} {r s : Record} {directory : Path}

theorem IsLocated.of_eq
    (hr : IsLocated directory r) (hid : s.id = r.id) (hartifact : s.artifact = r.artifact)
    (hresult : s.result = r.result) :
    IsLocated directory s := by
  obtain ⟨hsafe, hpath⟩ := hr
  rw [← hid] at hsafe
  rw [← hresult] at hpath
  exact ⟨hsafe, by rwa [Record.artifactPath?, hartifact]⟩

/-- An artifact is written to the path that is told, or not at all. -/
theorem Ends.isLocated
    {worker : Nat} {overrides : List Override} {artifacts : List (String × ByteArray)}
    (h : b.Ends worker overrides r t s artifacts) (hr : IsLocated b.policy.artifactsDir r) :
    IsLocated b.policy.artifactsDir s := by
  cases h with
  | stored =>
    refine ⟨hr.id, ?_⟩
    rintro result ⟨⟩
    exact ⟨_, rfl, rfl⟩
  | unfinished =>
    unfold noted
    split_ifs
    · exact hr.of_eq rfl rfl rfl
    · exact hr.of_eq rfl rfl rfl
  | _ => exact hr.of_eq rfl rfl rfl

theorem Fares.isLocated
    {place : Nat} (h : b.Fares t c place r s) (hr : IsLocated b.policy.artifactsDir r) :
    IsLocated b.policy.artifactsDir s := by
  cases h with
  | conclude _ hend => exact hend.isLocated hr
  | _ => exact hr.of_eq rfl rfl rfl

theorem isLocated_run
    (policy : Policy) (count : Nat) (turns : List Turn) :
    ∀ (place : Nat) (r : Record), ((opened policy count).run turns).records[place]? = some r →
      IsLocated policy.artifactsDir r := by
  suffices h : ((opened policy count).run turns).policy = policy ∧
      ∀ (place : Nat) (r : Record), ((opened policy count).run turns).records[place]? = some r →
        IsLocated policy.artifactsDir r from h.2
  refine run_induction (motive := fun _ b => b.policy = policy ∧ ∀ (place : Nat) (r : Record),
    b.records[place]? = some r → IsLocated policy.artifactsDir r) ?_ ?_ turns
  · refine ⟨rfl, ?_⟩
    intro place r hr
    contradiction
  · rintro - t b c - hocc hstep ⟨rfl, hb⟩
    refine ⟨hstep.policy_eq, ?_⟩
    intro place s hs
    rcases hstep.record_cases hocc hs with ⟨r, hr, hfares⟩ | ⟨_, _, _, -, hok, -, -, rfl⟩
    · exact hfares.isLocated (hb place r hr)
    · exact ⟨(isSafeName_of_submit hok).1, nofun⟩

end Located

/-! ## Files of known jobs -/

section Files

variable {b : Board} {r s : Record} {directory path other : Path}

/-- Of two known jobs the ids differ. -/
theorem Named.pairwise_known
    (hb : b.Named) :
    b.known.Pairwise fun r s => r.id ≠ s.id := by
  have hids := hb.ids
  rw [← hb.map_id_known] at hids
  exact List.pairwise_map.mp hids

theorem isChild_of_isFiled
    (hr : r.IsFiled) (hid : IsSafeName r.id) (hpath : path ∈ r.artifactPath? directory) :
    directory.IsChild path := by
  obtain ⟨name, hname, rfl⟩ := Option.map_eq_some_iff.mp hpath
  obtain rfl := hr.named name hname
  exact Path.isChild_join (hid.isName_append (by decide)) directory

/-- Jobs with different ids have different files. -/
theorem text_ne_of_isFiled
    (hr : r.IsFiled) (hs : s.IsFiled) (hne : r.id ≠ s.id)
    (hpath : path ∈ r.artifactPath? directory) (hother : other ∈ s.artifactPath? directory) :
    path.text ≠ other.text := by
  obtain ⟨name, hname, rfl⟩ := Option.map_eq_some_iff.mp hpath
  obtain ⟨name', hname', rfl⟩ := Option.map_eq_some_iff.mp hother
  intro heq
  refine artifactName_ne hne ?_
  rw [← hr.named name hname, ← hs.named name' hname']
  exact Path.text_join_inj heq

end Files

/-- Whatever ids are asked for, the ids that jobs get are safe names, which stay as they are when
they are made safe again; the artifacts of the known jobs are directly in the directory of the
artifacts, each of them in another place. -/
theorem artifacts_filed_by_safe_ids
    (policy : Policy) (count : Nat) (turns : List Turn) :
    let b := (opened policy count).run turns
    let directory := policy.artifactsDir
    (∀ request asked id, (b.submit request asked).2 = .ok id →
      IsSafeName id ∧ (∀ fallback, Storage.safeName id fallback = id) ∧
        (IsSafeName (wanted request asked) → id = wanted request asked)) ∧
    (∀ r ∈ b.known, IsSafeName r.id ∧
      (∀ path ∈ r.artifactPath? directory, directory.IsChild path ∧
        ∀ base : Path, (base.resolve directory).IsChild (base.resolve path)) ∧
      ∀ result ∈ r.result, ∃ path ∈ r.artifactPath? directory,
        result.artifactPath = path.text) ∧
    b.known.Pairwise fun r s => r.id ≠ s.id ∧
      ∀ path ∈ r.artifactPath? directory, ∀ other ∈ s.artifactPath? directory,
        path ≠ other ∧ path.text ≠ other.text := by
  intro b directory
  have hkept : ∀ r ∈ b.known, r.IsFiled ∧ IsLocated directory r := by
    intro r hr
    obtain ⟨-, place, -, hplace⟩ := mem_known_iff.mp hr
    exact ⟨isFiled_run policy count turns place r hplace,
      isLocated_run policy count turns place r hplace⟩
  refine ⟨?_, ?_, ?_⟩
  · intro request asked id hok
    obtain ⟨hsafe, hasked⟩ := isSafeName_of_submit hok
    exact ⟨hsafe, hsafe.safeName_eq, hasked⟩
  · intro r hr
    obtain ⟨hfiled, hlocated⟩ := hkept r hr
    refine ⟨hlocated.id, ?_, hlocated.result⟩
    intro path hpath
    have hchild := isChild_of_isFiled hfiled hlocated.id hpath
    exact ⟨hchild, hchild.resolve⟩
  · have hids := (custody_run policy count turns).toNamed.pairwise_known
    refine hids.imp_of_mem ?_
    intro r s hr hs hne
    refine ⟨hne, fun path hpath other hother => ?_⟩
    have htext := text_ne_of_isFiled (hkept r hr).1 (hkept s hs).1 hne hpath hother
    exact ⟨fun heq => htext (congrArg Path.text heq), htext⟩

/-- One job is asked for under a name that leads elsewhere, one without a name, and both are
done. -/
def filesTwo : List Turn :=
  [submitCube "../my part", submitCube " .. ", .take 0, .conclude 0 (.result ⟨#[1]⟩ (some 0) .nan),
    .take 0, .conclude 0 (.result ⟨#[2]⟩ (some 0) .nan)].map .move

theorem artifacts_filed_by_safe_ids_of_two :
    let b := (opened briefPolicy 1).run filesTwo
    (b.known.map fun r => (r.artifactPath? briefPolicy.artifactsDir).map Path.text) =
        [some "artifacts/my_part.stl", some "artifacts/generated-1.stl"] ∧
      (b.submit ⟨"cube(1);", [], none, some "-new-", [], []⟩ none).2.toOption = some "-new-" ∧
      IsSafeName "-new-" ∧
      b.known.Pairwise fun r s => ∀ path ∈ r.artifactPath? briefPolicy.artifactsDir,
        ∀ other ∈ s.artifactPath? briefPolicy.artifactsDir, path.text ≠ other.text := by
  intro b
  obtain ⟨hids, -, hapart⟩ := artifacts_filed_by_safe_ids briefPolicy 1 filesTwo
  have hnew : (b.submit ⟨"cube(1);", [], none, some "-new-", [], []⟩ none).2 = .ok "-new-" := by
    rfl
  refine ⟨by decide +kernel, by rw [hnew]; rfl, (hids _ _ _ hnew).1, ?_⟩
  exact hapart.imp fun h path hpath other hother => (h.2 path hpath other hother).2

end Board

end SolidWorkshop.Job
