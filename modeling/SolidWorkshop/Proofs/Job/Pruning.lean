import SolidWorkshop.Proofs.Job.Coherence
import SolidWorkshop.Proofs.Job.Completion

/-!
# What pruning keeps

Pruning goes over the known jobs twice: it drops the finished ones that have been kept for their
time, and then, of those that are left, the ones that ended first and are too many.  The files of
the dropped jobs go with them.  That nothing else goes rests on two facts about every record of a
run: a finished one has the point in time of its end, and an artifact has the name of its job.
-/

namespace SolidWorkshop.Job

/-- A finished job has the point in time of its end, and an artifact has the name of its job. -/
structure Record.IsFiled (r : Record) : Prop where
  ended : r.isFinished = true → r.finishedAt.isSome = true
  named : ∀ name, r.artifact = some name → name = Board.artifactName r.id

namespace Board

/-! ## Every record of a run -/

section Filed

variable {b c : Board} {t : Turn} {place : Nat} {r s : Record}

theorem Ends.isFiled
    {worker : Nat} {overrides : List Override} {artifacts : List (String × ByteArray)}
    (h : b.Ends worker overrides r t s artifacts) (hr : r.IsFiled) :
    s.IsFiled := by
  refine ⟨fun _ => h.isClosed.ended, ?_⟩
  cases h with
  | stored =>
    intro name hname
    exact (Option.some.inj hname).symm
  | unfinished =>
    unfold noted
    split_ifs
    · exact hr.named
    · exact hr.named
  | _ => exact hr.named

theorem Fares.isFiled
    (h : b.Fares t c place r s) (hr : r.IsFiled) :
    s.IsFiled := by
  cases h with
  | stay => exact hr
  | start => exact ⟨nofun, hr.named⟩
  | note => exact ⟨hr.ended, hr.named⟩
  | conclude _ hend => exact hend.isFiled hr
  | cancel | refuse | close => exact ⟨fun _ => rfl, hr.named⟩

theorem isFiled_run
    (policy : Policy) (count : Nat) (turns : List Turn) :
    ∀ (place : Nat) (r : Record),
      ((opened policy count).run turns).records[place]? = some r → r.IsFiled := by
  refine run_induction (motive := fun _ b => ∀ (place : Nat) (r : Record),
    b.records[place]? = some r → r.IsFiled) ?_ ?_ turns
  · intro place r hr
    contradiction
  · intro turns t b c _ hocc hstep ih place s hs
    rcases hstep.record_cases hocc hs with ⟨r, hr, hfares⟩ | ⟨_, _, _, -, -, -, -, rfl⟩
    · exact hfares.isFiled (ih place r hr)
    · exact ⟨nofun, nofun⟩

end Filed

/-! ## Known jobs -/

section Known

variable {b : Board} {r s : Record} {ids : List String} {name : String}

theorem Named.map_id_known
    (hb : b.Named) :
    b.known.map (·.id) = b.jobs.map (·.1) := by
  rw [known, List.map_filterMap, ← List.filterMap_eq_map]
  apply List.filterMap_congr
  rintro ⟨id, place⟩ hjob
  obtain ⟨r, hr, hid⟩ := hb.record id place hjob
  simp [hr, hid]

/-- A known job is known by its id. -/
theorem Named.eq_of_id_eq
    (hb : b.Named) (hr : r ∈ b.known) (hs : s ∈ b.known) (hid : r.id = s.id) :
    r = s := by
  have hnodup := hb.ids
  rw [← hb.map_id_known] at hnodup
  exact List.inj_on_of_nodup_map hnodup hr hs hid

theorem Named.nodup_known
    (hb : b.Named) :
    b.known.Nodup := by
  have hnodup := hb.ids
  rw [← hb.map_id_known] at hnodup
  exact hnodup.of_map

theorem Named.find?_eq_some_iff
    (hb : b.Named) {id : String} :
    b.find? id = some r ↔ r ∈ b.known ∧ r.id = id := by
  rw [find?, Option.bind_eq_some_iff, mem_known_iff]
  constructor
  · rintro ⟨place, hplace, hr⟩
    have hjob := mem_of_lookup hplace
    exact ⟨⟨id, place, hjob, hr⟩, hb.id_eq hjob hr⟩
  · rintro ⟨⟨id', place, hjob, hr⟩, rfl⟩
    rw [hb.id_eq hjob hr]
    exact ⟨place, hb.lookup_eq hjob, hr⟩

theorem Named.known_foldl_drop
    (hb : b.Named) (ids : List String) :
    (ids.foldl drop b).known = b.known.filter fun r => r.id ∉ ids := by
  obtain ⟨-, hframe⟩ := drops_foldl ids b
  have hrecords : (ids.foldl drop b).records = b.records := by
    rw [hframe]
  unfold known
  rw [jobs_foldl_drop, hrecords, List.filterMap_filter, List.filter_filterMap]
  apply List.filterMap_congr
  rintro ⟨id, place⟩ hjob
  obtain ⟨r, hr, rfl⟩ := hb.record id place hjob
  by_cases hmem : r.id ∈ ids
  · simp [hr, hmem, Option.filter]
  · simp [hr, hmem, Option.filter]

/-! ## Their files -/

theorem artifacts_drop (b : Board) (id : String) :
    (b.drop id).artifacts =
      b.artifacts.filter fun file => some file.1 != (b.find? id).bind (·.artifact) := by
  unfold drop
  dsimp only
  split
  · next name hname =>
    rw [hname]
    apply List.filter_congr
    intro file _
    simp [bne]
  · next hnone =>
    rw [hnone]
    exact (List.filter_eq_self.mpr fun file _ => by simp).symm

theorem lookup_drop_of_eq_none
    (hnone : b.artifacts.lookup name = none) (id : String) :
    (b.drop id).artifacts.lookup name = none := by
  rw [artifacts_drop, lookup_filter_key (fun key => some key != (b.find? id).bind (·.artifact)),
    hnone, ite_self]

theorem lookup_foldl_drop_of_eq_none
    (hnone : b.artifacts.lookup name = none) (ids : List String) :
    (ids.foldl drop b).artifacts.lookup name = none := by
  induction ids generalizing b with
  | nil => exact hnone
  | cons id ids ih => exact ih (lookup_drop_of_eq_none hnone id)

/-- The file of a job goes with it. -/
theorem Named.lookup_foldl_drop_eq_none
    (hb : b.Named) (hr : r ∈ b.known) (hid : r.id ∈ ids) (hartifact : r.artifact = some name) :
    (ids.foldl drop b).artifacts.lookup name = none := by
  induction ids generalizing b with
  | nil => contradiction
  | cons id ids ih =>
    by_cases hfirst : r.id = id
    · have hfind : b.find? id = some r := hb.find?_eq_some_iff.mpr ⟨hr, hfirst⟩
      refine lookup_foldl_drop_of_eq_none ?_ ids
      rw [artifacts_drop, hfind, Option.bind_some, hartifact,
        lookup_filter_key (fun key => some key != some name)]
      simp
    · have hlater : r.id ∈ ids := (List.mem_cons.mp hid).resolve_left hfirst
      have hknown : r ∈ ([id].foldl drop b).known := by
        rw [hb.known_foldl_drop, List.mem_filter]
        exact ⟨hr, by simpa using hfirst⟩
      exact ih (hb.foldl_drop [id]) hknown hlater

/-- A file that belongs to none of the dropped jobs stays. -/
theorem Named.lookup_foldl_drop_of_ne
    (hb : b.Named) (hother : ∀ r ∈ b.known, r.id ∈ ids → r.artifact ≠ some name) :
    (ids.foldl drop b).artifacts.lookup name = b.artifacts.lookup name := by
  induction ids generalizing b with
  | nil => rfl
  | cons id ids ih =>
    have hfirst : (b.find? id).bind (·.artifact) ≠ some name := by
      intro hname
      obtain ⟨r, hfind, hartifact⟩ := Option.bind_eq_some_iff.mp hname
      obtain ⟨hr, rfl⟩ := hb.find?_eq_some_iff.mp hfind
      exact hother r hr List.mem_cons_self hartifact
    have hlater : ∀ r ∈ ([id].foldl drop b).known, r.id ∈ ids → r.artifact ≠ some name := by
      intro r hr hid
      rw [hb.known_foldl_drop, List.mem_filter] at hr
      exact hother r hr.1 (List.mem_cons_of_mem id hid)
    have hdropped := ih (hb.foldl_drop [id]) hlater
    rw [List.foldl_cons]
    rw [List.foldl_cons, List.foldl_nil] at hdropped
    rw [hdropped, artifacts_drop,
      lookup_filter_key (fun key => some key != (b.find? id).bind (·.artifact)),
      if_pos (bne_iff_ne.mpr hfirst.symm)]

end Known

/-! ## The jobs that are dropped -/

/-- The finished jobs that have not yet been kept for their time. -/
def lasting (b : Board) : List Record :=
  b.known.filter fun r => !b.isExpired r && r.isFinished

/-- The same jobs, those that ended first in front. -/
def oldest (b : Board) : List Record :=
  b.lasting.mergeSort fun r s => (endOf r).micros ≤ (endOf s).micros

/-- How many of them are too many. -/
def excess (b : Board) : Nat :=
  (b.lasting.length - b.policy.maxRecords).toNat

/-- The job was known, and pruning has dropped it. -/
def IsPruned (b : Board) (r : Record) : Prop :=
  r ∈ b.known ∧ r ∉ b.prune.known

section Pruned

variable {b : Board} {r s : Record}

theorem mem_lasting_iff :
    r ∈ b.lasting ↔ r ∈ b.known ∧ b.isExpired r = false ∧ r.isFinished = true := by
  simp [lasting, List.mem_filter]

theorem mem_oldest_iff : r ∈ b.oldest ↔ r ∈ b.lasting :=
  List.mem_mergeSort

theorem Named.mem_expired_iff
    (hb : b.Named) (hr : r ∈ b.known) :
    r.id ∈ b.expired ↔ b.isExpired r = true := by
  constructor
  · intro hid
    obtain ⟨s, hs, hsame⟩ := List.mem_map.mp hid
    obtain ⟨hs, hexpired⟩ := List.mem_filter.mp hs
    rwa [hb.eq_of_id_eq hr hs hsame.symm]
  · intro hexpired
    exact List.mem_map_of_mem (List.mem_filter.mpr ⟨hr, hexpired⟩)

/-- What is too many is counted when the jobs that have been kept for their time are gone. -/
theorem Named.surplus_eq
    (hb : b.Named) :
    (b.expired.foldl drop b).surplus = (b.oldest.take b.excess).map (·.id) := by
  have hfinished : (b.expired.foldl drop b).known.filter (·.isFinished) = b.lasting := by
    rw [hb.known_foldl_drop, List.filter_filter, lasting]
    apply List.filter_congr
    intro r hr
    rw [Bool.and_comm]
    congr 1
    rw [Bool.eq_iff_iff, decide_eq_true_iff, hb.mem_expired_iff hr]
    simp
  obtain ⟨-, hframe⟩ := drops_foldl b.expired b
  have hpolicy : (b.expired.foldl drop b).policy = b.policy := by
    rw [hframe]
  unfold surplus
  rw [hfinished, hpolicy]
  rfl

/-- A job stays unless it has been kept for its time or is one of the oldest that are too many. -/
theorem Named.known_prune
    (hb : b.Named) :
    b.prune.known = b.known.filter fun r =>
      r.id ∉ b.expired ++ (b.oldest.take b.excess).map (·.id) := by
  rw [prune_eq_foldl, hb.surplus_eq]
  exact hb.known_foldl_drop _

theorem Named.mem_surplus_iff
    (hb : b.Named) (hr : r ∈ b.known) :
    r.id ∈ (b.oldest.take b.excess).map (·.id) ↔ r ∈ b.oldest.take b.excess := by
  constructor
  · intro hid
    obtain ⟨s, hs, hsame⟩ := List.mem_map.mp hid
    have hknown := (mem_lasting_iff.mp (mem_oldest_iff.mp (List.mem_of_mem_take hs))).1
    rwa [hb.eq_of_id_eq hr hknown hsame.symm]
  · exact List.mem_map_of_mem

theorem Named.mem_known_prune_iff
    (hb : b.Named) :
    r ∈ b.prune.known ↔
      r ∈ b.known ∧ b.isExpired r = false ∧ r ∉ b.oldest.take b.excess := by
  rw [hb.known_prune, List.mem_filter, decide_eq_true_iff]
  refine and_congr_right fun hr => ?_
  rw [List.mem_append, not_or, hb.mem_expired_iff hr, hb.mem_surplus_iff hr, Bool.not_eq_true]

theorem Named.isPruned_cases
    (hb : b.Named) (h : b.IsPruned r) :
    b.isExpired r = true ∨ r ∈ b.oldest.take b.excess := by
  by_contra hneither
  rw [not_or, Bool.not_eq_true] at hneither
  exact h.2 (hb.mem_known_prune_iff.mpr ⟨h.1, hneither⟩)

/-- The finished jobs that stay are those that are not too many. -/
theorem Named.mem_drop_of_mem_known_prune
    (hb : b.Named) (hr : r ∈ b.prune.known) (hfinished : r.isFinished = true) :
    r ∈ b.oldest.drop b.excess := by
  obtain ⟨hknown, hexpired, hfirst⟩ := hb.mem_known_prune_iff.mp hr
  have holdest : r ∈ b.oldest :=
    mem_oldest_iff.mpr (mem_lasting_iff.mpr ⟨hknown, hexpired, hfinished⟩)
  rw [← List.take_append_drop b.excess b.oldest, List.mem_append] at holdest
  exact holdest.resolve_left hfirst

theorem endOf_le
    (hr : r ∈ b.oldest.take b.excess) (hs : s ∈ b.oldest.drop b.excess) :
    (endOf r).micros ≤ (endOf s).micros := by
  have hsorted : b.oldest.Pairwise fun r s =>
      decide ((endOf r).micros ≤ (endOf s).micros) = true := by
    apply List.pairwise_mergeSort
    · intro r s t hrs hst
      rw [decide_eq_true_iff] at hrs hst ⊢
      omega
    · intro r s
      rw [Bool.or_eq_true, decide_eq_true_iff, decide_eq_true_iff]
      omega
  rw [← List.take_append_drop b.excess b.oldest, List.pairwise_append] at hsorted
  exact of_decide_eq_true (hsorted.2.2 r hr s hs)

/-- A pruned board has nothing left to prune. -/
theorem prune_eq_self
    (hyoung : ∀ r ∈ b.known, b.isExpired r = false)
    (hfew : (b.known.filter (·.isFinished)).length ≤ b.policy.maxRecords.toNat) :
    b.prune = b := by
  have hexpired : b.expired = [] := by
    rw [expired, List.map_eq_nil_iff, List.filter_eq_nil_iff]
    intro r hr
    simp [hyoung r hr]
  have hsurplus : b.surplus = [] := by
    unfold surplus
    dsimp only
    rw [List.map_eq_nil_iff, List.take_eq_nil_iff, ← List.length_eq_zero_iff,
      List.length_mergeSort]
    omega
  rw [prune_eq_foldl, hexpired, List.nil_append, List.foldl_nil, hsurplus]
  rfl

end Pruned

/-! ## What pruning does -/

/-- Pruning drops what it should and leaves everything else. -/
structure PrunesExactly (b : Board) : Prop where
  /-- Only jobs and files go, and the jobs that stay keep their order. -/
  frame : b.prune = { b with jobs := b.prune.jobs, artifacts := b.prune.artifacts } ∧
    b.prune.known.Sublist b.known
  /-- A job that waits or runs stays. -/
  live : ∀ r ∈ b.known, r.isFinished = false → r ∈ b.prune.known
  /-- No finished job that stays has been kept for longer than its time. -/
  young : ∀ r ∈ b.prune.known, r.isFinished = true →
    ∃ t, r.finishedAt = some t ∧ b.now.micros - t.micros ≤ b.policy.lifetime
  /-- No more finished jobs stay than may be kept. -/
  few : (b.prune.known.filter (·.isFinished)).length ≤ b.policy.maxRecords.toNat
  /-- A job that goes has been kept for longer than its time, or there are too many younger ones
  and all that stay ended no sooner. -/
  reason : ∀ r, b.IsPruned r → r.isFinished = true ∧ ∃ t, r.finishedAt = some t ∧
    (b.policy.lifetime < b.now.micros - t.micros ∨
      b.policy.maxRecords < b.lasting.length ∧
        ∀ s ∈ b.prune.known, s.isFinished = true →
          ∃ u, s.finishedAt = some u ∧ t.micros ≤ u.micros)
  /-- The files of the jobs that go are deleted, and no others. -/
  files : ∀ name,
    ((∃ r, b.IsPruned r ∧ r.artifact = some name) → b.prune.artifacts.lookup name = none) ∧
    ((∀ r, b.IsPruned r → r.artifact ≠ some name) →
      b.prune.artifacts.lookup name = b.artifacts.lookup name)
  /-- No job that stays loses its file. -/
  kept : ∀ r ∈ b.prune.known, b.prune.artifact? r = b.artifact? r
  /-- At the same time there is nothing left to prune. -/
  again : b.prune.prune = b.prune

section Exactly

variable {b : Board} {r s : Record}

theorem isExpired_iff
    {t : Instant} (hend : r.finishedAt = some t) :
    b.isExpired r = true ↔
      r.isFinished = true ∧ b.policy.lifetime < b.now.micros - t.micros := by
  rw [isExpired, hend, Bool.and_eq_true, Option.any_some, decide_eq_true_iff]

theorem exists_of_isExpired
    (h : b.isExpired r = true) :
    r.isFinished = true ∧ ∃ t, r.finishedAt = some t ∧
      b.policy.lifetime < b.now.micros - t.micros := by
  rw [isExpired, Bool.and_eq_true, Option.any_eq_true] at h
  obtain ⟨hfinished, t, hend, hlong⟩ := h
  exact ⟨hfinished, t, hend, of_decide_eq_true hlong⟩

theorem endOf_eq
    {t : Instant} (hend : r.finishedAt = some t) :
    endOf r = t := by
  rw [endOf, hend, Option.getD_some]

theorem Named.length_finished_prune_le
    (hb : b.Named) :
    (b.prune.known.filter (·.isFinished)).length ≤ b.policy.maxRecords.toNat := by
  have hnodup : (b.prune.known.filter (·.isFinished)).Nodup := hb.prune.nodup_known.filter _
  have hsubset : b.prune.known.filter (·.isFinished) ⊆ b.oldest.drop b.excess := by
    intro r hr
    obtain ⟨hknown, hfinished⟩ := List.mem_filter.mp hr
    exact hb.mem_drop_of_mem_known_prune hknown hfinished
  have hlength := (List.subperm_of_subset hnodup hsubset).length_le
  rw [List.length_drop, oldest, List.length_mergeSort] at hlength
  unfold excess at hlength
  omega

theorem Named.reason_of_isPruned
    (hb : b.Named) (hfiled : ∀ r ∈ b.known, r.IsFiled) (h : b.IsPruned r) :
    r.isFinished = true ∧ ∃ t, r.finishedAt = some t ∧
      (b.policy.lifetime < b.now.micros - t.micros ∨
        b.policy.maxRecords < b.lasting.length ∧
          ∀ s ∈ b.prune.known, s.isFinished = true →
            ∃ u, s.finishedAt = some u ∧ t.micros ≤ u.micros) := by
  rcases hb.isPruned_cases h with hexpired | hfirst
  · obtain ⟨hfinished, t, hend, hlong⟩ := exists_of_isExpired hexpired
    exact ⟨hfinished, t, hend, Or.inl hlong⟩
  · have hlasting := mem_oldest_iff.mp (List.mem_of_mem_take hfirst)
    obtain ⟨hknown, -, hfinished⟩ := mem_lasting_iff.mp hlasting
    obtain ⟨t, hend⟩ := Option.isSome_iff_exists.mp ((hfiled r hknown).ended hfinished)
    refine ⟨hfinished, t, hend, Or.inr ⟨?_, ?_⟩⟩
    · have hsome : b.excess ≠ 0 := by
        intro hnone
        rw [hnone, List.take_zero] at hfirst
        contradiction
      unfold excess at hsome
      omega
    · intro s hs hlast
      have hknown' := (hb.mem_known_prune_iff.mp hs).1
      obtain ⟨u, hend'⟩ := Option.isSome_iff_exists.mp ((hfiled s hknown').ended hlast)
      have hle := endOf_le hfirst (hb.mem_drop_of_mem_known_prune hs hlast)
      rw [endOf_eq hend, endOf_eq hend'] at hle
      exact ⟨u, hend', hle⟩

theorem Named.lookup_prune_of_isPruned
    (hb : b.Named) (h : b.IsPruned r) {name : String} (hname : r.artifact = some name) :
    b.prune.artifacts.lookup name = none := by
  have hid : r.id ∈ b.expired ++ (b.oldest.take b.excess).map (·.id) := by
    rw [List.mem_append, hb.mem_expired_iff h.1, hb.mem_surplus_iff h.1]
    exact hb.isPruned_cases h
  rw [prune_eq_foldl, hb.surplus_eq]
  exact hb.lookup_foldl_drop_eq_none h.1 hid hname

theorem Named.lookup_prune_of_ne
    (hb : b.Named) {name : String} (hother : ∀ r, b.IsPruned r → r.artifact ≠ some name) :
    b.prune.artifacts.lookup name = b.artifacts.lookup name := by
  rw [prune_eq_foldl, hb.surplus_eq]
  apply hb.lookup_foldl_drop_of_ne
  intro r hr hid
  refine hother r ⟨hr, fun hstays => ?_⟩
  rw [hb.known_prune, List.mem_filter] at hstays
  exact absurd hid (of_decide_eq_true hstays.2)

/-- The files of two known jobs are two files. -/
theorem Named.artifact?_prune
    (hb : b.Named) (hfiled : ∀ r ∈ b.known, r.IsFiled) (hr : r ∈ b.prune.known) :
    b.prune.artifact? r = b.artifact? r := by
  have hknown := (hb.mem_known_prune_iff.mp hr).1
  unfold artifact?
  cases hartifact : r.artifact with
  | none => rfl
  | some name =>
    apply hb.lookup_prune_of_ne
    intro s hs hsame
    have hname := (hfiled r hknown).named name hartifact
    have hname' := (hfiled s hs.1).named name hsame
    have hid : s.id = r.id := by
      by_contra hne
      exact artifactName_ne hne (hname'.symm.trans hname)
    rw [hb.eq_of_id_eq hs.1 hknown hid] at hs
    exact hs.2 hr

theorem Named.prunesExactly
    (hb : b.Named) (hfiled : ∀ r ∈ b.known, r.IsFiled) :
    b.PrunesExactly := by
  obtain ⟨-, hframe⟩ := drops_prune b
  have hyoung : ∀ r ∈ b.prune.known, b.isExpired r = false :=
    fun r hr => (hb.mem_known_prune_iff.mp hr).2.1
  refine ⟨⟨hframe, ?_⟩, ?_, ?_, hb.length_finished_prune_le,
    fun r => hb.reason_of_isPruned hfiled, ?_, fun r => hb.artifact?_prune hfiled, ?_⟩
  · rw [hb.known_prune]
    exact List.filter_sublist
  · intro r hr hopen
    by_contra hgone
    rw [(hb.reason_of_isPruned hfiled ⟨hr, hgone⟩).1] at hopen
    contradiction
  · intro r hr hfinished
    have hknown := (hb.mem_known_prune_iff.mp hr).1
    obtain ⟨t, hend⟩ := Option.isSome_iff_exists.mp ((hfiled r hknown).ended hfinished)
    have hnot := hyoung r hr
    rw [← Bool.not_eq_true, isExpired_iff hend, not_and] at hnot
    exact ⟨t, hend, Int.not_lt.mp (hnot hfinished)⟩
  · intro name
    refine ⟨?_, hb.lookup_prune_of_ne⟩
    rintro ⟨r, hr, hname⟩
    exact hb.lookup_prune_of_isPruned hr hname
  · apply prune_eq_self
    · intro r hr
      rw [hframe]
      exact hyoung r hr
    · rw [show b.prune.policy = b.policy by rw [hframe]]
      exact hb.length_finished_prune_le

end Exactly

/-- Whatever has happened on a board, pruning drops the finished jobs that have been kept for
longer than their time, and of the others the oldest that are too many, each with its file, and it
leaves every other job with its file. -/
theorem prune_keeps_exactly
    (policy : Policy) (count : Nat) (turns : List Turn) :
    ((opened policy count).run turns).PrunesExactly := by
  apply (custody_run policy count turns).toNamed.prunesExactly
  intro r hr
  obtain ⟨id, place, -, hplace⟩ := mem_known_iff.mp hr
  exact isFiled_run policy count turns place r hplace

/-- A job stays until its time is over, and goes a moment later. -/
example :
    let b := (opened briefPolicy 1).run <|
      [submitCube "first", submitCube "second", .cancel "first", .advance 60000000].map .move
    b.prune.known.map (·.id) = ["first", "second"] ∧
      (b.advance 1).prune.known.map (·.id) = ["second"] := by
  decide +kernel

end Board

end SolidWorkshop.Job
