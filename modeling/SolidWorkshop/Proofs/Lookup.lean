import SolidWorkshop.Value

/-!
# Rows of entries

What is found in a row of entries after some of them were taken out, or one was put in.
-/

namespace SolidWorkshop

/-- Entries are taken out by their keys. -/
theorem lookup_filter_key
    {κ α : Type} [BEq κ] [LawfulBEq κ] (p : κ → Bool) (entries : List (κ × α)) (key : κ) :
    (entries.filter fun e => p e.1).lookup key = if p key then entries.lookup key else none := by
  induction entries with
  | nil => simp
  | cons e entries ih =>
    obtain ⟨first, entry⟩ := e
    cases hfirst : p first with
    | true =>
      rw [List.filter_cons_of_pos (by exact hfirst), List.lookup_cons, List.lookup_cons, ih]
      by_cases hkey : key = first
      · simp [hkey, hfirst]
      · rw [beq_false_of_ne hkey]
    | false =>
      rw [List.filter_cons_of_neg (by simp [hfirst]), ih, List.lookup_cons]
      by_cases hkey : key = first
      · simp [hkey, hfirst]
      · rw [beq_false_of_ne hkey]

theorem lookup_filter_of_ne
    {κ α : Type} [BEq κ] [LawfulBEq κ] (entries : List (κ × α)) {key other : κ}
    (hne : other ≠ key) :
    (entries.filter fun e => e.1 != key).lookup other = entries.lookup other := by
  rw [lookup_filter_key (· != key), if_pos (bne_iff_ne.mpr hne)]

theorem lookup_setEntry_self
    {κ α : Type} [DecidableEq κ] [BEq κ] [LawfulBEq κ] (key : κ) (value : α)
    (entries : List (κ × α)) :
    (setEntry key value entries).lookup key = some value := by
  induction entries with
  | nil => simp [setEntry]
  | cons e entries ih =>
    obtain ⟨first, entry⟩ := e
    by_cases hfirst : first = key
    · simp [setEntry, hfirst]
    · rw [setEntry, if_neg hfirst, List.lookup_cons, beq_false_of_ne (Ne.symm hfirst)]
      exact ih

theorem lookup_setEntry_of_ne
    {κ α : Type} [DecidableEq κ] [BEq κ] [LawfulBEq κ] {key other : κ} (hne : other ≠ key)
    (value : α) (entries : List (κ × α)) :
    (setEntry key value entries).lookup other = entries.lookup other := by
  induction entries with
  | nil => rw [setEntry, List.lookup_cons, beq_false_of_ne hne]
  | cons e entries ih =>
    obtain ⟨first, entry⟩ := e
    by_cases hfirst : first = key
    · subst hfirst
      rw [setEntry, if_pos rfl, List.lookup_cons, List.lookup_cons, beq_false_of_ne hne]
    · rw [setEntry, if_neg hfirst, List.lookup_cons, List.lookup_cons, ih]

theorem mem_keys_setEntry
    {κ α : Type} [DecidableEq κ] {key other : κ} {value : α} {entries : List (κ × α)} :
    other ∈ (setEntry key value entries).map (·.1) ↔ other = key ∨ other ∈ entries.map (·.1) := by
  induction entries with
  | nil => simp [setEntry]
  | cons e entries ih =>
    obtain ⟨first, entry⟩ := e
    by_cases hfirst : first = key
    · simp [setEntry, hfirst]
    · simp only [setEntry, if_neg hfirst, List.map_cons, List.mem_cons, ih]
      exact or_left_comm

/-- Setting a value keeps the keys apart. -/
theorem nodup_keys_setEntry
    {κ α : Type} [DecidableEq κ] {entries : List (κ × α)} (h : (entries.map (·.1)).Nodup)
    (key : κ) (value : α) :
    ((setEntry key value entries).map (·.1)).Nodup := by
  induction entries with
  | nil => simp [setEntry]
  | cons e entries ih =>
    obtain ⟨first, entry⟩ := e
    obtain ⟨hnew, hrest⟩ := List.nodup_cons.mp h
    by_cases hfirst : first = key
    · simpa [setEntry, hfirst] using h
    · rw [setEntry, if_neg hfirst, List.map_cons, List.nodup_cons, mem_keys_setEntry, not_or]
      exact ⟨⟨hfirst, hnew⟩, ih hrest⟩

theorem mem_of_lookup
    {κ α : Type} [BEq κ] [LawfulBEq κ] {entries : List (κ × α)} {key : κ} {value : α}
    (h : entries.lookup key = some value) :
    (key, value) ∈ entries := by
  obtain ⟨before, after, rfl, -⟩ := List.lookup_eq_some_iff.mp h
  simp

theorem not_mem_of_lookup
    {κ α : Type} [BEq κ] [LawfulBEq κ] {entries : List (κ × α)} {key : κ}
    (h : entries.lookup key = none) (value : α) :
    (key, value) ∉ entries :=
  fun hmem => absurd (List.lookup_eq_none_iff.mp h _ hmem) (by simp)

/-- Among entries with different keys each one is found by its key. -/
theorem lookup_eq_some_of_mem
    {κ α : Type} [BEq κ] [LawfulBEq κ] {entries : List (κ × α)}
    (hkeys : (entries.map (·.1)).Nodup) {key : κ} {value : α} (h : (key, value) ∈ entries) :
    entries.lookup key = some value := by
  obtain ⟨before, after, rfl⟩ := List.append_of_mem h
  refine List.lookup_eq_some_iff.mpr ⟨before, after, rfl, fun e he => ?_⟩
  rw [List.map_append, List.nodup_append] at hkeys
  have hne := hkeys.2.2 e.1 (List.mem_map_of_mem he) key (by simp)
  simpa using Ne.symm hne

end SolidWorkshop
