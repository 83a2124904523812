import SolidWorkshop.Proofs.Number.Token
import SolidWorkshop.Proofs.Storage.Names
import SolidWorkshop.Storage.Name

/-!
# Safe names

The names that a text is made into are told by their characters: letters, digits, points,
underscores and hyphens, with a letter, a digit or a hyphen at both ends.  Making a safe name is
no more than a choice among these, since each of them is made into itself.
-/

namespace SolidWorkshop.Storage

open Text

/-- A name that is safe for a file. -/
structure IsSafeName (name : String) : Prop where
  ne_empty : name ≠ ""
  chars : ∀ c ∈ name.toList, c.isAlphanum = true ∨ c = '.' ∨ c = '_' ∨ c = '-'
  head : ∀ c ∈ name.toList.head?, c ≠ '.' ∧ c ≠ '_'
  last : ∀ c ∈ name.toList.getLast?, c ≠ '.' ∧ c ≠ '_'

/-! ## Safe characters -/

theorem isSafe_iff
    {c : Char} :
    isSafe c = true ↔ c.isAlphanum = true ∨ c = '.' ∨ c = '_' ∨ c = '-' := by
  simp [isSafe, or_assoc]

theorem isEdge_eq_false_iff
    {c : Char} :
    isEdge c = false ↔ c ≠ '.' ∧ c ≠ '_' := by
  simp [isEdge]

theorem isBlank_of_isAlphanum
    {c : Char} (hc : c.isAlphanum = true) :
    isBlank c = false := by
  have hranges : c.isAlphanum =
      (decide (65 ≤ c.val ∧ c.val ≤ 90) || decide (97 ≤ c.val) && decide (c.val ≤ 122) ||
        decide (48 ≤ c.val) && decide (c.val ≤ 57)) := rfl
  have hrange : ((65 ≤ c.toNat ∧ c.toNat ≤ 90) ∨ (97 ≤ c.toNat ∧ c.toNat ≤ 122)) ∨
      (48 ≤ c.toNat ∧ c.toNat ≤ 57) := by
    rw [hranges] at hc
    simpa [UInt32.le_iff_toNat_le] using hc
  simp only [isBlank, Bool.or_eq_false_iff, Bool.and_eq_false_iff, decide_eq_false_iff_not,
    beq_eq_false_iff_ne]
  omega

theorem isBlank_of_isSafe
    {c : Char} (hc : isSafe c = true) :
    isBlank c = false := by
  rcases isSafe_iff.mp hc with hletter | rfl | rfl | rfl
  · exact isBlank_of_isAlphanum hletter
  · decide
  · decide
  · decide

theorem IsSafeName.isSafe_of_mem
    {name : String} {c : Char} (h : IsSafeName name) (hc : c ∈ name.toList) :
    isSafe c = true :=
  isSafe_iff.mpr (h.chars c hc)

/-! ## What is left of a name -/

theorem isSafe_of_mem_replaceRuns
    {s : List Char} {c : Char} (hc : c ∈ replaceRuns s) :
    isSafe c = true := by
  rw [replaceRuns] at hc
  induction s with
  | nil => contradiction
  | cons d s ih =>
    rw [List.foldr_cons, safeStep] at hc
    split_ifs at hc with hd hrun
    · rcases List.mem_cons.mp hc with rfl | hc
      · exact hd
      · exact ih hc
    · exact ih hc
    · rcases List.mem_cons.mp hc with rfl | hc
      · decide
      · exact ih hc

theorem replaceRuns_eq_self
    {s : List Char} (hs : ∀ c ∈ s, isSafe c = true) :
    replaceRuns s = s := by
  suffices h : s.foldr safeStep (false, []) = (false, s) by rw [replaceRuns, h]
  induction s with
  | nil => rfl
  | cons c s ih =>
    obtain ⟨hc, hs⟩ := List.forall_mem_cons.mp hs
    rw [List.foldr_cons, ih hs, safeStep, if_pos hc]

/-- What is kept of a name, unless nothing is. -/
theorem safeName_cases (name fallback : String) :
    safeName name fallback = fallback ∨ IsSafeName (safeName name fallback) := by
  unfold safeName
  dsimp only
  split_ifs with hempty
  · exact Or.inl rfl
  · refine Or.inr ⟨?_, ?_, ?_, ?_⟩
    · intro hnone
      rw [← String.toList_inj, String.toList_ofList] at hnone
      rw [hnone] at hempty
      contradiction
    · intro c hc
      rw [String.toList_ofList] at hc
      exact isSafe_iff.mp (isSafe_of_mem_replaceRuns (mem_of_mem_dropBoth hc))
    · intro c hc
      rw [String.toList_ofList] at hc
      exact isEdge_eq_false_iff.mp (head?_dropBoth hc)
    · intro c hc
      rw [String.toList_ofList] at hc
      exact isEdge_eq_false_iff.mp (getLast?_dropEndWhile hc)

/-- A safe name is made into itself. -/
theorem IsSafeName.safeName_eq
    {name : String} (h : IsSafeName name) (fallback : String) :
    safeName name fallback = name := by
  have htrim : trim name.toList = name.toList := by
    refine trim_eq_self (fun c hc => ?_) (fun c hc => ?_)
    · exact isBlank_of_isSafe (h.isSafe_of_mem (List.mem_of_head? hc))
    · exact isBlank_of_isSafe (h.isSafe_of_mem (List.mem_of_getLast? hc))
  have hstart : name.toList.dropWhile isEdge = name.toList :=
    dropWhile_eq_self fun c hc => isEdge_eq_false_iff.mpr (h.head c hc)
  have hend : dropEndWhile isEdge name.toList = name.toList :=
    dropEndWhile_eq_self fun c hc => isEdge_eq_false_iff.mpr (h.last c hc)
  unfold safeName
  rw [htrim, replaceRuns_eq_self fun c hc => h.isSafe_of_mem hc, hstart, hend]
  exact (if_neg (by simpa using h.ne_empty)).trans String.ofList_toList

/-- The safe names are what something is left of as it is. -/
theorem isSafeName_iff
    {name : String} :
    IsSafeName name ↔ name ≠ "" ∧ safeName name "" = name := by
  constructor
  · exact fun h => ⟨h.ne_empty, h.safeName_eq ""⟩
  · rintro ⟨hne, hname⟩
    rcases safeName_cases name "" with hempty | hsafe
    · exact absurd (hname.symm.trans hempty) hne
    · rwa [hname] at hsafe

example : safeName "  ../my part é.v2_ " "file" = "my_part_.v2" := by decide +kernel

/-! ## Names that are put together -/

theorem IsSafeName.ne_slash
    {name : String} {c : Char} (h : IsSafeName name) (hc : c ∈ name.toList) :
    c ≠ '/' := by
  rintro rfl
  exact absurd (h.isSafe_of_mem hc) (by decide)

/-- With an ending behind it a safe name is still one name. -/
theorem IsSafeName.isName_append
    {name ending : String} (h : IsSafeName name) (hfree : '/' ∉ ending.toList) :
    IsName (name ++ ending) := by
  have hfirst : ∀ t : String, t.toList.head? = some '.' → name ++ ending ≠ t := by
    rintro _ hpoint rfl
    rw [String.toList_append, List.head?_append_of_ne_nil _ (by simpa using h.ne_empty)] at hpoint
    exact (h.head _ hpoint).1 rfl
  refine ⟨?_, hfirst "." rfl, hfirst ".." rfl, ?_⟩
  · intro hempty
    exact h.ne_empty (String.append_eq_empty_iff.mp hempty).1
  · rw [String.toList_append, List.mem_append, not_or]
    exact ⟨fun hc => h.ne_slash hc rfl, hfree⟩

/-- Letters, digits and hyphens make a safe name. -/
theorem isSafeName_of_plain
    {name : String} (hne : name ≠ "") (hplain : ∀ c ∈ name.toList, c.isAlphanum = true ∨ c = '-') :
    IsSafeName name := by
  have hinner : ∀ c ∈ name.toList, c ≠ '.' ∧ c ≠ '_' := by
    intro c hc
    constructor
    · rintro rfl
      exact absurd (hplain _ hc) (by decide)
    · rintro rfl
      exact absurd (hplain _ hc) (by decide)
  refine ⟨hne, fun c hc => ?_, fun c hc => ?_, fun c hc => ?_⟩
  · rcases hplain c hc with hletter | hhyphen
    · exact Or.inl hletter
    · exact Or.inr (Or.inr (Or.inr hhyphen))
  · exact hinner c (List.mem_of_head? hc)
  · exact hinner c (List.mem_of_getLast? hc)

end SolidWorkshop.Storage
