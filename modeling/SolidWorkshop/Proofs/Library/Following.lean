import Mathlib.Data.List.Infix
import SolidWorkshop.Library.Following

/-!
# What the client that follows directions does

The client of the service does what is documented of clients: it requests every address that it
takes, it goes on only where an answer directs it, and it takes no address with a control character
or a half of a surrogate pair in it.
-/

namespace SolidWorkshop.Library

variable {text : List Text.Point}

/-- A text that holds a control character is no address. -/
theorem exists_ofText_eq_error
    {text : String} {ch : Char} (hmem : ch ∈ text.toList) (hcontrol : Url.isControl ch = true) :
    ∃ reason, Url.ofText text = .error reason := by
  unfold Url.ofText
  dsimp only
  split_ifs
  · exact ⟨_, rfl⟩
  · cases hfind : text.toList.find? Url.isControl with
    | some c => exact ⟨_, rfl⟩
    | none => exact absurd hcontrol (List.find?_eq_none.mp hfind ch hmem)

/-- An address is refused for what it is, or for a half in it, or it is requested. -/
theorem request_cases (manual : String) (text : List Text.Point) :
    (∃ failure, request manual text = .ended (.error (.refused failure))) ∨
      ∃ u, request manual text = follow manual maxDirections u := by
  unfold request
  split
  · exact Or.inl ⟨_, rfl⟩
  · split
    · exact Or.inl ⟨_, rfl⟩
    · exact Or.inr ⟨_, rfl⟩

theorem request_of_isControl
    {ch : Char} (hmem : .char ch ∈ text) (hcontrol : Url.isControl ch = true) (manual : String) :
    ∃ reason, request manual text = .ended (.error (.refused (.urlRefused reason))) := by
  have hshape : ch ∈ (String.ofList (text.map Text.Point.shape)).toList := by
    rw [String.toList_ofList]
    exact List.mem_map.mpr ⟨.char ch, hmem, rfl⟩
  obtain ⟨reason, hread⟩ := exists_ofText_eq_error hshape hcontrol
  exact ⟨reason, by rw [request, hread]⟩

theorem request_of_half
    {unit : Nat} (hmem : .half unit ∈ text) (manual : String) :
    ∃ failure, request manual text = .ended (.error (.refused failure)) := by
  unfold request
  split
  · exact ⟨_, rfl⟩
  · split
    · exact ⟨_, rfl⟩
    · next hnone => exact absurd (List.findSome?_eq_none_iff.mp hnone _ hmem) nofun

/-- Directions are followed one after another, and nothing else is. -/
theorem isDirected_follow (manual : String) (left : Nat) (u : Url) :
    (follow manual left u).IsDirected := by
  induction left using Nat.strong_induction_on generalizing u with
  | _ left ih =>
    unfold follow
    intro answer
    cases answer with
    | broken reason => exact ⟨trivial, fun _ => ⟨_, rfl⟩⟩
    | reply status location body =>
      dsimp only
      split
      · next place hplace =>
        obtain ⟨hdirects, rfl⟩ := Option.ite_none_right_eq_some.mp hplace
        refine ⟨?_, fun hno => absurd ⟨_, _, _, rfl, List.contains_iff_mem.mp hdirects⟩ hno⟩
        split
        · trivial
        · split
          · trivial
          · cases left with
            | zero => trivial
            | succ less => exact ih less (Nat.lt_succ_self less) _
      · exact ⟨trivial, fun _ => ⟨_, rfl⟩⟩

/-- The client that follows directions does what is documented of clients. -/
theorem isRegular_following (manual : String) : (following manual).IsRegular where
  requests := by
    intro text result hget
    rcases request_cases manual text with ⟨failure, h⟩ | ⟨u, h⟩
    · exact ⟨failure, Exchange.ended.inj (hget.symm.trans h)⟩
    · have hfollow := hget.symm.trans h
      unfold follow at hfollow
      contradiction
  directed := by
    intro text
    change (request manual text).IsDirected
    rcases request_cases manual text with ⟨failure, h⟩ | ⟨u, h⟩
    · rw [h]
      trivial
    · rw [h]
      exact isDirected_follow manual maxDirections u
  refuses := by
    intro text p hmem hforeign
    cases p with
    | half unit => exact request_of_half hmem manual
    | char ch =>
      obtain ⟨reason, h⟩ := request_of_isControl hmem hforeign manual
      exact ⟨_, h⟩

end SolidWorkshop.Library
