import SolidWorkshop.Text.Blank

/-!
# Splitting texts

A text is cut at every occurrence of a character; joining the pieces with that character gives
the text back.  Positions that count from the end, and cuts by such positions, are here too.
-/

namespace SolidWorkshop.Text

/-- Put a character in front of the first piece, or start a new piece. -/
def splitStep (sep c : Char) : List (List Char) → List (List Char)
  | [] => if c = sep then [[], []] else [[c]]
  | piece :: pieces => if c = sep then [] :: piece :: pieces else (c :: piece) :: pieces

/-- The pieces between the occurrences of a character. -/
def splitOn (sep : Char) (s : List Char) : List (List Char) :=
  s.foldr (splitStep sep) [[]]

/-- The pieces with a character between them. -/
def joinWith (sep : Char) (pieces : List (List Char)) : List Char :=
  List.intercalate [sep] pieces

/-- The lines of a text. -/
def lines (s : List Char) : List (List Char) :=
  splitOn '\n' s

/-- The text of some lines. -/
def unlines (ls : List (List Char)) : List Char :=
  joinWith '\n' ls

/-- A position in a text of the given length; a negative one counts from the end, and every
position is brought inside the text. -/
def clip (length : Nat) (position : Int) : Nat :=
  if position < 0 then (length + position).toNat else min position.toNat length

/-- The place of an index in a list of the given length; a negative one counts from the end. -/
def place? (length : Nat) (index : Int) : Option Nat :=
  let at_ := if index < 0 then length + index else index
  if 0 ≤ at_ && at_ < length then some at_.toNat else none

/-- The text with the part between two positions replaced. -/
def replaceBetween (s : List Char) (start stop : Int) (middle : List Char) : List Char :=
  s.take (clip s.length start) ++ middle ++ s.drop (clip s.length stop)

/-- A text occurs in another one. -/
def occursIn (part : List Char) : List Char → Bool
  | [] => part.isEmpty
  | c :: rest => part.isPrefixOf (c :: rest) || occursIn part rest

theorem splitOn_ne_nil (sep : Char) (s : List Char) : splitOn sep s ≠ [] := by
  cases s with
  | nil => simp [splitOn]
  | cons c s =>
    simp only [splitOn, List.foldr_cons]
    cases s.foldr (splitStep sep) [[]] <;> simp only [splitStep] <;> split <;> simp

/-- A text is its pieces joined again. -/
theorem joinWith_splitOn (sep : Char) (s : List Char) : joinWith sep (splitOn sep s) = s := by
  induction s with
  | nil => rfl
  | cons c s ih =>
    have hne := splitOn_ne_nil sep s
    simp only [splitOn, List.foldr_cons] at ih hne ⊢
    cases h : s.foldr (splitStep sep) [[]] with
    | nil => exact absurd h hne
    | cons piece pieces =>
      rw [h] at ih
      by_cases hc : c = sep
      · subst hc
        simp only [splitStep, if_true, joinWith, List.intercalate] at ih ⊢
        simpa [List.intersperse] using ih
      · simp only [splitStep, hc, if_false, joinWith, List.intercalate] at ih ⊢
        cases pieces <;> simp_all [List.intersperse]

end SolidWorkshop.Text
