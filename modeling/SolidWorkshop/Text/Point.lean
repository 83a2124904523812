import SolidWorkshop.Text.Quoted

/-!
# Points

A text from outside may hold halves of surrogate pairs.  A half without the other one is no
character and has no encoding, so such a text is a row of points and never a string.
-/

namespace SolidWorkshop.Text

/-- A point of a text from outside. -/
inductive Point where
  | char (c : Char)
  /-- A half of a surrogate pair without the other half. -/
  | half (unit : Nat)
  deriving DecidableEq

namespace Point

/-- The point of a code. -/
def ofNat (unit : Nat) : Point :=
  if 0xd800 ≤ unit && unit < 0xe000 then .half unit else .char (Char.ofNat unit)

/-- The character that a point is. -/
def char? : Point → Option Char
  | .char c => some c
  | .half _ => none

/-- The half that a point is. -/
def half? : Point → Option Nat
  | .char _ => none
  | .half unit => some unit

/-- The character that stands for a point where only its place counts. -/
def shape : Point → Char
  | .char c => c
  | .half _ => '\ufffd'

/-- One point inside quotes. -/
def quoted (quote : Char) : Point → List Char
  | .char c => quotedChar quote c
  | .half unit => '\\' :: 'u' :: hex 4 unit

end Point

/-- The points of a string. -/
def points (s : String) : List Point :=
  s.toList.map .char

/-- The first half among some points. -/
def firstHalf? (ps : List Point) : Option Nat :=
  ps.findSome? Point.half?

/-- The string that some points are; none when there is a half among them. -/
def ofPoints? (ps : List Point) : Option String :=
  if (firstHalf? ps).isSome then none else some (String.ofList (ps.map Point.shape))

/-- Points between quotes. -/
def quotedPoints (ps : List Point) : List Char :=
  let quote := quoteFor (ps.map Point.shape)
  quote :: ps.flatMap (Point.quoted quote) ++ [quote]

theorem firstHalf?_points (s : String) : firstHalf? (points s) = none := by
  simp [firstHalf?, points, Point.half?]

theorem map_shape_points (s : String) : (points s).map Point.shape = s.toList := by
  simp [points, Point.shape, Function.comp_def]

/-- A string is read back from its points. -/
@[simp] theorem ofPoints?_points (s : String) : ofPoints? (points s) = some s := by
  simp [ofPoints?, firstHalf?_points, map_shape_points]

end SolidWorkshop.Text
