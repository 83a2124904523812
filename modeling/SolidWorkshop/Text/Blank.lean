/-!
# Blank characters

Which characters count as white space, and how blank ends are trimmed from a text.  Texts that
are taken apart character by character are lists of characters throughout the library.
-/

namespace SolidWorkshop.Text

/-- The characters of white space: the six classic controls, the four information separators,
the next-line control, and the space and separator characters of Unicode.  The zero-width space
and the byte order mark are not blank. -/
def isBlank (c : Char) : Bool :=
  let n := c.toNat
  (9 ≤ n && n ≤ 13) || (0x1c ≤ n && n ≤ 0x20) || n == 0x85 || n == 0xa0 || n == 0x1680
    || (0x2000 ≤ n && n ≤ 0x200a) || n == 0x2028 || n == 0x2029 || n == 0x202f
    || n == 0x205f || n == 0x3000

/-- Without the blank characters at the start. -/
def trimStart (s : List Char) : List Char :=
  s.dropWhile isBlank

/-- Without the characters at the end that satisfy `p`. -/
def dropEndWhile (p : Char → Bool) (s : List Char) : List Char :=
  s.foldr (fun c rest => if rest.isEmpty && p c then [] else c :: rest) []

/-- Without the blank characters at the end. -/
def trimEnd (s : List Char) : List Char :=
  dropEndWhile isBlank s

/-- Without the blank characters at both ends. -/
def trim (s : List Char) : List Char :=
  trimEnd (trimStart s)

/-- A string without the blank characters at both ends. -/
def trimmed (s : String) : String :=
  String.ofList (trim s.toList)

@[simp] theorem dropEndWhile_nil (p : Char → Bool) : dropEndWhile p [] = [] := rfl

theorem dropEndWhile_cons (p : Char → Bool) (c : Char) (s : List Char) :
    dropEndWhile p (c :: s) =
      if (dropEndWhile p s).isEmpty && p c then [] else c :: dropEndWhile p s := rfl

end SolidWorkshop.Text
