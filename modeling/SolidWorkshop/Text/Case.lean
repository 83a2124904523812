/-!
# Letter case

Capital and small forms of characters, as far as comparisons with ASCII words can tell them
apart: a character whose other form holds an ASCII letter is in the tables, and every other
non-ASCII character stands for itself, since neither it nor its other form is ASCII.
-/

namespace SolidWorkshop.Text

/-- The non-ASCII characters whose capital form holds an ASCII letter. -/
def capitalForms : List (Char × List Char) :=
  [('\u00df', ['S', 'S']), ('\u0131', ['I']), ('\u0149', ['\u02bc', 'N']), ('\u017f', ['S']),
   ('\u01f0', ['J', '\u030c']), ('\u1e96', ['H', '\u0331']), ('\u1e97', ['T', '\u0308']),
   ('\u1e98', ['W', '\u030a']), ('\u1e99', ['Y', '\u030a']), ('\u1e9a', ['A', '\u02be']),
   ('\ufb00', ['F', 'F']), ('\ufb01', ['F', 'I']), ('\ufb02', ['F', 'L']),
   ('\ufb03', ['F', 'F', 'I']), ('\ufb04', ['F', 'F', 'L']), ('\ufb05', ['S', 'T']),
   ('\ufb06', ['S', 'T'])]

/-- The capital form of a character. -/
def capital (c : Char) : List Char :=
  if c.toNat < 0x80 then [c.toUpper] else (capitalForms.lookup c).getD [c]

/-- The non-ASCII characters whose small form holds an ASCII letter. -/
def smallForms : List (Char × List Char) :=
  [('\u0130', ['i', '\u0307']), ('\u212a', ['k'])]

/-- The small form of a character. -/
def small (c : Char) : List Char :=
  if c.toNat < 0x80 then [c.toLower] else (smallForms.lookup c).getD [c]

/-- A text in capitals. -/
def capitals (s : List Char) : List Char :=
  s.flatMap capital

/-- A text in small letters. -/
def smalls (s : List Char) : List Char :=
  s.flatMap small

end SolidWorkshop.Text
