/-!
# Characters of source text

The classes of characters that separate and form the words of a source text. Beyond ASCII, a
character is blank if Unicode calls it white space or it is a direction mark, and otherwise belongs
to a word: no other character occurs outside comments and literals of a well-formed source.
-/

namespace Railroad.Source

/-- Blank characters beyond ASCII. -/
def wideBlanks : List Char :=
  ['\u0085', '\u00a0', '\u1680', '\u2000', '\u2001', '\u2002', '\u2003', '\u2004', '\u2005',
   '\u2006', '\u2007', '\u2008', '\u2009', '\u200a', '\u200e', '\u200f', '\u2028', '\u2029',
   '\u202f', '\u205f', '\u3000']

/-- Separates words. -/
def isBlank (c : Char) : Bool :=
  c = ' ' || (0x09 ≤ c.toNat && c.toNat ≤ 0x0d) || wideBlanks.contains c

/-- Begins a word. -/
def beginsWord (c : Char) : Bool :=
  c.isAlpha || c = '_' || (0x80 ≤ c.toNat && !wideBlanks.contains c)

/-- Continues a word. -/
def continuesWord (c : Char) : Bool :=
  beginsWord c || c.isDigit

/-- The marks that stand for themselves. -/
def marks : List Char :=
  ['~', '!', '@', '#', '$', '%', '^', '&', '*', '-', '=', '+', '|', ';', ':', ',', '<', '.', '>',
   '/', '?']

end Railroad.Source
