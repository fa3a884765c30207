/-!
# Positions in a source text

Model of where a `Span` starts. Lines are counted from 1 and columns from 0; a column is the number
of characters before it on its line.
-/

namespace Railroad

/-- A place in a source text. -/
structure Position where
  line : Nat
  column : Nat
  deriving DecidableEq

namespace Position

/-- The beginning of a text. -/
def start : Position := ⟨1, 0⟩

/-- The position after a character. -/
def after (p : Position) (c : Char) : Position :=
  if c = '\n' then ⟨p.line + 1, 0⟩ else ⟨p.line, p.column + 1⟩

/-- The position after several characters. -/
def past (p : Position) (cs : List Char) : Position :=
  cs.foldl after p

end Position

end Railroad
