import Railroad.Source.Position

/-!
# Lexemes

Model of `Ident`, `Literal`, `Punct` and `Delimiter`, the smallest meaningful pieces of a source
text: words, lifetimes, literals, marks and delimiters. Every mark is a lexeme of its own, which
knows whether another mark follows it at once.
-/

namespace Railroad

/-- A word that names something. A raw word may be spelled like a keyword. -/
structure Ident where
  /-- The word is marked as raw. -/
  raw : Bool
  /-- The word without the mark. -/
  name : String
  deriving DecidableEq

/-- The word as it is written. -/
def Ident.spelling (i : Ident) : String :=
  if i.raw then "r#" ++ i.name else i.name

/-- What a literal stands for. -/
inductive Literal.Form where
  /-- A text with escapes. -/
  | text
  /-- A text without escapes between as many hash marks as given. -/
  | rawText (hashes : Nat)
  /-- Bytes, or a text for foreign functions. -/
  | bytes
  | character
  | number
  /-- Nothing that is known: `(/*ERROR*/)` stands where a literal could not be read. -/
  | unknown
  deriving DecidableEq

/-- A literal of a source text. -/
structure Literal where
  /-- What the literal stands for. -/
  form : Literal.Form
  /-- The literal as it is written. -/
  spelling : String
  deriving DecidableEq

/-- The kinds of brackets. -/
inductive Delimiter where
  | parenthesis
  | bracket
  | brace
  deriving DecidableEq

/-- The smallest meaningful piece of a source text. -/
inductive Lexeme where
  /-- A word. -/
  | ident (i : Ident) (place : Position)
  /-- A word after an apostrophe. -/
  | lifetime (i : Ident) (place : Position)
  | literal (l : Literal) (place : Position)
  /-- A mark; `joint` tells whether another mark follows at once. -/
  | mark (c : Char) (joint : Bool) (place : Position)
  | opening (d : Delimiter) (place : Position)
  | closing (d : Delimiter) (place : Position)

end Railroad
