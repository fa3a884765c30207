import Railroad.Phrase.Statement

/-!
# Reading phrases

A phrase is read by the rule for its kind, which reads the phrases inside in the same way.

* `Phrase.read` is the reader of a phrase. Phrases lie inside one another no deeper than there are
  lexemes, which bounds the recursion.
-/

namespace Railroad.Phrase

/-- The reader of a phrase, given readers of the phrases inside. -/
def rule (parts : Parts) : Phrase → Reader Written
  | .type sums => readType parts sums
  | .bounds => readBounds parts
  | .expression records => readExpression parts records
  | .leading => readLeading parts
  | .pattern alternatives => readPattern parts alternatives
  | .block => readBlock parts

/-- The reader of a phrase with at most `depth` phrases inside one another. -/
def readWithin : (depth : Nat) → Parts
  | 0, _ => failure
  | depth + 1, phrase => rule (readWithin depth) phrase

/-- Reads something that contains phrases. -/
def withPhrases {α : Type} (reader : Parts → Reader α) : Reader α := fun trees =>
  reader (readWithin (TokenTree.sizes trees + 1)) trees

/-- The reader of a phrase. -/
def read (phrase : Phrase) : Reader Written :=
  withPhrases fun parts => parts phrase

end Railroad.Phrase
