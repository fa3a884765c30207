import Railroad.Phrase.Reader

/-!
# Phrases

What is read as a `Type` of a field, and as the predicates and parameters in `Generics`: the parts
of a declaration that contain one another, types, bounds, expressions, patterns and blocks. A reader
of one of them is given the readers of all, for the parts inside.
-/

namespace Railroad

/-- A part of a declaration that other parts may contain. -/
inductive Phrase where
  /-- A type. `sums` allows several bounds with plus signs between them. -/
  | type (sums : Bool)
  /-- Bounds with plus signs between them, or none. -/
  | bounds
  /-- An expression. `records` allows a name with fields in braces at its end. -/
  | expression (records : Bool)
  /-- An expression at the beginning of a statement. It ends with a block it begins with. -/
  | leading
  /-- A pattern. `alternatives` allows several with bars between them. -/
  | pattern (alternatives : Bool)
  /-- Statements in braces. -/
  | block

namespace Phrase

/-- Readers of the phrases inside a phrase. -/
abbrev Parts := Phrase → Reader Written

end Phrase

end Railroad
