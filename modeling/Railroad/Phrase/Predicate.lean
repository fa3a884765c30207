import Railroad.Phrase.Bound

/-!
# Predicates

What follows the word `where`: the bounds that lifetimes and types have to satisfy.

* `predicates` reads them up to the braces, the semicolon or the equals sign behind them.
-/

namespace Railroad.Phrase

variable (parts : Parts)

/-- The trees begin with a lifetime and a colon. -/
def startsWithBoundedLifetime : List TokenTree → Bool
  | .lifetime _ _ :: rest => startsWith [':'] rest
  | _ => false

/-- A predicate on a lifetime or a type. -/
def predicate : Reader Written := do
  if ← sees startsWithBoundedLifetime then inOrder [lifetime, mark ":", lifetimeBounds]
  else inOrder [binder? parts, parts (.type true), mark ":", parts .bounds]

/-- Predicates come to their end. -/
def endsPredicates (trees : List TokenTree) : Bool :=
  trees.isEmpty || startsWithGroup .brace trees || startsWith [';'] trees ||
    startsWith ['='] trees

/-- The predicates after the word `where`. -/
def predicates : Reader (List (Entry Written)) := do
  let _ ← word "where"
  entries (sees endsPredicates) (predicate parts)

end Railroad.Phrase
