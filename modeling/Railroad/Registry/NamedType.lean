import Railroad.Grammar.Leaf
import Railroad.Registry.Basic

/-!
# Types known by name

A type system whose types are told apart by their names. The values of a drawable type are grammar
objects with ready-made leaves; the values of a plain type cannot be drawn, and nothing is kept of
them.
-/

namespace Railroad

/-- A type known by its name. -/
inductive NamedType where
  /-- A type of grammar objects. -/
  | drawable (name : String)
  /-- A type without drawings. -/
  | plain (name : String)
  deriving DecidableEq

namespace NamedType

/-- The name of a type. -/
def name : NamedType → String
  | .drawable name => name
  | .plain name => name

/-- The values of a type. -/
def Value : NamedType → Type
  | .drawable _ => Grammar Leaf
  | .plain _ => Unit

/-- How the values of a type are drawn. -/
def drawing {σ : Type} [CallCounter σ] : (t : NamedType) → Option (t.Value → Drawing σ)
  | .drawable _ => some fun g => Grammar.draw Leaf.draw g
  | .plain _ => none

/-- The types known by name, of which `identity` is shown when the name is not. -/
abbrev system (σ : Type) [CallCounter σ] (identity : String) : TypeSystem σ where
  Ty := NamedType
  decEq := inferInstance
  name := name
  identity := fun _ => identity
  Value := Value
  drawing := drawing

end NamedType

end Railroad
