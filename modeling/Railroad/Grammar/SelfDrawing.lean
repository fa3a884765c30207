import Railroad.Grammar.Leaf

/-!
# Values that draw themselves

Model of the function `create_railroad`. Where the type of a value is known, so is how its values
are drawn, and `drawSelf` draws the value that way. A registry does the same for values whose type
is known only at run time.
-/

namespace Railroad

/-- The values of a type draw themselves. -/
class SelfDrawing (σ : Type) (α : Type) where
  /-- How a value is drawn. -/
  drawing : α → Drawing σ

/-- Draws a value as values of its type are drawn. -/
def drawSelf {σ α : Type} [SelfDrawing σ α] (value : α) (o : Options) : StateM σ Diagram :=
  SelfDrawing.drawing value o

/-- Grammar objects draw themselves if their leaves do. -/
instance {σ L : Type} [SelfDrawing σ L] : SelfDrawing σ (Grammar L) where
  drawing := Grammar.draw SelfDrawing.drawing

instance {σ : Type} [CallCounter σ] : SelfDrawing σ Leaf where
  drawing := Leaf.draw

end Railroad
