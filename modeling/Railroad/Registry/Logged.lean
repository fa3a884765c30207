import Railroad.Registry.Basic

/-!
# States with a log

The reports of registries are kept in a list beside the state of the drawings, in the order in which
they are made. Drawings work on their own state and leave the log alone.
-/

namespace Railroad

variable {κ : Type}

instance : Registry.Recorder (κ × List Registry.Event) where
  record := fun event s => (s.1, s.2 ++ [event])

/-- The same drawing where a log stands beside the state. -/
def Drawing.logged (drawing : Drawing κ) : Drawing (κ × List Registry.Event) :=
  fun o s =>
    let (d, after) := (drawing o).run s.1
    (d, after, s.2)

/-- The same types where a log stands beside the state of their drawings. -/
def TypeSystem.logged (S : TypeSystem κ) : TypeSystem (κ × List Registry.Event) where
  Ty := S.Ty
  decEq := S.decEq
  name := S.name
  identity := S.identity
  Value := S.Value
  drawing := fun t => (S.drawing t).map fun draw value => Drawing.logged (draw value)

end Railroad
