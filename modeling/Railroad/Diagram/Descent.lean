import Railroad.Diagram.Visitor

/-!
# Descents

A visitor that overrides `visit_component` and nothing else. A descent notes how a visit enters
every node and leaves it again, together with the level of the node; the root is at level 1, and the
parts of a node are one level below it.
-/

namespace Railroad

namespace Descent

/-- The visit enters a node or leaves it. -/
inductive Passage where
  | enter (node : Diagram) (level : Nat)
  | leave (node : Diagram) (level : Nat)
  deriving DecidableEq

/-- The wording of a passage. -/
def Passage.text : Passage → String
  | .enter node level => ">" ++ node.kind.name ++ "@" ++ toString level
  | .leave node level => "<" ++ node.kind.name ++ "@" ++ toString level

end Descent

/-- What a descent knows on its way: the level of the next node and the passages so far. -/
structure Descent where
  /-- The level of the node to be visited next. -/
  level : Nat := 1
  /-- What has been noted. -/
  passages : List Descent.Passage := []

namespace Descent

/-- Notes the passages of all nodes. -/
def visitor : Visitor Descent where
  node := fun d walk before =>
    let inside := walk ⟨before.level + 1, before.passages ++ [.enter d before.level]⟩
    ⟨inside.level - 1, inside.passages ++ [.leave d (inside.level - 1)]⟩

end Descent

end Railroad
