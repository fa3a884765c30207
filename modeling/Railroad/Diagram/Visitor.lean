import Railroad.Diagram.Basic

/-!
# Visitors

Model of `Visitor`: a visitor says what to do at the nodes of a diagram, as a change of a state. At
a node with parts it is handed the walk over these parts and may take it, leave it out, or do
something before and after. A field that is not given only walks on.

* `Visitor.visit` goes through a whole diagram, parts in drawing order (`visit_component`).
* `Visitor.walk` enters the root without `node` (`walk_component`); `Visitor.walkParts` enters only
  what lies below the root, and treats a leaf as `walk` does (`walk_then`, `walk_or`, `walk_loop`).
* `visit_eq`: a visit is what is done at any node, around the walk into the root.
-/

namespace Railroad

/-- What to do at each node of a diagram, with a state of type `σ`. -/
structure Visitor (σ : Type) where
  /-- At any node, given the walk into it. -/
  node : Diagram → (σ → σ) → σ → σ := fun _ walk => walk
  /-- At an empty segment. -/
  nothing : σ → σ := id
  /-- At a token. -/
  token : Token → σ → σ := fun _ => id
  /-- At a sequence, given the walk over its parts. -/
  sequence : List Diagram → (σ → σ) → σ → σ := fun _ walk => walk
  /-- At a choice, given the walk over its branches. -/
  choice : List Diagram → (σ → σ) → σ → σ := fun _ walk => walk
  /-- At a loop, given the walk over body and delimiter. -/
  loop : Diagram → Diagram → (σ → σ) → σ → σ := fun _ _ walk => walk

namespace Visitor

variable {σ : Type}

mutual

/-- Visits a diagram. -/
def visit (v : Visitor σ) : Diagram → σ → σ
  | .nothing => v.node .nothing v.nothing
  | .token t => v.node (.token t) (v.token t)
  | .sequence parts => v.node (.sequence parts) (v.sequence parts (visitAll v parts))
  | .choice branches => v.node (.choice branches) (v.choice branches (visitAll v branches))
  | .loop body delimiter =>
    v.node (.loop body delimiter)
      (v.loop body delimiter fun s => visit v delimiter (visit v body s))

/-- Visits one diagram after the other. -/
def visitAll (v : Visitor σ) : List Diagram → σ → σ
  | [] => id
  | d :: rest => fun s => visitAll v rest (visit v d s)

end

/-- Walks into the root, without what the visitor does at nodes of any kind. -/
def walk (v : Visitor σ) : Diagram → σ → σ
  | .nothing => v.nothing
  | .token t => v.token t
  | .sequence parts => v.sequence parts (v.visitAll parts)
  | .choice branches => v.choice branches (v.visitAll branches)
  | .loop body delimiter => v.loop body delimiter (v.visitAll [body, delimiter])

/-- Walks over the parts of the root without visiting the root; a leaf has no parts to go to and
is walked into. -/
def walkParts (v : Visitor σ) : Diagram → σ → σ
  | .nothing => v.nothing
  | .token t => v.token t
  | .sequence parts => v.visitAll parts
  | .choice branches => v.visitAll branches
  | .loop body delimiter => v.visitAll [body, delimiter]

theorem visit_eq (v : Visitor σ) (d : Diagram) : v.visit d = v.node d (v.walk d) := by
  cases d <;> simp [visit, walk]
  rfl

theorem visitAll_eq_foldl (v : Visitor σ) (ds : List Diagram) (s : σ) :
    v.visitAll ds s = ds.foldl (fun s d => v.visit d s) s := by
  induction ds generalizing s with
  | nil => rfl
  | cons d rest ih => simp [visitAll, ih]

/-- Where a visit begins. -/
inductive Entry where
  /-- At the root, as at any other node. -/
  | visit
  /-- Inside the root. -/
  | walk
  /-- Below the root. -/
  | parts

/-- Goes through a diagram from the given place on. -/
def enter (v : Visitor σ) : Entry → Diagram → σ → σ
  | .visit => v.visit
  | .walk => v.walk
  | .parts => v.walkParts

end Visitor

end Railroad
