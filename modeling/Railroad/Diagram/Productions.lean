import Railroad.Diagram.Visitor

/-!
# The productions of a diagram

Model of `Productions`: the names of the grammar rules that a diagram refers to, each once and in
the order in which a visit first meets them. One collection can go on over several diagrams.

* `Productions.add` puts a name at the end unless it is there already.
* `Productions.visitor` adds the text of every production token (`visit_token`).
* `Diagram.productions` are the names of one diagram (`Productions::collect`).
-/

namespace Railroad

namespace Productions

/-- The names with `name` at the end, or as they are if it is among them. -/
def add (names : List String) (name : String) : List String :=
  if name ∈ names then names else names ++ [name]

/-- Adds the text of every production token. -/
def visitor : Visitor (List String) where
  token := fun t names => if t.kind = .production then add names t.text else names

/-- The names after a further diagram. -/
def extend (names : List String) (d : Diagram) : List String :=
  visitor.visit d names

/-- The names after each of several diagrams, from `names` on. -/
def stages (names : List String) : List Diagram → List (List String)
  | [] => []
  | d :: rest => extend names d :: stages (extend names d) rest

end Productions

/-- The names of the grammar rules that a diagram refers to. -/
def Diagram.productions (d : Diagram) : List String :=
  Productions.extend [] d

end Railroad
