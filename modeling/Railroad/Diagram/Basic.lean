import Railroad.Token

/-!
# Railroad diagrams

Model of `Component`: a diagram is a tree of five kinds of node. A sequence (`Then`) is drawn from
left to right, a choice lists its branches in order, and a loop repeats its body with the delimiter
drawn on the way back.

* `Diagram.children`: the direct parts in drawing order, of a loop the body and then the delimiter.
* `Diagram.depth` and `Diagram.nodeCount` measure the tree; `depth_eq` and `nodeCount_eq` say both
  in terms of the children.
* `Diagram.preorder`: every node, each before its parts.
-/

namespace Railroad

/-- A railroad diagram. -/
inductive Diagram where
  /-- A straight line with nothing on it. -/
  | nothing
  /-- A terminal element. -/
  | token (token : Token)
  /-- Parts drawn from left to right. -/
  | sequence (parts : List Diagram)
  /-- Alternative branches. -/
  | choice (branches : List Diagram)
  /-- A body repeated one or more times with a delimiter in between. -/
  | loop (body delimiter : Diagram)

namespace Diagram

/-- The kind of the node at the root of a diagram. -/
inductive Kind where
  | nothing
  | token
  | sequence
  | choice
  | loop
  deriving DecidableEq

/-- The name of a kind of node as it is shown. -/
def Kind.name : Kind → String
  | .nothing => "Nothing"
  | .token => "Token"
  | .sequence => "Then"
  | .choice => "Or"
  | .loop => "Loop"

/-- The kind of the root. -/
def kind : Diagram → Kind
  | .nothing => .nothing
  | .token _ => .token
  | .sequence _ => .sequence
  | .choice _ => .choice
  | .loop _ _ => .loop

/-! ## Building -/

/-- A choice between nothing and `d`. -/
def optional (d : Diagram) : Diagram :=
  .choice [.nothing, d]

/-- `d` repeated, with nothing in between. -/
def oneOrMore (d : Diagram) : Diagram :=
  .loop d .nothing

/-- Nothing, or `d` repeated. -/
def zeroOrMore (d : Diagram) : Diagram :=
  optional (oneOrMore d)

/-- `d` repeated with `delimiter` in between. -/
def separated (d delimiter : Diagram) : Diagram :=
  .loop d delimiter

/-! ## Looking at the root -/

/-- The root is an empty segment. -/
def isNothing : Diagram → Bool
  | .nothing => true
  | _ => false

/-- The token, if the root is one. -/
def token? : Diagram → Option Token
  | .token t => some t
  | _ => none

/-- The parts, if the root is a sequence. -/
def sequence? : Diagram → Option (List Diagram)
  | .sequence parts => some parts
  | _ => none

/-- The branches, if the root is a choice. -/
def choice? : Diagram → Option (List Diagram)
  | .choice branches => some branches
  | _ => none

/-- Body and delimiter, if the root is a loop. -/
def loop? : Diagram → Option (Diagram × Diagram)
  | .loop body delimiter => some (body, delimiter)
  | _ => none

/-- The direct parts in drawing order. -/
def children : Diagram → List Diagram
  | .nothing => []
  | .token _ => []
  | .sequence parts => parts
  | .choice branches => branches
  | .loop body delimiter => [body, delimiter]

/-! ## Equality -/

mutual

/-- Diagrams are compared node by node. -/
def decEq : (a b : Diagram) → Decidable (a = b)
  | .nothing, .nothing => isTrue rfl
  | .token s, .token t =>
    if h : s = t then isTrue (by rw [h]) else isFalse (by simp [h])
  | .sequence xs, .sequence ys =>
    match decEqList xs ys with
    | isTrue h => isTrue (by rw [h])
    | isFalse h => isFalse (by simp [h])
  | .choice xs, .choice ys =>
    match decEqList xs ys with
    | isTrue h => isTrue (by rw [h])
    | isFalse h => isFalse (by simp [h])
  | .loop x y, .loop z w =>
    match decEq x z with
    | isTrue h =>
      match decEq y w with
      | isTrue k => isTrue (by rw [h, k])
      | isFalse k => isFalse (by simp [k])
    | isFalse h => isFalse (by simp [h])
  | .nothing, .token _ | .nothing, .sequence _ | .nothing, .choice _ | .nothing, .loop _ _
  | .token _, .nothing | .token _, .sequence _ | .token _, .choice _ | .token _, .loop _ _
  | .sequence _, .nothing | .sequence _, .token _ | .sequence _, .choice _
  | .sequence _, .loop _ _ | .choice _, .nothing | .choice _, .token _ | .choice _, .sequence _
  | .choice _, .loop _ _ | .loop _ _, .nothing | .loop _ _, .token _ | .loop _ _, .sequence _
  | .loop _ _, .choice _ => isFalse (by simp)

/-- Lists of diagrams are compared part by part. -/
def decEqList : (xs ys : List Diagram) → Decidable (xs = ys)
  | [], [] => isTrue rfl
  | [], _ :: _ => isFalse (by simp)
  | _ :: _, [] => isFalse (by simp)
  | x :: xs, y :: ys =>
    match decEq x y with
    | isTrue h =>
      match decEqList xs ys with
      | isTrue k => isTrue (by rw [h, k])
      | isFalse k => isFalse (by simp [k])
    | isFalse h => isFalse (by simp [h])

end

instance : DecidableEq Diagram := decEq

/-! ## Measures -/

mutual

/-- The number of nodes on the longest way down; a leaf has depth 1. -/
def depth : Diagram → Nat
  | .nothing => 1
  | .token _ => 1
  | .sequence parts => 1 + maxDepth parts
  | .choice branches => 1 + maxDepth branches
  | .loop body delimiter => 1 + max (depth body) (depth delimiter)

/-- The greatest depth in a list, 0 if it is empty. -/
def maxDepth : List Diagram → Nat
  | [] => 0
  | d :: rest => max (depth d) (maxDepth rest)

end

mutual

/-- The number of nodes, the root included. -/
def nodeCount : Diagram → Nat
  | .nothing => 1
  | .token _ => 1
  | .sequence parts => 1 + totalCount parts
  | .choice branches => 1 + totalCount branches
  | .loop body delimiter => 1 + (nodeCount body + nodeCount delimiter)

/-- The number of nodes of all diagrams in a list. -/
def totalCount : List Diagram → Nat
  | [] => 0
  | d :: rest => nodeCount d + totalCount rest

end

theorem depth_eq (d : Diagram) : d.depth = 1 + maxDepth d.children := by
  cases d <;> simp [depth, maxDepth, children]

theorem nodeCount_eq (d : Diagram) : d.nodeCount = 1 + totalCount d.children := by
  cases d <;> simp [nodeCount, totalCount, children]

/-! ## All nodes -/

mutual

/-- Every node of the tree, each before its parts. -/
def preorder : Diagram → List Diagram
  | .nothing => [.nothing]
  | .token t => [.token t]
  | .sequence parts => .sequence parts :: preorderAll parts
  | .choice branches => .choice branches :: preorderAll branches
  | .loop body delimiter => .loop body delimiter :: (preorder body ++ preorder delimiter)

/-- The nodes of one tree after the other. -/
def preorderAll : List Diagram → List Diagram
  | [] => []
  | d :: rest => preorder d ++ preorderAll rest

end

theorem preorderAll_eq_flatMap (ds : List Diagram) : preorderAll ds = ds.flatMap preorder := by
  induction ds with
  | nil => rfl
  | cons d rest ih => simp [preorderAll, ih]

theorem preorder_eq (d : Diagram) : d.preorder = d :: d.children.flatMap preorder := by
  cases d <;> simp [preorder, children, preorderAll_eq_flatMap]

end Diagram

end Railroad
