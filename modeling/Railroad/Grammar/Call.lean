import Railroad.Grammar.Basic

/-!
# Calls of leaves

A drawing calls the leaves of its object. `Grammar.recording` draws leaves with a record of the
calls beside the state, `Grammar.calls` are the calls of one drawing, and `Grammar.leaves` lists the
leaves of an object without drawing it.
-/

namespace Railroad.Grammar

variable {L σ : Type}

/-- One call of a leaf. -/
structure Call (L σ : Type) where
  /-- The leaf that is called. -/
  leaf : L
  /-- The options that it is given. -/
  options : Options
  /-- The state in which it begins. -/
  before : σ
  /-- The diagram that it returns. -/
  drawn : Diagram
  /-- The state in which it ends. -/
  after : σ

/-- Draws leaves as `leaf` does and notes each call at the end of a list. -/
def recording (leaf : L → Drawing σ) : L → Drawing (σ × List (Call L σ)) :=
  fun l o state =>
    let (d, after) := (leaf l o).run state.1
    pure (d, after, state.2 ++ [⟨l, o, state.1, d, after⟩])

/-- The calls of leaves in one drawing, in order. -/
def calls (leaf : L → Drawing σ) (g : Grammar L) (o : Options) (s : σ) : List (Call L σ) :=
  ((draw (recording leaf) g o).run (s, [])).2.2

mutual

/-- The leaves of an object, each once for every place in which it stands, from left to right and of
a repetition the body before the delimiter. An object drawn as often as an option says stands in
that many places. -/
def leaves : Grammar L → Options → List L
  | .leaf l, _ => [l]
  | .held _ x, o => leaves x o
  | .present x, o => leaves x o
  | .absent, _ => []
  | .row _ xs, o => leavesAll xs o
  | .first xs, o => leavesAll xs o
  | .optional x, o => leaves x o
  | .oneOrMore x, o => leaves x o
  | .zeroOrMore x, o => leaves x o
  | .separated x delimiter, o => leaves x o ++ leaves delimiter o
  | .adjusted name value x, o => leaves x (o.set name value)
  | .repeated name x, o => (List.replicate (repetitions name o) (leaves x o)).flatten

/-- The leaves of one object after the other. -/
def leavesAll : List (Grammar L) → Options → List L
  | [], _ => []
  | x :: rest, o => leaves x o ++ leavesAll rest o

end

end Railroad.Grammar
