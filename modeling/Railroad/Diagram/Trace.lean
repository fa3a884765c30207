import Railroad.Diagram.Visitor

/-!
# Traces

Model of the visitor `Trace`. The trace of a diagram notes every node in the order of a visit: of a
sequence or choice how many parts it has, of a token its code and text. Kinds of node can be pruned;
a pruned node is noted, and what lies below it is not.

* `Trace.visitor` notes the events.
* `Diagram.trace` is the trace of a whole diagram, `Trace.Event.text` the wording of one event.
-/

namespace Railroad

namespace Trace

/-- What is noted at one node. -/
inductive Event where
  | nothing
  | token (kind : TokenKind) (text : String)
  | sequence (parts : Nat)
  | choice (branches : Nat)
  | loop
  deriving DecidableEq

/-- The wording of an event. -/
def Event.text : Event → String
  | .nothing => "nothing"
  | .token kind text => "token/" ++ toString kind.code ++ "/" ++ text
  | .sequence parts => "then/" ++ toString parts
  | .choice branches => "or/" ++ toString branches
  | .loop => "loop"

/-- Notes the event of every node that has no pruned node above it. -/
def visitor (pruned : Diagram.Kind → Bool) : Visitor (List Event) where
  nothing := fun events => events ++ [.nothing]
  token := fun t events => events ++ [.token t.kind t.text]
  sequence := fun parts walk events =>
    let noted := events ++ [.sequence parts.length]
    if pruned .sequence then noted else walk noted
  choice := fun branches walk events =>
    let noted := events ++ [.choice branches.length]
    if pruned .choice then noted else walk noted
  loop := fun _ _ walk events =>
    let noted := events ++ [.loop]
    if pruned .loop then noted else walk noted

/-- Prunes nothing. -/
def unpruned : Diagram.Kind → Bool := fun _ => false

end Trace

/-- The events of all nodes in the order of a visit. -/
def Diagram.trace (d : Diagram) : List Trace.Event :=
  (Trace.visitor Trace.unpruned).visit d []

end Railroad
