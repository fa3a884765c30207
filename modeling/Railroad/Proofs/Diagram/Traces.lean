import Railroad.Diagram.Trace
import Railroad.Proofs.Diagram.Visits

/-!
# Traces as a code for diagrams

A trace is prefix notation: every event tells how many parts are still to come, so a trace says
itself where it ends. Read from its end it is postfix notation, and a stack of diagrams is enough
to rebuild what it was taken from.

* `trace_eq_map`: a trace holds the event of every node, each before its parts.
* `Trace.rebuild`: the diagrams of a list of events. `foldr_place_trace`: the trace of a diagram
  puts that diagram on the stack, whatever comes after the trace.
* `Event.ofText?_text`: an event can be read from its wording, whatever the text of a token.
* `trace_is_prefix_free`: the wording of a trace is a prefix-free code for diagrams.
-/

namespace Railroad

namespace Trace

/-! ## Events in order -/

/-- What is noted at a node. -/
def Event.ofNode : Diagram → Event
  | .nothing => .nothing
  | .token t => .token t.kind t.text
  | .sequence parts => .sequence parts.length
  | .choice branches => .choice branches.length
  | .loop _ _ => .loop

end Trace

open Trace (Event)

namespace Diagram

/-- **A trace** holds the event of every node, each before its parts. -/
theorem trace_eq_map (d : Diagram) : d.trace = d.preorder.map Event.ofNode := by
  have hvisitor : Trace.visitor Trace.unpruned =
      Visitor.each fun node events => events ++ [Event.ofNode node] := rfl
  rw [trace, hvisitor, Visitor.visit_each, List.foldl_append_eq_append, List.nil_append,
    ← List.flatMap_def, ← List.map_eq_flatMap]

theorem trace_eq_cons (d : Diagram) : d.trace = Event.ofNode d :: d.children.flatMap trace := by
  simp only [funext trace_eq_map, d.preorder_eq, List.map_cons, List.map_flatMap]

end Diagram

namespace Trace

/-! ## Reading traces -/

/-- Puts the node of an event on a stack of diagrams, with its parts taken from the top, the first
part topmost. -/
def place : Event → List Diagram → List Diagram
  | .nothing, stack => .nothing :: stack
  | .token kind text, stack => .token ⟨kind, text⟩ :: stack
  | .sequence parts, stack => .sequence (stack.take parts) :: stack.drop parts
  | .choice branches, stack => .choice (stack.take branches) :: stack.drop branches
  | .loop, body :: delimiter :: stack => .loop body delimiter :: stack
  -- in a trace the two parts come after the event of their loop
  | .loop, stack => stack

/-- The diagrams whose traces make up a list of events, read from the end. -/
def rebuild (events : List Event) : List Diagram :=
  events.foldr place []

theorem place_ofNode (d : Diagram) (stack : List Diagram) :
    place (Event.ofNode d) (d.children ++ stack) = d :: stack := by
  cases d with
  | nothing => rfl
  | token t => rfl
  | sequence parts => simp [place, Event.ofNode, Diagram.children]
  | choice branches => simp [place, Event.ofNode, Diagram.children]
  | loop body delimiter => rfl

theorem foldr_place_flatMap {ds : List Diagram}
    (h : ∀ d ∈ ds, ∀ stack, d.trace.foldr place stack = d :: stack) (stack : List Diagram) :
    (ds.flatMap Diagram.trace).foldr place stack = ds ++ stack := by
  induction ds with
  | nil => rfl
  | cons d rest ih =>
    have hrest := ih fun c hc => h c (List.mem_cons_of_mem d hc)
    rw [List.flatMap_cons, List.foldr_append, hrest, h d List.mem_cons_self, List.cons_append]

/-- **The trace of a diagram puts it on the stack**, whatever the stack is. -/
theorem foldr_place_trace (d : Diagram) (stack : List Diagram) :
    d.trace.foldr place stack = d :: stack := by
  induction d using Diagram.induction_on_children generalizing stack with
  | step d ih =>
    have hchildren := foldr_place_flatMap ih stack
    rw [Diagram.trace_eq_cons, List.foldr_cons, hchildren, place_ofNode]

/-- What comes after a trace is rebuilt as it would be without the trace. -/
theorem rebuild_trace_append (d : Diagram) (events : List Event) :
    rebuild (d.trace ++ events) = d :: rebuild events := by
  unfold rebuild
  rw [List.foldr_append, foldr_place_trace]

/-! ## Reading the wording -/

/-- The number that is written with the given digits. -/
def numeral (digits : List Char) : Nat :=
  Nat.ofDigitChars 10 digits 0

theorem numeral_toString (n : Nat) : numeral (toString n).toList = n := by
  rw [numeral, Nat.toString_eq_repr, Nat.toList_repr, Nat.ofDigitChars_ten_toDigits]

/-- Reads the wording of an event. -/
def Event.ofText? (wording : String) : Option Event :=
  match wording.toList with
  | ['n', 'o', 't', 'h', 'i', 'n', 'g'] => some .nothing
  | ['l', 'o', 'o', 'p'] => some .loop
  | 't' :: 'h' :: 'e' :: 'n' :: '/' :: digits => some (.sequence (numeral digits))
  | 'o' :: 'r' :: '/' :: digits => some (.choice (numeral digits))
  | 't' :: 'o' :: 'k' :: 'e' :: 'n' :: '/' :: digit :: '/' :: text =>
    (TokenKind.all.find? fun kind => decide (kind.code = numeral [digit])).map fun kind =>
      .token kind (String.ofList text)
  | _ => none

/-- **An event can be read from its wording**, whatever the text of a token. -/
theorem Event.ofText?_text (event : Event) : Event.ofText? event.text = some event := by
  cases event with
  | nothing => rfl
  | token kind text =>
    have hwording : (Event.token kind text).text.toList =
        't' :: 'o' :: 'k' :: 'e' :: 'n' :: '/' :: Nat.digitChar kind.code :: '/' :: text.toList := by
      cases kind <;> simp [Event.text, String.toList_append] <;> rfl
    simp only [Event.ofText?, hwording, String.ofList_toList]
    cases kind <;> rfl
  | sequence parts =>
    have hwording : (Event.sequence parts).text.toList =
        't' :: 'h' :: 'e' :: 'n' :: '/' :: (toString parts).toList := String.toList_append
    simp only [Event.ofText?, hwording, numeral_toString]
  | choice branches =>
    have hwording : (Event.choice branches).text.toList =
        'o' :: 'r' :: '/' :: (toString branches).toList := String.toList_append
    simp only [Event.ofText?, hwording, numeral_toString]
  | loop => rfl

/-! ## Wordings of traces -/

/-- The wording of the trace of a diagram. -/
def texts (d : Diagram) : List String :=
  d.trace.map Event.text

/-- The diagrams whose traces, one after the other, are worded by a list of texts. -/
def ofTexts (wordings : List String) : List Diagram :=
  rebuild (wordings.filterMap Event.ofText?)

theorem filterMap_ofText?_texts (d : Diagram) : (texts d).filterMap Event.ofText? = d.trace := by
  have hread : (Event.ofText? ∘ Event.text) = some := funext Event.ofText?_text
  rw [texts, List.filterMap_map, hread, List.filterMap_some]

theorem ofTexts_append (d : Diagram) (wordings : List String) :
    ofTexts (texts d ++ wordings) = d :: ofTexts wordings := by
  unfold ofTexts
  rw [List.filterMap_append, filterMap_ofText?_texts, rebuild_trace_append]

theorem ofTexts_flatMap (ds : List Diagram) : ofTexts (ds.flatMap texts) = ds := by
  induction ds with
  | nil => rfl
  | cons d rest ih => rw [List.flatMap_cons, ofTexts_append, ih]

/-- One trace cannot be the beginning of another. -/
theorem texts_append_inj {a b : Diagram} {r s : List String}
    (h : texts a ++ r = texts b ++ s) : a = b ∧ r = s := by
  have hrebuilt : a :: ofTexts r = b :: ofTexts s := by
    rw [← ofTexts_append, ← ofTexts_append, h]
  have hab : a = b := (List.cons.inj hrebuilt).1
  subst hab
  exact ⟨rfl, List.append_cancel_left h⟩

/-- **The trace is a prefix-free code for diagrams.** Diagrams with one trace are equal; where two
lists of texts begin with traces, both the diagrams and the rests can be told from the whole; and a
diagram, or several of them, can be rebuilt from the wording of their traces. -/
theorem trace_is_prefix_free :
    (∀ a b : Diagram, a = b ↔ texts a = texts b) ∧
    (∀ (a b : Diagram) (r s : List String), texts a ++ r = texts b ++ s ↔ a = b ∧ r = s) ∧
    (∀ d : Diagram, ofTexts (texts d) = [d]) ∧
    ∀ ds : List Diagram, ofTexts (ds.flatMap texts) = ds := by
  refine ⟨fun a b => ⟨congrArg texts, fun h => ?_⟩, fun a b r s => ⟨texts_append_inj, ?_⟩,
    fun d => ?_, ofTexts_flatMap⟩
  · exact (texts_append_inj (congrArg (· ++ []) h)).1
  · rintro ⟨rfl, rfl⟩
    rfl
  · have h := ofTexts_append d []
    rwa [List.append_nil] at h

-- a token may hold the wording of another event
example : texts (.choice [.token (.literal "or/2"), .nothing]) =
    ["or/2", "token/2/or/2", "nothing"] := by
  rfl

end Trace

end Railroad
