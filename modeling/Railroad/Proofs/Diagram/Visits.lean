import Mathlib.Data.List.Basic
import Railroad.Diagram.Listing

/-!
# What visits meet

Visits and measures said through `Diagram.children`, whatever the kind of the root.

* `induction_on_children`: a property that passes from the children of every diagram to the diagram
  holds of all diagrams.
* `walk_eq_visitAll_children`: a visitor without handlers for the single kinds of node visits the
  children of the root, in order.
* `visit_each`: a visitor that acts at every node acts on all nodes of `Diagram.preorder` in turn.
  `visit_picking`: so does one that acts on what it picks out of the nodes.
* `tokens_eq`: the tokens that a visit lists are those among the nodes, hence those of the parts,
  one part after the other (`tokens_sequence`, `tokens_choice`, `tokens_loop`).
-/

namespace Railroad

namespace Diagram

/-! ## Induction over the children -/

mutual

theorem holds_of_children {P : Diagram → Prop} (step : ∀ d, (∀ c ∈ d.children, P c) → P d) :
    ∀ d, P d
  | .nothing => step _ fun _ hc => absurd hc List.not_mem_nil
  | .token _ => step _ fun _ hc => absurd hc List.not_mem_nil
  | .sequence parts => step _ (holds_of_children_all step parts)
  | .choice branches => step _ (holds_of_children_all step branches)
  | .loop body delimiter => step _ fun c hc => by
    rcases List.mem_cons.mp hc with h | hc
    · exact h ▸ holds_of_children step body
    · exact List.mem_singleton.mp hc ▸ holds_of_children step delimiter

theorem holds_of_children_all {P : Diagram → Prop} (step : ∀ d, (∀ c ∈ d.children, P c) → P d) :
    ∀ ds : List Diagram, ∀ c ∈ ds, P c
  | [], _, hc => absurd hc List.not_mem_nil
  | d :: rest, c, hc => by
    rcases List.mem_cons.mp hc with h | hc
    · exact h ▸ holds_of_children step d
    · exact holds_of_children_all step rest c hc

end

/-- **Induction over the children**, which are smaller than the diagram that they are parts of. -/
@[elab_as_elim]
theorem induction_on_children {P : Diagram → Prop} (d : Diagram)
    (step : ∀ d : Diagram, (∀ c ∈ d.children, P c) → P d) : P d :=
  holds_of_children step d

end Diagram

namespace Visitor

variable {σ : Type}

theorem visitAll_cons (v : Visitor σ) (d : Diagram) (rest : List Diagram) (s : σ) :
    v.visitAll (d :: rest) s = v.visitAll rest (v.visit d s) := rfl

/-- **A walk goes to the children**, if nothing is done at the single kinds of node. -/
theorem walk_eq_visitAll_children (node : Diagram → (σ → σ) → σ → σ) (d : Diagram) :
    ({ node := node } : Visitor σ).walk d = ({ node := node } : Visitor σ).visitAll d.children := by
  cases d <;> rfl

/-! ## Acting at every node -/

/-- Acts at every node and then walks on. -/
def each (act : Diagram → σ → σ) : Visitor σ where
  nothing := act .nothing
  token := fun t => act (.token t)
  sequence := fun parts walk s => walk (act (.sequence parts) s)
  choice := fun branches walk s => walk (act (.choice branches) s)
  loop := fun body delimiter walk s => walk (act (.loop body delimiter) s)

theorem visit_each_eq (act : Diagram → σ → σ) (d : Diagram) (s : σ) :
    (each act).visit d s = (each act).visitAll d.children (act d s) := by
  cases d <;> rfl

/-- **A visitor that acts at every node** acts on the nodes one after the other, each before its
parts. -/
theorem visit_each (act : Diagram → σ → σ) (d : Diagram) (s : σ) :
    (each act).visit d s = d.preorder.foldl (fun s node => act node s) s := by
  induction d using Diagram.induction_on_children generalizing s with
  | step d ih =>
    rw [visit_each_eq, visitAll_eq_foldl, Diagram.preorder_eq, List.foldl_cons, List.foldl_flatMap]
    exact List.foldl_ext _ _ _ fun s c hc => ih c hc s

/-- Acts on what is picked out of the nodes, and passes over all other nodes. -/
def picking {α : Type} (pick : Diagram → Option α) (act : σ → α → σ) : Visitor σ :=
  each fun node s =>
    match pick node with
    | some a => act s a
    | none => s

theorem visit_picking {α : Type} (pick : Diagram → Option α) (act : σ → α → σ) (d : Diagram)
    (s : σ) : (picking pick act).visit d s = (d.preorder.filterMap pick).foldl act s := by
  rw [picking, visit_each, List.foldl_filterMap]
  rfl

end Visitor

namespace Diagram

/-! ## Tokens -/

/-- **The tokens that a visit lists** are those among the nodes. -/
theorem tokens_eq (d : Diagram) : d.tokens = d.preorder.filterMap token? := by
  have hvisitor : Listing.tokens = Visitor.picking token? fun met t => met ++ [t] := rfl
  rw [tokens, hvisitor, Visitor.visit_picking, List.foldl_append_eq_append, List.nil_append,
    ← List.flatMap_def, ← List.map_eq_flatMap, List.map_id']

theorem tokens_eq_children (d : Diagram) :
    d.tokens = d.token?.toList ++ d.children.flatMap tokens := by
  have hparts : d.children.flatMap tokens =
      (d.children.flatMap preorder).filterMap token? := by
    simp only [funext tokens_eq, List.filterMap_flatMap]
  rw [tokens_eq, preorder_eq, hparts, List.filterMap_cons]
  cases d.token? <;> rfl

@[simp] theorem tokens_nothing : nothing.tokens = [] := rfl

@[simp] theorem tokens_token (t : Token) : (token t).tokens = [t] := rfl

@[simp] theorem tokens_sequence (parts : List Diagram) :
    (sequence parts).tokens = parts.flatMap tokens :=
  tokens_eq_children _

@[simp] theorem tokens_choice (branches : List Diagram) :
    (choice branches).tokens = branches.flatMap tokens :=
  tokens_eq_children _

@[simp] theorem tokens_loop (body delimiter : Diagram) :
    (loop body delimiter).tokens = body.tokens ++ delimiter.tokens := by
  rw [tokens_eq_children]
  simp [token?, children]

end Diagram

end Railroad
