import Mathlib.Data.List.Chain
import Railroad.Proofs.Diagram.Visits

/-!
# Visits that are cut off

A visitor acts at every node and then walks on, unless the node is of a kind that is pruned. What
lies below a pruned node is not reached, so a node is acted on if no node above it is pruned. Nodes
are told apart by their places: equal parts of a diagram may stand below different nodes.

* `Diagram.placed`: every node with the nodes above it. `way_of_mem_placed`: these are the nodes on
  the way down from the root.
* `Diagram.visible`: the nodes without a pruned node above them; `Diagram.visibleBelow` leaves the
  root out of account.
* `Visitor.visit_pruning`: what a visit does that is cut off.
* `pruned_visit_folds`: the same from every place at which a visitor can begin.
-/

namespace Railroad

namespace Diagram

/-! ## Nodes at their places -/

/-- A node of a diagram at its place. -/
structure Placed where
  /-- The nodes above it, the root first. -/
  above : List Diagram
  /-- The node itself. -/
  node : Diagram
  deriving DecidableEq

/-- The place in a diagram of which the whole is a part. -/
def Placed.under (root : Diagram) (p : Placed) : Placed :=
  ⟨root :: p.above, p.node⟩

mutual

/-- Every node at its place, each before its parts. -/
def placed : Diagram → List Placed
  | .nothing => [⟨[], .nothing⟩]
  | .token t => [⟨[], .token t⟩]
  | .sequence parts => ⟨[], .sequence parts⟩ :: (placedAll parts).map (.under (.sequence parts))
  | .choice branches =>
    ⟨[], .choice branches⟩ :: (placedAll branches).map (.under (.choice branches))
  | .loop body delimiter =>
    ⟨[], .loop body delimiter⟩ ::
      (placed body ++ placed delimiter).map (.under (.loop body delimiter))

/-- The nodes of one diagram after the other. -/
def placedAll : List Diagram → List Placed
  | [] => []
  | d :: rest => placed d ++ placedAll rest

end

theorem placedAll_eq_flatMap (ds : List Diagram) : placedAll ds = ds.flatMap placed := by
  induction ds with
  | nil => rfl
  | cons d rest ih => simp [placedAll, ih]

theorem placed_eq (d : Diagram) :
    d.placed = ⟨[], d⟩ :: (d.children.flatMap placed).map (.under d) := by
  cases d <;> simp [placed, children, placedAll_eq_flatMap]

/-- **Every node has one place**, and the places are in the order of a visit. -/
theorem map_node_placed (d : Diagram) : d.placed.map Placed.node = d.preorder := by
  induction d using induction_on_children with
  | step d ih =>
    rw [placed_eq, preorder_eq, List.map_cons, List.map_map, List.map_flatMap]
    exact congrArg (d :: ·) (List.flatMap_congr ih)

/-- The nodes lead from the root of a diagram down to one of its nodes, from each to a child. -/
def Way (d : Diagram) (nodes : List Diagram) : Prop :=
  nodes.head? = some d ∧ nodes.IsChain fun upper lower => lower ∈ upper.children

/-- **The nodes above a node** are those on the way down to it. -/
theorem way_of_mem_placed {d : Diagram} {p : Placed} (h : p ∈ d.placed) :
    Way d (p.above ++ [p.node]) := by
  induction d using induction_on_children generalizing p with
  | step d ih =>
    rw [placed_eq, List.mem_cons, List.mem_map] at h
    rcases h with rfl | ⟨q, hq, rfl⟩
    · exact ⟨rfl, .singleton d⟩
    · obtain ⟨c, hc, hq⟩ := List.mem_flatMap.mp hq
      obtain ⟨hhead, hchain⟩ := ih c hc hq
      have hfirst : ∀ lower ∈ (q.above ++ [q.node]).head?, lower ∈ d.children := by
        rw [hhead]
        intro lower hlower
        exact Option.mem_some_iff.mp hlower ▸ hc
      exact ⟨rfl, List.isChain_cons.mpr ⟨hfirst, hchain⟩⟩

/-! ## Nodes in sight -/

variable (pruned : Kind → Bool)

/-- No node above is of a pruned kind. -/
def Placed.inSight (p : Placed) : Bool :=
  p.above.all fun a => !pruned a.kind

/-- There are nodes above, and of these none but the root is of a pruned kind. -/
def Placed.inSightBelow (p : Placed) : Bool :=
  match p.above with
  | [] => false
  | _ :: between => between.all fun a => !pruned a.kind

/-- The nodes that have no node of a pruned kind above them. -/
def visible (d : Diagram) : List Diagram :=
  (d.placed.filter (Placed.inSight pruned)).map Placed.node

/-- The nodes below the root that have no node of a pruned kind between the root and them. -/
def visibleBelow (d : Diagram) : List Diagram :=
  (d.placed.filter (Placed.inSightBelow pruned)).map Placed.node

variable {pruned}

theorem map_node_filter_under (keep : Placed → Bool) (d : Diagram) :
    (((d.children.flatMap placed).map (.under d)).filter keep).map Placed.node =
      d.children.flatMap fun c =>
        (c.placed.filter fun p => keep (p.under d)).map Placed.node := by
  rw [List.filter_map, List.map_map, List.filter_flatMap, List.map_flatMap]
  rfl

theorem visibleBelow_eq (d : Diagram) :
    d.visibleBelow pruned = d.children.flatMap (visible pruned) := by
  rw [visibleBelow, placed_eq, List.filter_cons_of_neg (by simp [Placed.inSightBelow]),
    map_node_filter_under]
  rfl

/-- The root is in sight, and so are the nodes in sight of its children unless it is pruned. -/
theorem visible_eq (d : Diagram) :
    d.visible pruned = d :: if pruned d.kind then [] else d.children.flatMap (visible pruned) := by
  rw [visible, placed_eq, List.filter_cons_of_pos (by simp [Placed.inSight]), List.map_cons,
    map_node_filter_under]
  have hsight (p : Placed) : (p.under d).inSight pruned = (!pruned d.kind && p.inSight pruned) :=
    rfl
  cases h : pruned d.kind with
  | true => simp [hsight, h]
  | false =>
    simp only [hsight, h, Bool.not_false, Bool.true_and]
    rfl

end Diagram

open Diagram (Kind)

namespace Visitor

variable {σ : Type} {pruned : Kind → Bool} {act : Diagram → σ → σ}

/-- Acts at every node and then walks on, unless the node is of a pruned kind. -/
def pruning (pruned : Kind → Bool) (act : Diagram → σ → σ) : Visitor σ where
  nothing := act .nothing
  token := fun t => act (.token t)
  sequence := fun parts walk s =>
    let acted := act (.sequence parts) s
    if pruned .sequence then acted else walk acted
  choice := fun branches walk s =>
    let acted := act (.choice branches) s
    if pruned .choice then acted else walk acted
  loop := fun body delimiter walk s =>
    let acted := act (.loop body delimiter) s
    if pruned .loop then acted else walk acted

theorem walk_pruning (d : Diagram) (s : σ) :
    (pruning pruned act).walk d s = (pruning pruned act).visit d s := by
  rw [visit_eq]
  rfl

theorem visit_pruning_eq (d : Diagram) (s : σ) :
    (pruning pruned act).visit d s =
      if pruned d.kind then act d s else (pruning pruned act).visitAll d.children (act d s) := by
  rw [← walk_pruning]
  cases d with
  | nothing => exact (ite_self _).symm
  | token t => exact (ite_self _).symm
  | sequence parts => rfl
  | choice branches => rfl
  | loop body delimiter => rfl

theorem visitAll_pruning {ds : List Diagram}
    (h : ∀ d ∈ ds, ∀ s, (pruning pruned act).visit d s =
      (d.visible pruned).foldl (fun s node => act node s) s) (s : σ) :
    (pruning pruned act).visitAll ds s =
      (ds.flatMap (Diagram.visible pruned)).foldl (fun s node => act node s) s := by
  rw [visitAll_eq_foldl, List.foldl_flatMap]
  exact List.foldl_ext _ _ _ fun s d hd => h d hd s

/-- **A visit that is cut off** acts on the nodes in sight, one after the other. -/
theorem visit_pruning (d : Diagram) (s : σ) :
    (pruning pruned act).visit d s =
      (d.visible pruned).foldl (fun s node => act node s) s := by
  induction d using Diagram.induction_on_children generalizing s with
  | step d ih =>
    rw [visit_pruning_eq, Diagram.visible_eq, List.foldl_cons]
    split
    · rfl
    · exact visitAll_pruning ih (act d s)

/-- At a node that can have parts, a walk over the parts leaves the node itself out. -/
theorem walkParts_pruning {d : Diagram} (hn : d.kind ≠ .nothing) (ht : d.kind ≠ .token) (s : σ) :
    (pruning pruned act).walkParts d s =
      (d.visibleBelow pruned).foldl (fun s node => act node s) s := by
  have hparts : (pruning pruned act).walkParts d = (pruning pruned act).visitAll d.children := by
    cases d with
    | nothing => exact absurd rfl hn
    | token t => exact absurd rfl ht
    | sequence parts => rfl
    | choice branches => rfl
    | loop body delimiter => rfl
  rw [hparts, Diagram.visibleBelow_eq]
  exact visitAll_pruning (fun c _ => visit_pruning c) s

end Visitor

namespace Diagram

/-- **A visitor that is cut off at some kinds of node** acts, each time once and in the order of a
visit, on the nodes that have no node of such a kind above them. Begun inside the root it does the
same. Begun with the parts of a root that can have parts, it acts on the nodes below the root that
have no node of such a kind between the root and them. -/
theorem pruned_visit_folds {σ : Type} (pruned : Kind → Bool) (act : Diagram → σ → σ) (d : Diagram)
    (start : σ) :
    let v := Visitor.pruning pruned act
    let actOn (nodes : List Diagram) : σ := nodes.foldl (fun s node => act node s) start
    -- every node is listed once, with the nodes above it
    d.placed.map Placed.node = d.preorder ∧
    (∀ p ∈ d.placed, Way d (p.above ++ [p.node])) ∧
    -- the nodes acted on
    v.visit d start = actOn (d.visible pruned) ∧
    v.walk d start = actOn (d.visible pruned) ∧
    (d.kind ≠ .nothing → d.kind ≠ .token →
      v.walkParts d start = actOn (d.visibleBelow pruned)) :=
  ⟨d.map_node_placed, fun _ hp => way_of_mem_placed hp, Visitor.visit_pruning d start,
    (Visitor.walk_pruning d start).trans (Visitor.visit_pruning d start),
    fun hn ht => Visitor.walkParts_pruning hn ht start⟩

/-- A loop whose body has branches, after a choice. -/
def branching : Diagram :=
  .sequence [.choice [.token (.literal "a")], .loop (.choice [.nothing]) .nothing]

theorem pruned_visit_folds_branching :
    let v := Visitor.pruning (fun kind => decide (kind = .choice)) fun node kinds =>
      kinds ++ [node.kind]
    let body : Placed :=
      ⟨[branching, .loop (.choice [.nothing]) .nothing], .choice [.nothing]⟩
    (body ∈ branching.placed ∧ Way branching (body.above ++ [body.node])) ∧
    branching.kind ≠ .nothing ∧ branching.kind ≠ .token ∧
      v.walkParts branching [] = [.choice, .loop, .choice, .nothing] := by
  intro v body
  obtain ⟨-, hway, -, -, hparts⟩ := pruned_visit_folds
    (fun kind => decide (kind = .choice)) (fun node kinds => kinds ++ [node.kind]) branching []
  have hbody : body ∈ branching.placed := by decide
  have hnothing : branching.kind ≠ .nothing := by decide
  have htoken : branching.kind ≠ .token := by decide
  exact ⟨⟨hbody, hway body hbody⟩, hnothing, htoken, hparts hnothing htoken⟩

end Diagram

end Railroad
