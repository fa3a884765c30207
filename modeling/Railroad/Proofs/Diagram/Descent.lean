import Railroad.Diagram.Descent
import Railroad.Proofs.Diagram.Visits

/-!
# Descents and the shape of a diagram

A descent enters the nodes of a diagram and leaves them again. Its passages are *nested*: between
entering a node and leaving it stand the passages of the children of that node, in order and one
level deeper, and nothing else. All else that can be said of a descent follows from this.

* `nested_visit`: the passages of a descent are nested, and the level comes back to where it was.
* `Nested.entered_eq`: the nodes entered are listed by `Diagram.preorder`.
* `Nested.level_lt`, `Nested.exists_deepest`: how deep nested passages go.
* `descent_describes_tree`: a descent shows the nodes, their number and the depth of a diagram.
-/

namespace Railroad.Descent

/-! ## Nested passages -/

/-- The level of the node that is entered or left. -/
def Passage.level : Passage → Nat
  | .enter _ level => level
  | .leave _ level => level

/-- The node, if it is entered. -/
def Passage.entered? : Passage → Option Diagram
  | .enter node _ => some node
  | .leave _ _ => none

/-- The nodes entered, in order. -/
def entered (passages : List Passage) : List Diagram :=
  passages.filterMap Passage.entered?

/-- The passages go through the diagrams of a list, one after the other, at the given level: each is
entered, then come the passages of its children, and then it is left. -/
inductive Nested : Nat → List Diagram → List Passage → Prop where
  | none (level : Nat) : Nested level [] []
  | node {level : Nat} {d : Diagram} {rest : List Diagram} {inside after : List Passage}
      (hinside : Nested (level + 1) d.children inside) (hafter : Nested level rest after) :
      Nested level (d :: rest) (.enter d level :: (inside ++ .leave d level :: after))

/-! ## Descents are nested -/

/-- A descent notes the root on its way in and on its way out, and goes to the children one level
deeper in between. -/
theorem visit_eq_around (d : Diagram) (level : Nat) (before : List Passage) :
    visitor.visit d ⟨level, before⟩ =
      let inside := visitor.visitAll d.children ⟨level + 1, before ++ [.enter d level]⟩
      ⟨inside.level - 1, inside.passages ++ [.leave d (inside.level - 1)]⟩ := by
  have hwalk : visitor.walk d = visitor.visitAll d.children := Visitor.walk_eq_visitAll_children _ d
  rw [Visitor.visit_eq, hwalk]
  rfl

/-- What a descent does to its state: nested passages are added, and the level is as before. -/
def Passes (descend : Descent → Descent) (ds : List Diagram) : Prop :=
  ∀ (level : Nat) (before : List Passage), ∃ passages, Nested level ds passages ∧
    descend ⟨level, before⟩ = ⟨level, before ++ passages⟩

theorem passes_visitAll {ds : List Diagram} (h : ∀ d ∈ ds, Passes (visitor.visit d) [d]) :
    Passes (visitor.visitAll ds) ds := by
  induction ds with
  | nil => exact fun level before => ⟨[], .none level, by rw [List.append_nil]; rfl⟩
  | cons d rest ih =>
    intro level before
    obtain ⟨first, hfirst, hd⟩ := h d List.mem_cons_self level before
    obtain ⟨others, hothers, hrest⟩ :=
      ih (fun c hc => h c (List.mem_cons_of_mem _ hc)) level (before ++ first)
    cases hfirst with
    | node hinside hafter =>
      cases hafter
      refine ⟨_, .node hinside hothers, ?_⟩
      rw [Visitor.visitAll_cons, hd, hrest]
      simp

/-- **The passages of a descent are nested**, and the level comes back to where it was. -/
theorem nested_visit (d : Diagram) : Passes (visitor.visit d) [d] := by
  induction d using Diagram.induction_on_children with
  | step d ih =>
    intro level before
    obtain ⟨inside, hinside, hwalk⟩ :=
      passes_visitAll ih (level + 1) (before ++ [.enter d level])
    refine ⟨_, .node hinside (.none level), ?_⟩
    rw [visit_eq_around, hwalk]
    simp

/-! ## What nested passages tell -/

theorem entered_append (xs ys : List Passage) : entered (xs ++ ys) = entered xs ++ entered ys :=
  List.filterMap_append

namespace Nested

variable {level : Nat} {ds : List Diagram} {passages : List Passage}

/-- **The nodes entered** are all nodes, each before its children. -/
theorem entered_eq (h : Nested level ds passages) :
    entered passages = ds.flatMap Diagram.preorder := by
  induction h with
  | none => rfl
  | @node level d rest inside after _ _ hinside hafter =>
    rw [List.flatMap_cons, Diagram.preorder_eq, ← hinside, ← hafter]
    show d :: entered (inside ++ .leave d level :: after) = _
    rw [entered_append]
    rfl

theorem length_entered (h : Nested level ds passages) :
    (entered passages).length = Diagram.totalCount ds := by
  induction h with
  | none => rfl
  | @node level d rest inside after _ _ hinside hafter =>
    rw [Diagram.totalCount, Diagram.nodeCount_eq, ← hinside, ← hafter]
    show (entered (inside ++ .leave d level :: after)).length + 1 = _
    rw [entered_append, List.length_append]
    show (entered inside).length + (entered after).length + 1 = _
    omega

/-- No passage is deeper than the deepest of the diagrams. -/
theorem level_lt (h : Nested level ds passages) :
    ∀ p ∈ passages, p.level < level + Diagram.maxDepth ds := by
  induction h with
  | none => exact fun p hp => absurd hp List.not_mem_nil
  | @node level d rest inside after _ _ hinside hafter =>
    intro p hp
    rw [Diagram.maxDepth, Diagram.depth_eq]
    have hroot : level < level + max (1 + Diagram.maxDepth d.children) (Diagram.maxDepth rest) := by
      omega
    rcases List.mem_cons.mp hp with rfl | hp
    · exact hroot
    rcases List.mem_append.mp hp with hp | hp
    · have := hinside p hp
      omega
    rcases List.mem_cons.mp hp with rfl | hp
    · exact hroot
    · have := hafter p hp
      omega

/-- Some passage is as deep as the deepest of the diagrams. -/
theorem exists_deepest (h : Nested level ds passages) (hne : ds ≠ []) :
    ∃ p ∈ passages, p.level + 1 = level + Diagram.maxDepth ds := by
  induction h with
  | none => exact absurd rfl hne
  | @node level d rest inside after hin haf hinside hafter =>
    rw [Diagram.maxDepth, Diagram.depth_eq]
    -- the deepest is the node itself, or below it, or among the diagrams after it
    by_cases hrest : Diagram.maxDepth rest ≤ 1 + Diagram.maxDepth d.children
    · cases hc : d.children with
      | nil =>
        refine ⟨.enter d level, List.mem_cons_self, ?_⟩
        rw [hc] at hrest
        show level + 1 = _
        rw [Nat.max_eq_left hrest, Diagram.maxDepth]
      | cons c cs =>
        obtain ⟨p, hp, hl⟩ := hinside (by rw [hc]; exact List.cons_ne_nil c cs)
        refine ⟨p, List.mem_cons_of_mem _ (List.mem_append_left _ hp), ?_⟩
        rw [Nat.max_eq_left (hc ▸ hrest), ← hc]
        omega
    · have hne' : rest ≠ [] := by
        rintro rfl
        exact hrest (Nat.zero_le _)
      obtain ⟨p, hp, hl⟩ := hafter hne'
      refine ⟨p, List.mem_cons_of_mem _ (List.mem_append_right _ (List.mem_cons_of_mem _ hp)), ?_⟩
      omega

end Nested

/-! ## The shape of a diagram -/

/-- **A descent shows the shape of a diagram.** The nodes that it enters are all nodes in the order
in which they are reached through the children; there are as many as the diagram counts, the
greatest level is the depth, the passages are nested by the children of each node, and the level is
back at its start at the end. -/
theorem descent_describes_tree (d : Diagram) :
    ∃ passages, visitor.visit d {} = { level := 1, passages := passages } ∧
      Nested 1 [d] passages ∧
      entered passages = d.preorder ∧
      (entered passages).length = d.nodeCount ∧
      (passages.map Passage.level).max? = some d.depth := by
  obtain ⟨passages, hn, hv⟩ := nested_visit d 1 []
  refine ⟨passages, hv, hn, ?_, ?_, ?_⟩
  · rw [hn.entered_eq, List.flatMap_cons, List.flatMap_nil, List.append_nil]
  · rw [hn.length_entered, Diagram.totalCount, Diagram.totalCount, Nat.add_zero]
  · have hdepth : Diagram.maxDepth [d] = d.depth := Nat.max_zero d.depth
    rw [List.max?_eq_some_iff]
    constructor
    · obtain ⟨p, hp, hl⟩ := hn.exists_deepest (List.cons_ne_nil d [])
      exact List.mem_map.mpr ⟨p, hp, by omega⟩
    · intro l hl
      obtain ⟨p, hp, rfl⟩ := List.mem_map.mp hl
      have := hn.level_lt p hp
      omega

-- the body of a loop comes before its delimiter, and an empty sequence is a node
example : (visitor.visit (.loop .nothing (.sequence [])) {}).passages =
    [.enter (.loop .nothing (.sequence [])) 1, .enter .nothing 2, .leave .nothing 2,
      .enter (.sequence []) 2, .leave (.sequence []) 2,
      .leave (.loop .nothing (.sequence [])) 1] := by
  rfl

end Railroad.Descent
