import Railroad.Proofs.Diagram.Productions

/-!
# The sizes of a diagram

Depth, number of nodes and number of production names, compared with one another. Depth is a
maximum over the children and the number of nodes a sum over them, so the two can only agree where
there is never more than one child to choose from.

* `maxDepth_eq_totalCount_iff`: when the deepest of several diagrams has all their nodes.
* `depth_eq_nodeCount_iff`: a diagram is as deep as it has nodes exactly if it is `Straight`.
* `length_references_add_depth_le`: the way down to the deepest node ends at the first token, so all
  production tokens but one are nodes that the depth does not count.
* `size_laws`: the laws together.
-/

namespace Railroad

namespace Diagram

/-! ## Depth and number of nodes -/

theorem one_le_depth (d : Diagram) : 1 ≤ d.depth := by
  rw [depth_eq]
  omega

theorem one_le_nodeCount (d : Diagram) : 1 ≤ d.nodeCount := by
  rw [nodeCount_eq]
  omega

theorem maxDepth_le_totalCount {ds : List Diagram} (h : ∀ d ∈ ds, d.depth ≤ d.nodeCount) :
    maxDepth ds ≤ totalCount ds := by
  induction ds with
  | nil => exact Nat.le_refl 0
  | cons d rest ih =>
    have hd : d.depth ≤ d.nodeCount := h d List.mem_cons_self
    have hrest : maxDepth rest ≤ totalCount rest := ih fun c hc => h c (List.mem_cons_of_mem d hc)
    rw [maxDepth, totalCount]
    omega

/-- **No diagram is deeper than it has nodes.** -/
theorem depth_le_nodeCount (d : Diagram) : d.depth ≤ d.nodeCount := by
  induction d using induction_on_children with
  | step d ih =>
    have hchildren : maxDepth d.children ≤ totalCount d.children := maxDepth_le_totalCount ih
    rw [depth_eq, nodeCount_eq]
    omega

/-! ## Straight diagrams -/

/-- No node has more than one child. -/
def Straight (d : Diagram) : Prop :=
  ∀ node ∈ d.preorder, node.children.length ≤ 1

instance (d : Diagram) : Decidable d.Straight :=
  inferInstanceAs (Decidable (∀ node ∈ d.preorder, node.children.length ≤ 1))

theorem straight_iff (d : Diagram) :
    d.Straight ↔ d.children.length ≤ 1 ∧ ∀ c ∈ d.children, c.Straight := by
  unfold Straight
  rw [preorder_eq, List.forall_mem_cons]
  refine and_congr Iff.rfl ⟨fun h c hc node hn => ?_, fun h node hn => ?_⟩
  · exact h node (List.mem_flatMap.mpr ⟨c, hc, hn⟩)
  · obtain ⟨c, hc, hn⟩ := List.mem_flatMap.mp hn
    exact h c hc node hn

theorem Straight.kind_ne_loop {d : Diagram} (h : d.Straight) {node : Diagram}
    (hn : node ∈ d.preorder) : node.kind ≠ .loop := by
  have hlength : node.children.length ≤ 1 := h node hn
  cases node with
  | loop body delimiter =>
    have htwo : (loop body delimiter).children.length = 2 := rfl
    omega
  | nothing | token | sequence | choice => simp [kind]

/-- **The deepest of several diagrams has all their nodes** only if it stands alone. -/
theorem maxDepth_eq_totalCount_iff (ds : List Diagram) :
    maxDepth ds = totalCount ds ↔ ds.length ≤ 1 ∧ ∀ d ∈ ds, d.depth = d.nodeCount := by
  cases ds with
  | nil => simp [maxDepth, totalCount]
  | cons d rest =>
    cases rest with
    | nil => simp [maxDepth, totalCount]
    | cons e rest =>
      -- a second diagram has a node that is not on the way down through the first, and the
      -- other way round
      have hd : d.depth ≤ d.nodeCount := depth_le_nodeCount d
      have hd' : 1 ≤ d.nodeCount := one_le_nodeCount d
      have he : 1 ≤ e.nodeCount := one_le_nodeCount e
      have hrest : maxDepth (e :: rest) ≤ totalCount (e :: rest) :=
        maxDepth_le_totalCount fun c _ => depth_le_nodeCount c
      have hcount : totalCount (e :: rest) = e.nodeCount + totalCount rest := rfl
      constructor
      · intro h
        rw [maxDepth, totalCount] at h
        omega
      · rintro ⟨hlength, -⟩
        simp at hlength

/-- **A diagram is as deep as it has nodes** exactly if no node has more than one child. -/
theorem depth_eq_nodeCount_iff (d : Diagram) : d.depth = d.nodeCount ↔ d.Straight := by
  induction d using induction_on_children with
  | step d ih =>
    rw [straight_iff, depth_eq, nodeCount_eq, Nat.add_left_cancel_iff, maxDepth_eq_totalCount_iff]
    exact and_congr Iff.rfl (forall₂_congr ih)

/-! ## Production names -/

theorem references_eq_children (d : Diagram) :
    d.references = d.reference?.toList ++ d.children.flatMap references := by
  have hparts : d.children.flatMap references =
      (d.children.flatMap preorder).filterMap reference? :=
    List.filterMap_flatMap.symm
  rw [references, preorder_eq, hparts, List.filterMap_cons]
  cases d.reference? <;> rfl

/-- A node that refers to a rule is a token, which has no children. -/
theorem length_references (d : Diagram) :
    d.references.length = (d.children.flatMap references).length ∨
      d.references.length = 1 ∧ d.children = [] := by
  rw [references_eq_children]
  cases d with
  | token t =>
    cases h : (token t).reference? with
    | none => exact .inl rfl
    | some name => exact .inr ⟨rfl, rfl⟩
  | nothing | sequence | choice | loop => exact .inl rfl

/-- Of the references of several diagrams, one at most is on the way down through the deepest. -/
theorem length_flatMap_references_le {ds : List Diagram}
    (h : ∀ d ∈ ds, d.references.length + d.depth ≤ d.nodeCount + 1) :
    (ds.flatMap references).length ≤ totalCount ds ∧
      (ds.flatMap references).length + maxDepth ds ≤ totalCount ds + 1 := by
  induction ds with
  | nil => exact ⟨Nat.le_refl 0, Nat.zero_le 1⟩
  | cons d rest ih =>
    have hd := h d List.mem_cons_self
    have hdepth : 1 ≤ d.depth := one_le_depth d
    obtain ⟨hall, hdeep⟩ := ih fun c hc => h c (List.mem_cons_of_mem d hc)
    rw [List.flatMap_cons, List.length_append, maxDepth, totalCount]
    omega

/-- **References and depth together** exceed the number of nodes by one at most, every reference
counted as often as it occurs. -/
theorem length_references_add_depth_le (d : Diagram) :
    d.references.length + d.depth ≤ d.nodeCount + 1 := by
  induction d using induction_on_children with
  | step d ih =>
    obtain ⟨-, hchildren⟩ := length_flatMap_references_le ih
    rw [depth_eq, nodeCount_eq]
    rcases length_references d with hlength | ⟨hlength, hleaf⟩
    · omega
    · have hzero : maxDepth d.children = 0 := by rw [hleaf, maxDepth]
      omega

end Diagram

namespace Productions

theorem length_add_le (names : List String) (name : String) :
    (add names name).length ≤ names.length + 1 := by
  unfold add
  split
  · exact Nat.le_succ _
  · simp

theorem length_addAll_le (names xs : List String) :
    (addAll names xs).length ≤ names.length + xs.length := by
  induction xs generalizing names with
  | nil => exact Nat.le_refl _
  | cons x rest ih =>
    have hrest : (addAll (add names x) rest).length ≤ _ := ih (add names x)
    have hx : (add names x).length ≤ names.length + 1 := length_add_le names x
    rw [List.length_cons]
    show (addAll (add names x) rest).length ≤ _
    omega

end Productions

namespace Diagram

/-- A name is listed once and referred to at least once. -/
theorem length_productions_le (d : Diagram) : d.productions.length ≤ d.references.length := by
  have h := Productions.length_addAll_le [] d.references
  rwa [List.length_nil, Nat.zero_add, ← Productions.productions_eq] at h

/-- **The laws of size.** The depth lies between 1 and the number of nodes, and reaches the latter
exactly if no node has more than one child, so that there is no loop. The number of production names
and the depth together exceed the number of nodes by one at most. -/
theorem size_laws (d : Diagram) :
    1 ≤ d.depth ∧ d.depth ≤ d.nodeCount ∧
    (d.depth = d.nodeCount ↔ ∀ node ∈ d.preorder, node.children.length ≤ 1) ∧
    (d.depth = d.nodeCount → ∀ node ∈ d.preorder, node.kind ≠ .loop) ∧
    d.productions.length + d.depth ≤ d.nodeCount + 1 := by
  have hstraight : d.depth = d.nodeCount ↔ d.Straight := depth_eq_nodeCount_iff d
  refine ⟨one_le_depth d, depth_le_nodeCount d, hstraight,
    fun h node hn => (hstraight.mp h).kind_ne_loop hn, ?_⟩
  have hnames : d.productions.length ≤ d.references.length := length_productions_le d
  have hall : d.references.length + d.depth ≤ d.nodeCount + 1 := length_references_add_depth_le d
  omega

/-- A rule under a sequence and a choice of one part each. -/
def onlyWay : Diagram :=
  .sequence [.choice [.token (.production "rule")]]

theorem size_laws_onlyWay :
    onlyWay.depth = onlyWay.nodeCount ∧ (∀ node ∈ onlyWay.preorder, node.kind ≠ .loop) ∧
      onlyWay.productions.length + onlyWay.depth ≤ 4 := by
  obtain ⟨-, -, hstraight, hloop, hnames⟩ := size_laws onlyWay
  have hequal : onlyWay.depth = onlyWay.nodeCount := hstraight.mpr (by decide)
  exact ⟨hequal, hloop hequal, hnames⟩

-- the bound is reached, by a loop over two rules as well as by a single one
example : let d := loop (.token (.production "a")) (.token (.production "b"))
    d.productions.length + d.depth = d.nodeCount + 1 := by
  decide

end Diagram

end Railroad
