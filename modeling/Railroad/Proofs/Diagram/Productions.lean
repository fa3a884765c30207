import Mathlib.Data.List.Induction
import Railroad.Diagram.Productions
import Railroad.Proofs.Diagram.Visits

/-!
# The names that a collection holds

A collection of names meets the production tokens of one diagram after the other. What it holds is
the list of all their names without repetitions, each name where it stands first.

* `Diagram.references`: the names of the production tokens among the nodes, repetitions kept.
* `extend_eq`: a visit adds the references of the diagram, one after the other.
* `addAll_eraseDups`: adding to names without repetitions leaves names without repetitions, as
  `List.eraseDups` makes them of the whole.
* `addAll_addAll`: names that were collected before can be added in place of their references.
* `names_are_first_references`: what one collection holds after each of several diagrams.
-/

namespace Railroad

namespace Diagram

/-- The name of a grammar rule, if the node refers to one. -/
def reference? : Diagram → Option String
  | .token t => if t.kind = .production then some t.text else none
  | _ => none

/-- The names of the grammar rules that the nodes refer to, each as often as it occurs. -/
def references (d : Diagram) : List String :=
  d.preorder.filterMap reference?

theorem references_sequence (parts : List Diagram) :
    (sequence parts).references = parts.flatMap references := by
  have hroot : reference? (sequence parts) = none := rfl
  rw [references, preorder_eq, List.filterMap_cons_none hroot, List.filterMap_flatMap]
  rfl

end Diagram

open Diagram (references)

namespace Productions

/-! ## Adding names -/

/-- The names with those of a list added, one after the other. -/
def addAll (names xs : List String) : List String :=
  xs.foldl add names

theorem addAll_append (names xs ys : List String) :
    addAll names (xs ++ ys) = addAll (addAll names xs) ys :=
  List.foldl_append

theorem mem_add {x name : String} {names : List String} :
    x ∈ add names name ↔ x ∈ names ∨ x = name := by
  unfold add
  split
  · next h =>
    refine ⟨.inl, ?_⟩
    rintro (hx | rfl)
    · exact hx
    · exact h
  · simp

theorem mem_addAll {x : String} {names xs : List String} :
    x ∈ addAll names xs ↔ x ∈ names ∨ x ∈ xs := by
  induction xs generalizing names with
  | nil => simp [addAll]
  | cons y rest ih =>
    show x ∈ addAll (add names y) rest ↔ _
    rw [ih, mem_add, List.mem_cons, or_assoc]

theorem add_of_mem {name : String} {names : List String} (h : name ∈ names) :
    add names name = names :=
  if_pos h

/-- Names that are there already change nothing. -/
theorem addAll_of_subset {names xs : List String} (h : ∀ x ∈ xs, x ∈ names) :
    addAll names xs = names := by
  induction xs with
  | nil => rfl
  | cons x rest ih =>
    show addAll (add names x) rest = names
    rw [add_of_mem (h x List.mem_cons_self)]
    exact ih fun y hy => h y (List.mem_cons_of_mem x hy)

theorem prefix_add (names : List String) (name : String) : names <+: add names name := by
  unfold add
  split
  · exact List.prefix_refl names
  · exact List.prefix_append names [name]

/-- Names are added at the end only. -/
theorem prefix_addAll (names xs : List String) : names <+: addAll names xs := by
  induction xs generalizing names with
  | nil => exact List.prefix_refl names
  | cons x rest ih => exact (prefix_add names x).trans (ih (add names x))

theorem nodup_add {names : List String} (h : names.Nodup) (name : String) :
    (add names name).Nodup := by
  unfold add
  split
  · exact h
  · next hname =>
    refine List.nodup_append.mpr ⟨h, List.pairwise_singleton _ name, fun x hx y hy hxy => ?_⟩
    rw [hxy, List.mem_singleton.mp hy] at hx
    exact hname hx

/-- No name is added twice. -/
theorem nodup_addAll {names : List String} (h : names.Nodup) (xs : List String) :
    (addAll names xs).Nodup := by
  induction xs generalizing names with
  | nil => exact h
  | cons x rest ih => exact ih (nodup_add h x)

theorem add_eraseDups (xs : List String) (x : String) :
    add xs.eraseDups x = (xs ++ [x]).eraseDups := by
  rw [List.eraseDups_append]
  unfold add
  by_cases h : x ∈ xs
  · simp [h, List.removeAll]
  · simp [h, List.removeAll, List.eraseDups_cons]

/-- **Adding to names without repetitions** leaves the names of the whole without repetitions. -/
theorem addAll_eraseDups (xs ys : List String) :
    addAll xs.eraseDups ys = (xs ++ ys).eraseDups := by
  induction ys generalizing xs with
  | nil => rw [List.append_nil]; rfl
  | cons y rest ih =>
    show addAll (add xs.eraseDups y) rest = _
    rw [add_eraseDups, ih, List.append_assoc, List.singleton_append]

/-- **Adding names that were collected before** is adding what they were collected from. -/
theorem addAll_addAll (names xs : List String) : addAll names (addAll [] xs) = addAll names xs := by
  induction xs using List.reverseRecOn with
  | nil => rfl
  | append_singleton xs x ih =>
    have hone : ∀ zs, addAll zs [x] = add zs x := fun zs => rfl
    rw [addAll_append, addAll_append, hone, hone]
    -- a last name that is no longer new was added with the names before it
    by_cases h : x ∈ addAll [] xs
    · have hx : x ∈ xs := (mem_addAll.mp h).resolve_left List.not_mem_nil
      rw [add_of_mem h, ih, add_of_mem (mem_addAll.mpr (.inr hx))]
    · have hnew : add (addAll [] xs) x = addAll [] xs ++ [x] := if_neg h
      rw [hnew, addAll_append, ih, hone]

/-! ## Visits -/

/-- **A visit adds the references of the diagram**, one after the other. -/
theorem extend_eq (names : List String) (d : Diagram) :
    extend names d = addAll names d.references := by
  have hvisitor : visitor = Visitor.picking Diagram.reference? add := by
    unfold visitor Visitor.picking Visitor.each
    congr
    funext t names
    by_cases h : t.kind = .production
    · simp only [Diagram.reference?, if_pos h]
    · simp only [Diagram.reference?, if_neg h]
  rw [extend, hvisitor, Visitor.visit_picking]
  rfl

theorem productions_eq (d : Diagram) : d.productions = addAll [] d.references :=
  extend_eq [] d

theorem foldl_extend (names : List String) (ds : List Diagram) :
    ds.foldl extend names = addAll names (ds.flatMap references) := by
  rw [addAll, List.foldl_flatMap]
  exact List.foldl_ext _ _ _ fun names d _ => extend_eq names d

theorem foldl_extend_eq_eraseDups (ds : List Diagram) :
    ds.foldl extend [] = (ds.flatMap references).eraseDups := by
  have h := addAll_eraseDups [] (ds.flatMap references)
  rwa [List.eraseDups_nil, List.nil_append, ← foldl_extend] at h

/-- After each of several diagrams stand the names of those visited so far. -/
theorem stages_eq_map (names : List String) (ds : List Diagram) :
    stages names ds =
      (List.range ds.length).map fun i => (ds.take (i + 1)).foldl extend names := by
  induction ds generalizing names with
  | nil => rfl
  | cons d rest ih =>
    rw [stages, ih, List.length_cons, List.range_succ_eq_map, List.map_cons, List.map_map]
    rfl

/-- Collecting the names of each diagram alone and then merging them is collecting them at once. -/
theorem foldl_extend_eq_addAll_productions (names : List String) (ds : List Diagram) :
    addAll names (ds.flatMap Diagram.productions) = ds.foldl extend names := by
  rw [addAll, List.foldl_flatMap]
  refine List.foldl_ext _ _ _ fun names d _ => ?_
  show addAll names d.productions = extend names d
  rw [productions_eq, addAll_addAll, extend_eq]

theorem productions_sequence (ds : List Diagram) :
    (Diagram.sequence ds).productions = ds.foldl extend [] := by
  rw [productions_eq, Diagram.references_sequence, foldl_extend]

/-- **A collection holds the first references.** After each of several diagrams it holds the names
of all production tokens met so far, each once and where it stands first, diagram after diagram and
node after node. So no name is held twice, a further diagram only adds names at the end, and one
visited before adds none; and the names of all diagrams can be had just as well by merging those of
each diagram, or from one sequence of all of them. -/
theorem names_are_first_references (ds : List Diagram) :
    let names := ds.foldl extend []
    stages [] ds =
      (List.range ds.length).map (fun i => ((ds.take (i + 1)).flatMap references).eraseDups) ∧
    names = (ds.flatMap references).eraseDups ∧
    names.Nodup ∧
    (∀ d, names <+: extend names d) ∧
    (∀ d ∈ ds, extend names d = names) ∧
    names = (ds.flatMap Diagram.productions).eraseDups ∧
    names = (Diagram.sequence ds).productions := by
  intro names
  have hnames : names = addAll [] (ds.flatMap references) := foldl_extend [] ds
  refine ⟨?_, foldl_extend_eq_eraseDups ds, ?_, fun d => ?_, fun d hd => ?_, ?_,
    (productions_sequence ds).symm⟩
  · rw [stages_eq_map]
    exact List.map_congr_left fun i _ => foldl_extend_eq_eraseDups _
  · rw [hnames]
    exact nodup_addAll List.nodup_nil _
  · rw [extend_eq]
    exact prefix_addAll names _
  · rw [extend_eq]
    refine addAll_of_subset fun x hx => ?_
    rw [hnames]
    exact mem_addAll.mpr (.inr (List.mem_flatMap.mpr ⟨d, hd, hx⟩))
  · have h := addAll_eraseDups [] (ds.flatMap Diagram.productions)
    rw [List.eraseDups_nil, List.nil_append, foldl_extend_eq_addAll_productions] at h
    exact h

/-- A rule that refers to another and to itself. -/
def recursiveRule : List Diagram :=
  [.token (.production "list"),
    .loop (.token (.production "item"))
      (.choice [.token (.literal "tail"), .token (.production "list"), .nothing])]

theorem names_are_first_references_recursiveRule :
    let list : Diagram := .token (.production "list")
    list ∈ recursiveRule ∧
      recursiveRule.foldl extend [] = ["list", "item"] ∧
      extend ["list", "item"] list = ["list", "item"] := by
  intro list
  have hlist : list ∈ recursiveRule := List.mem_cons_self
  obtain ⟨-, hnames, -, -, hvisited, -⟩ := names_are_first_references recursiveRule
  have hvalue : (recursiveRule.flatMap references).eraseDups = ["list", "item"] := by decide
  rw [hvalue] at hnames
  have hagain := hvisited list hlist
  rw [hnames] at hagain
  exact ⟨hlist, hnames, hagain⟩

end Productions

end Railroad
