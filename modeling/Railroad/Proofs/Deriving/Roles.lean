import Railroad.Proofs.Deriving.WhereClause

/-!
# What words in types stand for

A derived implementation bounds the types in which the name of a type parameter occurs. Not every
word that is spelled like a parameter refers to it: lifetimes have names of their own, and the later
segments of a path are looked up where the path leads.

* `TokenTree.usesAll`: the words of a type, each with its `Role`. `map_fst_usesAll`: they are the
  words that the derivation looks at.
* `involves_iff`: a name occurs in a type if it is used in one of the three roles.
* `bounded_types_by_role`: the bounded types are those that use a parameter's name in any role.
* `bound_without_parameter`: some of them refer to no parameter.
-/

namespace Railroad

/-- What a word in a type stands for. -/
inductive Role where
  /-- The name of a lifetime. -/
  | lifetime
  /-- A later segment of a path. -/
  | segment
  /-- Anything else: what is known by that name where the type stands. -/
  | plain
  deriving DecidableEq

namespace TokenTree

/-- The trees, the last one first, end in two colons. -/
def endsInColons : List TokenTree → Bool
  | .mark ':' _ _ :: .mark ':' true _ :: _ => true
  | _ => false

mutual

/-- The words of a tree with their roles. A word right after two colons is a later segment. -/
def uses (afterColons : Bool) : TokenTree → List (Ident × Role)
  | .ident i _ => [(i, if afterColons then .segment else .plain)]
  | .lifetime i _ => [(i, .lifetime)]
  | .literal _ _ => []
  | .mark _ _ _ => []
  | .group _ inner _ _ => usesAll [] inner

/-- The words of several trees with their roles, given the trees in front of them, the last one
first. -/
def usesAll (before : List TokenTree) : List TokenTree → List (Ident × Role)
  | [] => []
  | t :: rest => uses (endsInColons before) t ++ usesAll (t :: before) rest

end

mutual

theorem map_fst_uses (afterColons : Bool) :
    ∀ t : TokenTree, (uses afterColons t).map Prod.fst = idents t
  | .ident _ _ => rfl
  | .lifetime _ _ => rfl
  | .literal _ _ => rfl
  | .mark _ _ _ => rfl
  | .group _ inner _ _ => map_fst_usesAll [] inner

/-- **Every word has a role**, and only words do. -/
theorem map_fst_usesAll (before : List TokenTree) :
    ∀ ts : List TokenTree, (usesAll before ts).map Prod.fst = identsAll ts
  | [] => rfl
  | t :: rest => by
    rw [usesAll, identsAll, List.map_append, map_fst_uses, map_fst_usesAll]

end

end TokenTree

namespace Deriving

open TokenTree (usesAll layouts)

/-- One of the names is used in the type in the given role. -/
def UsedAs (role : Role) (names : List Ident) (type : List TokenTree) : Prop :=
  ∃ use ∈ usesAll [] type, use.1 ∈ names ∧ use.2 = role

instance (role : Role) (names : List Ident) (type : List TokenTree) :
    Decidable (UsedAs role names type) :=
  inferInstanceAs (Decidable (∃ use ∈ usesAll [] type, use.1 ∈ names ∧ use.2 = role))

/-- **A name occurs in a type** if it is used in one of the roles. -/
theorem involves_iff {names : List Ident} {type : List TokenTree} :
    Involves names type ↔
      UsedAs .plain names type ∨ UsedAs .lifetime names type ∨ UsedAs .segment names type := by
  have hwords : Involves names type ↔ ∃ use ∈ usesAll [] type, use.1 ∈ names := by
    rw [← mentions_iff, mentions, ← TokenTree.map_fst_usesAll []]
    simp
  rw [hwords]
  constructor
  · rintro ⟨⟨word, role⟩, huse, hname⟩
    cases role with
    | plain => exact .inl ⟨_, huse, hname, rfl⟩
    | lifetime => exact .inr (.inl ⟨_, huse, hname, rfl⟩)
    | segment => exact .inr (.inr ⟨_, huse, hname, rfl⟩)
  · rintro (⟨use, huse, hname, -⟩ | ⟨use, huse, hname, -⟩ | ⟨use, huse, hname, -⟩) <;>
      exact ⟨use, huse, hname⟩

theorem decide_involves (names : List Ident) (type : List TokenTree) :
    decide (Involves names type) = decide
      (UsedAs .plain names type ∨ UsedAs .lifetime names type ∨ UsedAs .segment names type) :=
  decide_eq_decide.mpr involves_iff

/-- **The bounded types by role.** The types of the calls in which the name of a type parameter is
used are bounded, no matter in which role, each where it occurs first. So every bounded type refers
to a parameter if every type of a call does that has the name of a parameter as the name of a
lifetime or as a later segment of a path; and a type that does not refer to any is bounded all the
same. -/
theorem bounded_types_by_role {d : Declaration} {i : Implementation} (h : expand d = .ok i) :
    let used := fun role type => UsedAs role d.typeParameters type
    let types := (calls d).map (·.2)
    i.bounds = (types.filter fun t =>
      decide (used .plain t ∨ used .lifetime t ∨ used .segment t)).eraseDupsBy sameType ∧
    (∀ b ∈ i.bounds, b ∈ types ∧ (used .plain b ∨ used .lifetime b ∨ used .segment b)) ∧
    ((∀ t ∈ types, used .lifetime t ∨ used .segment t → used .plain t) →
      ∀ b ∈ i.bounds, used .plain b) ∧
    ∀ t ∈ types, used .lifetime t ∨ used .segment t → ∃ b ∈ i.bounds, layouts b = layouts t := by
  intro used types
  have hbounds : ∀ b ∈ i.bounds,
      b ∈ types ∧ (used .plain b ∨ used .lifetime b ∨ used .segment b) := by
    intro b hb
    rw [bounds_of_expand h] at hb
    obtain ⟨⟨call, hcall, rfl⟩, hinvolves⟩ := call_of_mem_declaredBounds hb
    exact ⟨List.mem_map_of_mem hcall, involves_iff.mp hinvolves⟩
  refine ⟨?_, hbounds, fun hall b hb => ?_, fun t ht hused => ?_⟩
  · rw [bounds_of_expand h, declaredBounds_eq]
    simp only [decide_involves]
    rfl
  · obtain ⟨hb, hplain | hother⟩ := hbounds b hb
    · exact hplain
    · exact hall b hb hother
  · obtain ⟨call, hcall, rfl⟩ := List.mem_map.mp ht
    rw [bounds_of_expand h]
    exact exists_declaredBound_of_call hcall (involves_iff.mpr (.inr hused))

/-- The declaration `struct A<'T, T>(Ref<'T>, m::T, T);`. -/
def namesakeStruct : Declaration :=
  let word (name : String) (column : Nat) : TokenTree := .ident ⟨false, name⟩ ⟨1, column⟩
  ⟨[], ⟨false, "A"⟩, ⟨[.lifetime [] ⟨false, "T"⟩ [], .type [] ⟨false, "T"⟩ []], false⟩, ⟨[], false⟩,
    .struct (.tuple [
      ⟨[], [word "Ref" 16, .mark '<' false ⟨1, 19⟩, .lifetime ⟨false, "T"⟩ ⟨1, 20⟩,
        .mark '>' false ⟨1, 22⟩]⟩,
      ⟨[], [word "m" 25, .mark ':' true ⟨1, 26⟩, .mark ':' false ⟨1, 27⟩, word "T" 28]⟩,
      ⟨[], [word "T" 31]⟩])⟩

theorem bounded_types_by_role_namesakeStruct : ∃ i, expand namesakeStruct = .ok i ∧
    (∃ b ∈ i.bounds, layouts b = [("T", false)] ∧ UsedAs .plain [⟨false, "T"⟩] b) ∧
    ∃ b ∈ i.bounds, layouts b = [("m", false), (":", true), (":", false), ("T", false)] := by
  obtain ⟨hbounds, -, -, hcovered⟩ := bounded_types_by_role (d := namesakeStruct) rfl
  have hpath : [.ident ⟨false, "m"⟩ ⟨1, 25⟩, .mark ':' true ⟨1, 26⟩, .mark ':' false ⟨1, 27⟩,
      .ident ⟨false, "T"⟩ ⟨1, 28⟩] ∈ (calls namesakeStruct).map (·.2) :=
    List.mem_cons_of_mem _ List.mem_cons_self
  refine ⟨_, rfl, ?_, hcovered _ hpath (.inr (by decide))⟩
  rw [hbounds]
  decide

/-- **Some bounded types refer to no parameter.** -/
theorem bound_without_parameter :
    ¬ ∀ d i, expand d = .ok i → ∀ b ∈ i.bounds, UsedAs .plain d.typeParameters b := by
  intro h
  have hplain := h namesakeStruct _ rfl
  revert hplain
  decide

end Deriving

end Railroad
