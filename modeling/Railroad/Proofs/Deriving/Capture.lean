import Railroad.Proofs.Deriving.Reach

/-!
# Which branches capture the options

A call draws a field with what the word `options` means around it. Outside patterns this is what
the method has received, but a pattern may give that very name to a field.

* `named?_options_scope`: in any branch the word means the options iff the pattern leaves it alone.
* `Case.captures`: a variant one of whose drawn fields is called `options`.
* `captures_iff`: these are the cases in whose branch a name is in the way.
* `options_denote_iff`: in these and in no others a call is not made with the options received.
-/

namespace Railroad.Deriving

variable {α σ : Type}

/-! ## Names that patterns bind -/

theorem names_of_bindNamed {fields : List (Ident × α)} {names : List Ident} {bs : Scope α}
    (h : bindNamed fields names = some bs) :
    bs.map (·.1) = names ∧ ∀ b ∈ bs, ∃ x, b.2 = .field x := by
  induction names generalizing bs with
  | nil =>
    cases h
    exact ⟨rfl, by simp⟩
  | cons name rest ih =>
    rw [bindNamed] at h
    obtain ⟨x, -, h⟩ := Option.bind_eq_some_iff.mp h
    obtain ⟨bs', h', h⟩ := Option.bind_eq_some_iff.mp h
    cases h
    obtain ⟨hn, hf⟩ := ih h'
    exact ⟨by rw [List.map_cons, hn], List.forall_mem_cons.mpr ⟨⟨x, rfl⟩, hf⟩⟩

theorem names_of_bindSlots {slots : List (Option Ident)} {fields : List α} {bs : Scope α}
    (h : bindSlots slots fields = some bs) :
    bs.map (·.1) = slots.filterMap id ∧ ∀ b ∈ bs, ∃ x, b.2 = .field x := by
  fun_induction bindSlots slots fields generalizing bs with
  | case1 =>
    cases h
    exact ⟨rfl, by simp⟩
  | case2 slots x fields ih => exact ih h
  | case3 name slots x fields ih =>
    obtain ⟨bs', h', h⟩ := Option.bind_eq_some_iff.mp h
    cases h
    obtain ⟨hn, hf⟩ := ih h'
    exact ⟨by rw [List.map_cons, hn]; rfl, List.forall_mem_cons.mpr ⟨⟨x, rfl⟩, hf⟩⟩
  | case4 => cases h

/-- A pattern gives its names to fields, and to nothing else. -/
theorem names_of_bind {p : Pattern} {contents : Contents α} {bs : Scope α}
    (h : p.bind contents = some bs) :
    bs.map (·.1) = p.bindings ∧ ∀ b ∈ bs, ∃ x, b.2 = .field x := by
  cases p <;> cases contents <;> try cases h
  case unit.unit => exact ⟨rfl, by simp⟩
  case anyTuple.tuple => exact ⟨rfl, by simp⟩
  case named.named => exact names_of_bindNamed h
  case tuple.tuple => exact names_of_bindSlots h

/-- **The word means the options iff the pattern leaves it alone.** -/
theorem named?_options_scope {b : Branch} {contents : Contents α} {scope : Scope α}
    (h : b.scope contents = some scope) :
    named? optionsName scope = some .options ↔
      ∀ name ∈ b.bindings, sameName optionsName name = false := by
  obtain ⟨pattern, body⟩ := b
  cases pattern with
  | none =>
    cases h
    exact ⟨fun _ => by simp [Branch.bindings], fun _ => rfl⟩
  | some p =>
    obtain ⟨bs, hb, rfl⟩ := Option.map_eq_some_iff.mp h
    obtain ⟨hn, hf⟩ := names_of_bind hb
    show _ ↔ ∀ name ∈ p.bindings, _
    rw [named?_append, ← hn, List.forall_mem_map, ← named?_eq_none_iff]
    cases hbs : named? optionsName bs with
    | none => exact ⟨fun _ => rfl, fun _ => rfl⟩
    | some meaning =>
      obtain ⟨other, -, hm⟩ := mem_of_named? hbs
      obtain ⟨x, hx⟩ := hf _ hm
      obtain rfl : meaning = .field x := hx
      constructor
      · intro h
        cases h
      · intro h
        cases h

/-! ## Cases that capture the options -/

/-- The case is a variant one of whose drawn fields is called `options`. -/
def Case.captures (c : Case) : Bool :=
  c.variant.isSome && c.drawn.any fun m => m.1.isCalled optionsName

theorem isCalled_options (m : Member) :
    m.isCalled optionsName = sameName optionsName m.binding := by
  cases m with
  | named name => rfl
  | index place => exact (sameName_options_slotName place).symm

/-- In the branch of a case a name is in the way of the options iff the case captures them. -/
theorem captures_iff (c : Case) :
    c.captures = true ↔ ∃ name ∈ c.branch.bindings, sameName optionsName name = true := by
  rw [Case.captures, bindings_branch, Bool.and_eq_true]
  cases c.variant with
  | none => simp
  | some v =>
    simp only [Option.isSome_some, true_and, if_true, List.any_eq_true, isCalled_options,
      List.mem_map]
    constructor
    · rintro ⟨m, hm, h⟩
      exact ⟨_, ⟨m, hm, rfl⟩, h⟩
    · rintro ⟨_, ⟨m, hm, rfl⟩, h⟩
      exact ⟨m, hm, h⟩

/-- In the branch of a case the word means the options iff the case does not capture them. -/
theorem named?_options_iff {c : Case} {contents : Contents α} {scope : Scope α}
    (h : c.branch.scope contents = some scope) :
    named? optionsName scope = some .options ↔ c.captures = false := by
  rw [named?_options_scope h, ← Bool.not_eq_true, captures_iff]
  simp

/-- A call draws the field that it reaches iff the word means the options. -/
theorem draw_access_iff {drawing : α → Drawing σ} {contents : Contents α} {scope : Scope α}
    {access : Access} {x : α} (h : access.reach contents scope = some x) :
    access.draw drawing contents scope = some (drawing x) ↔
      named? optionsName scope = some .options := by
  unfold Access.draw
  rw [h]
  cases named? optionsName scope with
  | none => exact ⟨nofun, nofun⟩
  | some meaning =>
    cases meaning with
    | options => exact ⟨fun _ => rfl, fun _ => rfl⟩
    | field y => exact ⟨nofun, nofun⟩

theorem exists_bindNamed {fields : List (Ident × α)} {names : List Ident}
    (h : ∀ name ∈ names, name ∈ fields.map (·.1)) : ∃ bs, bindNamed fields names = some bs := by
  induction names with
  | nil => exact ⟨[], rfl⟩
  | cons name rest ih =>
    obtain ⟨bs, hbs⟩ := ih fun other ho => h other (List.mem_cons_of_mem name ho)
    obtain ⟨f, hf, rfl⟩ := List.mem_map.mp (h name List.mem_cons_self)
    cases hn : named? f.1 fields with
    | none =>
      have := named?_eq_none_iff.mp hn f hf
      simp [sameName] at this
    | some x => exact ⟨(f.1, .field x) :: bs, by rw [bindNamed, hn, hbs]; rfl⟩

/-- The pattern of a variant matches all contents of the variant. -/
theorem exists_scope {c : Case} {contents : Contents α} (h : contents.Fits c.fields) :
    ∃ scope, c.branch.scope contents = some scope := by
  obtain ⟨variant, attributes, fields⟩ := c
  cases variant with
  | none => exact ⟨.method, rfl⟩
  | some v =>
    suffices hb : ∃ bs, (Pattern.of v (Case.layout ⟨some v, attributes, fields⟩)).bind contents =
        some bs by
      obtain ⟨bs, hb⟩ := hb
      exact ⟨bs ++ Scope.method, congrArg (Option.map (· ++ Scope.method)) hb⟩
    rcases (Case.shape ⟨some v, attributes, fields⟩).token_or with ⟨kind, text, hs⟩ | hs
    · rw [Pattern.of, Case.layout, hs]
      cases fields <;> cases contents <;> first | exact h.elim | exact ⟨[], rfl⟩
    · rw [pattern_of_not_token hs]
      cases fields <;> cases contents <;> try exact h.elim
      case unit.unit => exact ⟨[], rfl⟩
      case tuple.tuple fields contents => exact ⟨_, bindSlots_planned 0 h⟩
      case named.named fields contents =>
        refine exists_bindNamed fun name hn => ?_
        obtain ⟨g, hg, hgn⟩ := List.mem_filterMap.mp hn
        obtain ⟨f, hf, rfl⟩ := List.mem_map.mp hg
        split at hgn
        · cases hgn
        · cases hgn
          exact (show contents.map (·.1) = fields.map (·.1) from h) ▸ List.mem_map_of_mem hf

/-- **A call is made with the options received iff its case does not capture them.** For any names
of the fields, a branch gives the name of the options to a field iff its case is a variant one of
whose drawn fields has that name. -/
theorem options_denote_iff {d : Declaration} {i : Implementation} (h : expand d = .ok i) :
    i.method.branches.length = (cases d).length ∧
    ∀ (k : Nat) (c : Case) (b : Branch), (cases d)[k]? = some c → i.method.branches[k]? = some b →
      ((∃ name ∈ b.bindings, sameName optionsName name = true) ↔ c.captures = true) ∧
      ∀ contents : Contents α, contents.Fits c.fields → ∃ scope, b.scope contents = some scope ∧
        (named? optionsName scope = some .options ↔ c.captures = false) ∧
        ∀ (drawing : α → Drawing σ) (access : Access) (x : α), access ∈ b.body.accesses →
          access.reach contents scope = some x →
          (access.draw drawing contents scope = some (drawing x) ↔ c.captures = false) := by
  refine ⟨by rw [branches_of_expand h, List.length_map], fun k c b hc hb => ?_⟩
  obtain rfl : c.branch = b := Option.some.inj ((branch_of_expand h hc).symm.trans hb)
  refine ⟨(captures_iff c).symm, fun contents hf => ?_⟩
  obtain ⟨scope, hs⟩ := exists_scope hf
  have hopt := named?_options_iff hs
  exact ⟨scope, hs, hopt, fun drawing access x _ hx => (draw_access_iff hx).trans hopt⟩

/-- An enum with a variant `V` and a variant `W`, each with one field: that of `V` is called
`options`, that of `W` is not. -/
def optionsEnum : Declaration :=
  let field : Field := ⟨[], [.ident ⟨false, "X"⟩ .start]⟩
  ⟨[], ⟨false, "E"⟩, ⟨[], false⟩, ⟨[], false⟩, .enum [
    ⟨[], ⟨false, "V"⟩, .named [(optionsName, field)]⟩,
    ⟨[], ⟨false, "W"⟩, .named [(⟨false, "width"⟩, field)]⟩]⟩

theorem options_denote_iff_optionsEnum : ∃ i, expand optionsEnum = .ok i ∧
    (∃ b, i.method.branches[0]? = some b ∧
      ∃ name ∈ b.bindings, sameName optionsName name = true) ∧
    ∃ b, i.method.branches[1]? = some b ∧
      ∃ scope, b.scope (.named [(⟨false, "width"⟩, ())]) = some scope ∧
        named? optionsName scope = some .options := by
  refine ⟨_, rfl, ⟨_, rfl, ?_⟩, _, rfl, ?_⟩
  · exact ((@options_denote_iff Unit Unit optionsEnum _ rfl).2 0 _ _ rfl rfl).1.mpr rfl
  · obtain ⟨scope, hs, ho, -⟩ := ((@options_denote_iff Unit Unit optionsEnum _ rfl).2 1 _ _ rfl
      rfl).2 (.named [(⟨false, "width"⟩, ())]) rfl
    exact ⟨scope, hs, ho.mpr rfl⟩

/-- Patterns do get in the way of the options: a field of a variant can have their name. -/
theorem options_can_be_captured : ¬ ∀ (d : Declaration) (i : Implementation), expand d = .ok i →
    ∀ b ∈ i.method.branches, ∀ name ∈ b.bindings, sameName optionsName name = false := by
  intro h
  have := h optionsEnum _ rfl
    ⟨some (.named ⟨false, "V"⟩ [optionsName]), .one (.bound optionsName)⟩
    List.mem_cons_self optionsName List.mem_cons_self
  cases this

end Railroad.Deriving
