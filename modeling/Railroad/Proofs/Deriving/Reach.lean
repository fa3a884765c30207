import Mathlib.Data.List.Nodup
import Railroad.Proofs.Deriving.Branches

/-!
# What the names in a derived method reach

A value of the declared type holds something for each declared field. Inside a branch the names of
the pattern come first, and then the name of the options.

* `WellNamed`: no two variants have one name, and no two fields of a struct or variant.
* `Contents.Fits`: the contents of a value are those of a struct or variant with given fields.
* `Branch.scope`: the names inside a branch; `scope_branch`: what they mean.
* `reach_accesses_branch`: the accesses of a branch reach exactly the drawn fields, each once and in
  order.
-/

namespace Railroad.Deriving

variable {α β : Type}

/-! ## Names -/

theorem named?_append (name : Ident) (xs ys : List (Ident × β)) :
    named? name (xs ++ ys) = (named? name xs).or (named? name ys) := by
  induction xs with
  | nil => rfl
  | cons x rest ih =>
    rw [List.cons_append, named?, named?, ih]
    cases sameName name x.1 <;> rfl

theorem named?_eq_none_iff {name : Ident} {xs : List (Ident × β)} :
    named? name xs = none ↔ ∀ x ∈ xs, sameName name x.1 = false := by
  induction xs with
  | nil => simp [named?]
  | cons x rest ih =>
    rw [named?, List.forall_mem_cons, ← ih]
    cases sameName name x.1 <;> simp

theorem mem_of_named? {name : Ident} {b : β} {xs : List (Ident × β)}
    (h : named? name xs = some b) : ∃ other, sameName name other = true ∧ (other, b) ∈ xs := by
  induction xs with
  | nil => cases h
  | cons x rest ih =>
    rw [named?] at h
    cases hs : sameName name x.1 with
    | true =>
      rw [hs] at h
      cases h
      exact ⟨x.1, hs, List.mem_cons_self⟩
    | false =>
      rw [hs] at h
      obtain ⟨other, ho, hm⟩ := ih h
      exact ⟨other, ho, List.mem_cons_of_mem x hm⟩

/-- Among distinct names each means what stands beside it. -/
theorem named?_of_mem {name : Ident} {b : β} {xs : List (Ident × β)}
    (hd : (xs.map (·.1.name)).Nodup) (h : (name, b) ∈ xs) : named? name xs = some b := by
  induction xs with
  | nil => cases h
  | cons x rest ih =>
    rw [List.map_cons, List.nodup_cons] at hd
    rw [named?]
    rcases List.mem_cons.mp h with rfl | hm
    · rw [if_pos (by simp [sameName])]
    · have hne : sameName name x.1 = false := by
        rw [sameName, beq_eq_false_iff_ne]
        rintro he
        exact hd.1 (he ▸ List.mem_map_of_mem (f := fun y : Ident × β => y.1.name) hm)
      rw [hne]
      exact ih hd.2 hm

theorem slotName_injective {m n : Nat} (h : (slotName m).name = (slotName n).name) : m = n := by
  have hs : toString m = toString n := (String.append_right_inj _).mp h
  have hd := congrArg (fun s => Nat.ofDigitChars 10 s.toList 0) hs
  simpa [Nat.toString_eq_repr, Nat.toList_repr, Nat.ofDigitChars_ten_toDigits] using hd

theorem sameName_options_slotName (n : Nat) : sameName optionsName (slotName n) = false := by
  rw [sameName, beq_eq_false_iff_ne]
  intro h
  have hl := congrArg String.toList h
  rw [slotName, String.toList_append] at hl
  exact absurd (List.cons.inj hl).1 (by decide)

/-! ## Values -/

/-- No two fields have one name. -/
def DistinctNames : Fields → Prop
  | .named fields => (fields.map (·.1.name)).Nodup
  | _ => True

/-- Variants and fields have names of their own, as the language asks for. -/
structure WellNamed (d : Declaration) : Prop where
  variants : (((cases d).filterMap (·.variant)).map (·.name)).Nodup
  fields : ∀ c ∈ cases d, DistinctNames c.fields

/-- What the fields hold, in order. -/
def Contents.list : Contents α → List α
  | .unit => []
  | .named fields => fields.map (·.2)
  | .tuple fields => fields

/-- The contents are those of a struct or variant with the given fields. -/
def Contents.Fits : Fields → Contents α → Prop
  | .unit, .unit => True
  | .named fields, .named contents => contents.map (·.1) = fields.map (·.1)
  | .tuple fields, .tuple contents => contents.length = fields.length
  | _, _ => False

namespace Case

/-- The fields that are drawn, each with what it holds. -/
def drawnPairs (c : Case) (contents : Contents α) : List ((Member × Field) × α) :=
  ((members c.fields).zip contents.list).filter fun p => c.draws p.1.2

/-- What the fields that are drawn hold, in order. -/
def drawnContents (c : Case) (contents : Contents α) : List α :=
  (c.drawnPairs contents).map (·.2)

end Case

/-- What the names inside a branch mean. -/
def Branch.scope (b : Branch) (contents : Contents α) : Option (Scope α) :=
  match b.pattern with
  | none => some .method
  | some pattern => (pattern.bind contents).map (· ++ .method)

/-! ## Members -/

section Fits

variable {fields : Fields} {contents : Contents α}

theorem Contents.Fits.length_eq (h : contents.Fits fields) :
    (members fields).length = contents.list.length := by
  cases fields <;> cases contents <;> try exact h.elim
  · rfl
  · simpa [members, list] using (congrArg List.length h).symm
  · simpa [members, list] using Eq.symm h

/-- **A member of a value is what the value holds for the field.** -/
theorem member?_of_mem_zip (h : contents.Fits fields)
    (hd : DistinctNames fields)
    {p : (Member × Field) × α} (hp : p ∈ (members fields).zip contents.list) :
    contents.member? p.1.1 = some p.2 := by
  obtain ⟨⟨m, f⟩, x⟩ := p
  -- both lists are looked up at the place where the pair stands
  obtain ⟨k, hk⟩ := List.mem_iff_getElem?.mp hp
  obtain ⟨hm, hx⟩ := List.getElem?_zip_eq_some.mp hk
  cases fields <;> cases contents <;> try exact h.elim
  case unit.unit => cases hp
  case tuple.tuple fields contents =>
    rw [members, List.getElem?_map, List.getElem?_zipIdx, Nat.zero_add] at hm
    obtain ⟨g, -, hg⟩ := Option.map_eq_some_iff.mp ((Option.map_map _ _ _).symm.trans hm)
    cases hg
    exact hx
  case named.named fields contents =>
    rw [members, List.getElem?_map] at hm
    obtain ⟨g, hg, he⟩ := Option.map_eq_some_iff.mp hm
    cases he
    rw [Contents.list, List.getElem?_map] at hx
    obtain ⟨y, hy, rfl⟩ := Option.map_eq_some_iff.mp hx
    have hname : y.1 = g.1 := by
      have := congrArg (·[k]?) (show contents.map (·.1) = fields.map (·.1) from h)
      simpa [hy, hg] using this
    have hnames : contents.map (·.1.name) = fields.map (·.1.name) := by
      have := congrArg (List.map (·.name)) (show contents.map (·.1) = fields.map (·.1) from h)
      rwa [List.map_map, List.map_map] at this
    refine named?_of_mem (hnames ▸ hd) ?_
    rw [← hname]
    exact List.mem_of_getElem? hy

/-- The names that patterns give are as distinct as those of the fields. -/
theorem nodup_bindings (hd : DistinctNames fields) :
    ((members fields).map (·.1.binding.name)).Nodup := by
  cases fields with
  | unit => exact List.nodup_nil
  | named fields =>
    rw [members, List.map_map]
    exact hd
  | tuple fields =>
    have h : (members (.tuple fields)).map (·.1.binding.name) =
        (fields.zipIdx.map (·.2)).map fun place => (slotName place).name := by
      rw [members, List.map_map, List.map_map]
      rfl
    rw [h, List.zipIdx_map_snd]
    exact (List.nodup_range').map fun _ _ => slotName_injective

end Fits

/-! ## Patterns -/

theorem bindNamed_map {fields : List (Ident × α)} {name : β → Ident} {content : β → α}
    {bs : List β} (h : ∀ b ∈ bs, named? (name b) fields = some (content b)) :
    bindNamed fields (bs.map name) = some (bs.map fun b => (name b, .field (content b))) := by
  induction bs with
  | nil => rfl
  | cons b rest ih =>
    rw [List.map_cons, bindNamed, h b List.mem_cons_self,
      ih fun b' hb' => h b' (List.mem_cons_of_mem b hb')]
    rfl

theorem bindSlots_planned {fields : List Field} {contents : List α} (place : Nat)
    (h : contents.length = fields.length) :
    bindSlots (slotNames place (fields.map plannedField)) contents =
      some (((((fields.zipIdx place).map fun f => (Member.index f.2, f.1)).zip contents).filter
        fun p => !skipped p.1.2).map fun p => (p.1.1.binding, .field p.2)) := by
  induction fields generalizing place contents with
  | nil =>
    obtain rfl := List.length_eq_zero_iff.mp h
    rfl
  | cons f rest ih =>
    cases contents with
    | nil => cases h
    | cons x contents =>
      have ih := ih (place + 1) (Nat.succ.inj h)
      rw [List.map_cons, slotNames, List.zipIdx_cons, List.map_cons, List.zip_cons_cons,
        List.filter_cons]
      cases hs : skipped f with
      | true => simpa [plannedField, hs, bindSlots] using ih
      | false => simp [plannedField, hs, bindSlots, ih, Member.binding]

section Drawn

variable {c : Case} {contents : Contents α}

theorem drawnPairs_eq_nil {kind : TokenKind} {text : Literal} (hs : c.shape = .token kind text) :
    c.drawnPairs contents = [] := by
  unfold Case.drawnPairs Case.draws
  rw [hs]
  exact List.filter_eq_nil_iff.mpr fun _ _ => by simp

theorem map_fst_drawnPairs (h : contents.Fits c.fields) :
    (c.drawnPairs contents).map (·.1) = c.drawn := by
  have hz : ((members c.fields).zip contents.list).map (·.1) = members c.fields :=
    List.map_fst_zip (Nat.le_of_eq h.length_eq)
  rw [Case.drawn, ← hz, List.filter_map]
  rfl

theorem member?_of_mem_drawnPairs (h : contents.Fits c.fields)
    (hd : DistinctNames c.fields)
    {p : (Member × Field) × α} (hp : p ∈ c.drawnPairs contents) :
    contents.member? p.1.1 = some p.2 :=
  member?_of_mem_zip h hd (List.mem_of_mem_filter hp)

/-- What the names of a pattern mean for fitting contents. -/
theorem bind_pattern (h : contents.Fits c.fields)
    (hd : DistinctNames c.fields) (variant : Ident) :
    (Pattern.of variant c.layout).bind contents =
      some ((c.drawnPairs contents).map fun p => (p.1.1.binding, .field p.2)) := by
  rcases c.shape.token_or with ⟨kind, text, hs⟩ | hs
  · rw [drawnPairs_eq_nil hs, Pattern.of, Case.layout, hs]
    cases hf : c.fields <;> cases contents <;> rw [hf] at h <;> first | exact h.elim | rfl
  · have hnames := bindings_pattern c variant
    rw [pattern_of_not_token hs, ← map_fst_drawnPairs h, List.map_map] at hnames
    rw [pattern_of_not_token hs]
    have hpairs : c.drawnPairs contents =
        ((members c.fields).zip contents.list).filter fun p => !skipped p.1.2 := by
      unfold Case.drawnPairs Case.draws
      rcases Shape.sequence_or_choice hs with hc | hc <;> rw [hc]
    have hreach := fun p hp => member?_of_mem_drawnPairs h hd (p := p) hp
    obtain ⟨v, attributes, fields⟩ := c
    cases fields <;> cases contents <;> try exact h.elim
    case unit.unit =>
      rw [hpairs]
      rfl
    case tuple.tuple fields contents =>
      rw [hpairs]
      exact bindSlots_planned 0 h
    case named.named fields contents =>
      show bindNamed contents (boundNames _) = _
      rw [show boundNames _ = _ from hnames]
      refine bindNamed_map fun p hp => ?_
      have hp := hreach p hp
      cases hm : p.1.1 with
      | index place =>
        rw [hm] at hp
        cases hp
      | named name =>
        show named? p.1.1.binding contents = some p.2
        rw [hm] at hp ⊢
        exact hp

end Drawn

/-! ## Accesses -/

/-- What the names inside the branch of a case mean, for given contents. -/
def Case.names (c : Case) (contents : Contents α) : Scope α :=
  match c.variant with
  | none => .method
  | some _ => (c.drawnPairs contents).map (fun p => (p.1.1.binding, .field p.2)) ++ Scope.method

section Accesses

variable {c : Case} {contents : Contents α}

theorem scope_branch (h : contents.Fits c.fields)
    (hd : DistinctNames c.fields) :
    c.branch.scope contents = some (c.names contents) := by
  unfold Branch.scope Case.branch Case.names
  cases c.variant with
  | none => rfl
  | some v =>
    show (Pattern.bind _ contents).map _ = _
    rw [bind_pattern h hd]
    rfl

theorem nodup_drawnPairs (h : contents.Fits c.fields)
    (hd : DistinctNames c.fields) :
    ((c.drawnPairs contents).map (·.1.1.binding.name)).Nodup := by
  have hall := nodup_bindings hd
  have hsub : (c.drawn.map (·.1.binding.name)).Sublist
      ((members c.fields).map (·.1.binding.name)) := List.filter_sublist.map _
  have := hall.sublist hsub
  rwa [← map_fst_drawnPairs h, List.map_map] at this

theorem reach_of_mem_drawnPairs (h : contents.Fits c.fields)
    (hd : DistinctNames c.fields)
    {p : (Member × Field) × α} (hp : p ∈ c.drawnPairs contents) :
    (c.access p.1.1).reach contents (c.names contents) = some p.2 := by
  unfold Case.access Case.names
  cases c.variant with
  | none => exact member?_of_mem_drawnPairs h hd hp
  | some v =>
    have hn : named? p.1.1.binding ((c.drawnPairs contents).map
        fun p => (p.1.1.binding, Meaning.field p.2)) = some (.field p.2) := by
      refine named?_of_mem ?_ (List.mem_map_of_mem hp)
      rw [List.map_map]
      exact nodup_drawnPairs h hd
    simp only [Access.reach, named?_append, hn, Option.some_or]

/-- **The accesses of a branch reach exactly the drawn fields**, each once and in order. -/
theorem reach_accesses_branch (h : contents.Fits c.fields)
    (hd : DistinctNames c.fields) :
    c.branch.body.accesses.map (·.reach contents (c.names contents)) =
      (c.drawnContents contents).map some := by
  rw [accesses_branch, ← map_fst_drawnPairs h, Case.drawnContents, List.map_map, List.map_map,
    List.map_map]
  exact List.map_congr_left fun p hp => reach_of_mem_drawnPairs h hd hp

end Accesses

end Railroad.Deriving
