import Railroad.Deriving.Evaluation
import Railroad.Proofs.Deriving.ReadingOrder

/-!
# The branches of a derived method

A derived method has one branch for each case of the declaration. The branch of a struct is the
body of the method, the branch of a variant is its arm. Either draws the fields of its case that
are neither skipped nor replaced by a token.

* `members`, `Case.drawn`: the fields of a case under their names, and those that are drawn.
* `Case.branch`: the branch of a case, said for structs and variants alike.
* `branches_of_expand`: the method has these branches and no others, in order.
* `accesses_branch`, `bindings_branch`: a branch draws exactly the drawn fields, and its pattern
  names exactly those.
-/

namespace Railroad.Deriving

/-! ## Fields that are drawn -/

/-- The fields, each with how it is named. -/
def members : Fields → List (Member × Field)
  | .unit => []
  | .named fields => fields.map fun f => (.named f.1, f.2)
  | .tuple fields => fields.zipIdx.map fun f => (.index f.2, f.1)

/-- The name that a pattern gives to a field. -/
def Member.binding : Member → Ident
  | .named name => name
  | .index place => slotName place

/-- The field has a name of its own, which names the same as a given word. -/
def Member.isCalled (word : Ident) : Member → Bool
  | .named name => sameName word name
  | .index _ => false

namespace Case

/-- A field is drawn if it is not skipped and no token stands in place of the fields. -/
def draws (c : Case) (f : Field) : Bool :=
  match c.shape with
  | .token _ _ => false
  | _ => !skipped f

/-- The fields that are drawn, in order. -/
def drawn (c : Case) : List (Member × Field) :=
  (members c.fields).filter fun m => c.draws m.2

/-- How the fields are reached. -/
def access (c : Case) (m : Member) : Access :=
  match c.variant with
  | none => .member m
  | some _ => .bound m.binding

end Case

/-! ## Branches -/

/-- What is done for the values of a case: a body, and the pattern around it if there is one. -/
structure Branch where
  pattern : Option Pattern
  body : Body

/-- The branches of a method. -/
def Method.branches : Method → List Branch
  | .direct body => [⟨none, body⟩]
  | .cases arms => arms.map fun arm => ⟨some arm.pattern, arm.body⟩
  | .impossible => []

/-- The names that a pattern gives to fields, in order. -/
def Pattern.bindings : Pattern → List Ident
  | .unit _ => []
  | .named _ names => names
  | .tuple _ slots => slots.filterMap id
  | .anyTuple _ => []

/-- The names that a branch gives to fields, in order. -/
def Branch.bindings (b : Branch) : List Ident :=
  (b.pattern.map (·.bindings)).getD []

/-- The branch of a case. -/
def Case.branch (c : Case) : Branch :=
  ⟨c.variant.map fun v => .of v c.layout,
    .combine c.shape (c.drawn.map fun m => c.access m.1)⟩

/-! ## The parts of a plan -/

variable {c : Case}

theorem Case.drawn_eq_nil {kind : TokenKind} {text : Literal} (h : c.shape = .token kind text) :
    c.drawn = [] := by
  unfold drawn draws
  rw [h]
  exact List.filter_eq_nil_iff.mpr fun _ _ => by simp

theorem Case.drawn_eq_filter (h : ∀ kind text, c.shape ≠ .token kind text) :
    c.drawn = (members c.fields).filter fun m => !skipped m.2 := by
  unfold drawn draws
  rcases Shape.sequence_or_choice h with hs | hs <;> rw [hs]

theorem members_cons (f : Ident × Field) (rest : List (Ident × Field)) :
    members (.named (f :: rest)) = (.named f.1, f.2) :: members (.named rest) := rfl

theorem namedParts_planned (access : Member → Access) (fields : List (Ident × Field)) :
    namedParts (fun name => access (.named name)) (fields.map fun f => (f.1, plannedField f.2)) =
      ((members (.named fields)).filter fun m => !skipped m.2).map fun m =>
        ⟨access m.1, m.2.type⟩ := by
  induction fields with
  | nil => rfl
  | cons f rest ih =>
    unfold namedParts at ih ⊢
    rw [List.map_cons, List.filterMap_cons, members_cons, List.filter_cons, ih]
    cases h : skipped f.2 <;> simp [plannedField, h]

theorem tupleParts_planned (access : Member → Access) (fields : List Field) (place : Nat) :
    tupleParts (fun place => access (.index place)) place (fields.map plannedField) =
      (((fields.zipIdx place).map fun f => (Member.index f.2, f.1)).filter
        fun m => !skipped m.2).map fun m => ⟨access m.1, m.2.type⟩ := by
  induction fields generalizing place with
  | nil => rfl
  | cons f rest ih =>
    rw [List.map_cons, tupleParts, ih, List.zipIdx_cons, List.map_cons, List.filter_cons]
    cases h : skipped f <;> simp [plannedField, h]

theorem structParts_planned (fields : Fields) :
    structParts (plannedFields fields) =
      ((members fields).filter fun m => !skipped m.2).map fun m => ⟨.member m.1, m.2.type⟩ := by
  cases fields with
  | unit => rfl
  | named fields => exact namedParts_planned .member fields
  | tuple fields => exact tupleParts_planned .member fields 0

theorem variantParts_planned (fields : Fields) :
    variantParts (plannedFields fields) =
      ((members fields).filter fun m => !skipped m.2).map fun m =>
        ⟨.bound m.1.binding, m.2.type⟩ := by
  cases fields with
  | unit => rfl
  | named fields => exact namedParts_planned (fun m => .bound m.binding) fields
  | tuple fields => exact tupleParts_planned (fun m => .bound m.binding) fields 0

/-- The body of the parts of a case, whose fields are reached by `access`. -/
theorem ofParts_eq (access : Member → Access) :
    Body.ofParts c.shape (((members c.fields).filter fun m => !skipped m.2).map fun m =>
      ⟨access m.1, m.2.type⟩) = .combine c.shape (c.drawn.map fun m => access m.1) := by
  unfold Body.ofParts
  rw [List.map_map]
  rcases c.shape.token_or with ⟨kind, text, h⟩ | h
  · rw [h]
    rfl
  · rw [Case.drawn_eq_filter h]
    rfl

theorem branches_enum (variants : List (Ident × Layout)) :
    (Method.of (.enum variants)).branches =
      variants.map fun v => ⟨some (.of v.1 v.2), .ofParts v.2.shape (variantParts v.2.fields)⟩ := by
  cases variants with
  | nil => rfl
  | cons v rest =>
    rw [Method.of, Method.branches, List.map_map]
    · rfl
    · exact List.cons_ne_nil v rest

theorem branches_declaredPlan (d : Declaration) :
    (Method.of (declaredPlan d)).branches = (cases d).map (·.branch) := by
  unfold declaredPlan cases
  cases d.body with
  | union keyword => rfl
  | struct fields =>
    refine congrArg (fun body => [Branch.mk none body]) ?_
    show Body.ofParts _ (structParts (plannedFields fields)) = _
    rw [structParts_planned]
    exact ofParts_eq .member
  | enum variants =>
    dsimp only
    rw [branches_enum, List.map_map, List.map_map]
    refine List.map_congr_left fun v _ => congrArg (Branch.mk _) ?_
    show Body.ofParts _ (variantParts (plannedFields v.fields)) = _
    rw [variantParts_planned]
    exact ofParts_eq fun m => .bound m.binding

/-- **A derived method has one branch for each case**, in the order of declaration. -/
theorem branches_of_expand {d : Declaration} {i : Implementation} (h : expand d = .ok i) :
    i.method.branches = (cases d).map (·.branch) := by
  rw [expand_eq_verdict, verdict_eq_ok_iff] at h
  obtain ⟨-, rfl⟩ := h
  exact branches_declaredPlan d

theorem branch_of_expand {d : Declaration} {i : Implementation} (h : expand d = .ok i) {k : Nat}
    {c : Case} (hc : (cases d)[k]? = some c) : i.method.branches[k]? = some c.branch := by
  rw [branches_of_expand h, List.getElem?_map, hc]
  rfl

/-! ## What a branch draws and names -/

theorem accesses_combine (shape : Shape) (fields : List Access)
    (h : ∀ kind text, shape ≠ .token kind text) : (Body.combine shape fields).accesses = fields := by
  obtain rfl | rfl := Shape.sequence_or_choice h
  · rcases fields with _ | ⟨f, _ | ⟨g, rest⟩⟩ <;> rfl
  · rcases fields with _ | ⟨f, _ | ⟨g, rest⟩⟩ <;> rfl

/-- **A branch draws exactly the drawn fields**, each once and in order. -/
theorem accesses_branch (c : Case) :
    c.branch.body.accesses = c.drawn.map fun m => c.access m.1 := by
  rcases c.shape.token_or with ⟨kind, text, h⟩ | h
  · rw [Case.drawn_eq_nil h, Case.branch, h]
    rfl
  · exact accesses_combine _ _ h

theorem boundNames_planned (fields : List (Ident × Field)) :
    boundNames (fields.map fun f => (f.1, plannedField f.2)) =
      ((members (.named fields)).filter fun m => !skipped m.2).map (·.1.binding) := by
  induction fields with
  | nil => rfl
  | cons f rest ih =>
    unfold boundNames at ih ⊢
    rw [List.map_cons, List.filterMap_cons, members_cons, List.filter_cons, ih]
    cases h : skipped f.2 <;> simp [plannedField, h, Member.binding]

theorem slotNames_planned (fields : List Field) (place : Nat) :
    (slotNames place (fields.map plannedField)).filterMap id =
      (((fields.zipIdx place).map fun f => (Member.index f.2, f.1)).filter
        fun m => !skipped m.2).map (·.1.binding) := by
  induction fields generalizing place with
  | nil => rfl
  | cons f rest ih =>
    rw [List.map_cons, slotNames, List.filterMap_cons, ih, List.zipIdx_cons, List.map_cons,
      List.filter_cons]
    cases h : skipped f <;> simp [plannedField, h, Member.binding]

theorem pattern_of_not_token (h : ∀ kind text, c.shape ≠ .token kind text) (variant : Ident) :
    Pattern.of variant c.layout = bindingPattern variant (plannedFields c.fields) := by
  unfold Pattern.of Case.layout
  rcases Shape.sequence_or_choice h with hs | hs <;> rw [hs]

theorem bindings_pattern (c : Case) (variant : Ident) :
    (Pattern.of variant c.layout).bindings = c.drawn.map (·.1.binding) := by
  rcases c.shape.token_or with ⟨kind, text, h⟩ | h
  · rw [Case.drawn_eq_nil h, Pattern.of, Case.layout, h]
    cases c.fields <;> rfl
  · rw [pattern_of_not_token h, Case.drawn_eq_filter h]
    cases c.fields with
    | unit => rfl
    | named fields => exact boundNames_planned fields
    | tuple fields => exact slotNames_planned fields 0

/-- The pattern of a variant names exactly the drawn fields. -/
theorem bindings_branch (c : Case) :
    c.branch.bindings = if c.variant.isSome then c.drawn.map (·.1.binding) else [] := by
  unfold Branch.bindings Case.branch
  cases c.variant with
  | none => rfl
  | some v => exact bindings_pattern c v

end Railroad.Deriving
