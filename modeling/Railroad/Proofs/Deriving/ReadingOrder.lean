import Railroad.Deriving.Implementation
import Railroad.Proofs.Deriving.Items

/-!
# Declarations in reading order

What a declaration says about its drawing, and the order in which it is checked.

* `cases`: the struct, or the variants of the enum.
* `Holds`: what one attribute holds. `allEntries`: what the attributes of one place hold, one after
  the other. Other attributes than those that govern drawings, and how items are shared out among
  the latter, do not show in it.
* `Case.layout`, `declaredPlan`, `declaredBounds`: the plan that the entries come to, and the bounds.
* `checks`: everything that is checked, in reading order; `Check.Fault` says what is wrong where a
  check fails.
* `expand_eq_verdict`: the derived implementation is that of the declared plan, unless a check
  fails, and then the first one that does is reported, or unless a predicate cannot be read.
-/

namespace Railroad.Deriving

/-! ## Entries -/

/-- What an attribute that governs drawings holds: an item, or no list of items at all. -/
inductive Entry where
  | item (item : Item)
  /-- There is no list of items, which is a fault. -/
  | noItems (r : Rejection)

namespace Entry

/-- The shape that an entry gives if it is written as it should be. -/
def shape? : Entry → Option Shape
  | .item i => i.shape?
  | .noItems _ => none

/-- The entry is a bare `skip`. -/
def skips : Entry → Bool
  | .item i => i.isBare "skip"
  | .noItems _ => false

/-- Where an entry begins. -/
def place : Entry → Position
  | .item i => i.next i.trees
  | .noItems r => r.first.place

end Entry

/-- What one attribute holds. -/
def entries (a : Attribute) : List Entry :=
  match items a with
  | .ok list => list.map .item
  | .error r => [.noItems r]

/-- What an attribute holds, as it is written: the items of its list, or the fault that it has no
list. -/
inductive Holds (a : Attribute) : List Entry → Prop
  | absent (h : a.argument = .absent) : Holds a [.noItems (.of .noArguments a.path)]
  | assigned {equals} (h : a.argument = .assigned equals) :
      Holds a [.noItems (.of .assignedArguments equals)]
  | list {content closing list} (h : a.argument = .list content closing)
      (hl : Item.Listed closing content list) : Holds a (list.map .item)

theorem holds_iff {a : Attribute} {es : List Entry} : Holds a es ↔ entries a = es := by
  unfold entries items
  constructor
  · intro h
    cases h with
    | absent h => rw [h]
    | assigned h => rw [h]
    | @list content closing list h hl =>
      rw [h, ← Item.listed_iff.mp hl]
  · rintro rfl
    cases h : a.argument with
    | absent => exact .absent h
    | assigned equals => exact .assigned h
    | list content closing => exact .list h (Item.listed_iff.mpr rfl)

/-- What the attributes that govern drawings hold. -/
def allEntries (attributes : List Attribute) : List Entry :=
  (attributes.filter isRailroad).flatMap entries

/-! ## Cases and their layouts -/

/-- The fields in the order of their declaration. -/
def fieldList : Fields → List Field
  | .unit => []
  | .named fields => fields.map (·.2)
  | .tuple fields => fields

/-- A struct, or a variant of an enum. -/
structure Case where
  /-- The name of the variant, if it is one. -/
  variant : Option Ident
  attributes : List Attribute
  fields : Fields

/-- The cases that the values of a declared type fall into. -/
def cases (d : Declaration) : List Case :=
  match d.body with
  | .struct fields => [⟨none, d.attributes, fields⟩]
  | .enum variants => variants.map fun v => ⟨some v.name, v.attributes, v.fields⟩
  | .union _ => []

/-- The shape that the entries of a struct or variant come to. -/
def declaredShape : List Entry → Shape
  | [] => .sequence
  | e :: _ => e.shape?.getD .sequence

/-- The entries of a field skip it. -/
def skipped (f : Field) : Bool :=
  (allEntries f.attributes).any (·.skips)

/-- A field as its entries plan it. -/
def plannedField (f : Field) : PlannedField :=
  ⟨skipped f, f.type⟩

/-- Fields as their entries plan them. -/
def plannedFields : Fields → PlannedFields
  | .unit => .unit
  | .named fields => .named (fields.map fun f => (f.1, plannedField f.2))
  | .tuple fields => .tuple (fields.map plannedField)

namespace Case

/-- The shape of a case. -/
def shape (c : Case) : Shape :=
  declaredShape (allEntries c.attributes)

/-- The layout of a case. -/
def layout (c : Case) : Layout :=
  ⟨c.shape, plannedFields c.fields⟩

end Case

/-- The plan of a declaration that is written as it should be. -/
def declaredPlan (d : Declaration) : Plan :=
  match d.body with
  | .struct fields => .struct (Case.layout ⟨none, d.attributes, fields⟩)
  | .enum variants =>
    .enum (variants.map fun v => (v.name, Case.layout ⟨some v.name, v.attributes, v.fields⟩))
  | .union _ => .enum []

/-- The bounds of a declaration that is written as it should be. -/
def declaredBounds (d : Declaration) : List (List TokenTree) :=
  boundTypes d.typeParameters (declaredPlan d).drawnTypes

/-! ## Checks -/

/-- One of the things that are checked. -/
inductive Check where
  /-- A union is declared. -/
  | union (keyword : Position)
  /-- An enum has an attribute that governs drawings. -/
  | attributeOnEnum (a : Attribute)
  /-- A struct or variant has this entry, after one that begins at `first` if there is one. -/
  | shape (first : Option Position) (e : Entry)
  /-- A field has this entry. -/
  | skip (e : Entry)

/-- What is wrong where a check fails. -/
inductive Check.Fault : Check → Rejection → Prop
  | union (keyword : Position) : Fault (.union keyword) (.of .unionDeclared keyword)
  | attributeOnEnum (a : Attribute) :
      Fault (.attributeOnEnum a) (.of .attributeOnEnum a.hash)
  | shapeItem {first i r} (h : ShapeFault first i r) : Fault (.shape first (.item i)) r
  | shapeNoItems (first : Option Position) (r : Rejection) : Fault (.shape first (.noItems r)) r
  | skipItem {i r} (h : SkipFault i r) : Fault (.skip (.item i)) r
  | skipNoItems (r : Rejection) : Fault (.skip (.noItems r)) r

/-- The checks of the entries of a struct or variant. -/
def shapeChecks : List Entry → List Check
  | [] => []
  | e :: rest => .shape none e :: rest.map (.shape (some e.place))

/-- The checks of the entries of one field after the other. -/
def fieldChecks (fields : List Field) : List Check :=
  fields.flatMap fun f => (allEntries f.attributes).map .skip

/-- The checks of a case: first its own entries, then those of its fields. -/
def Case.checks (c : Case) : List Check :=
  shapeChecks (allEntries c.attributes) ++ fieldChecks (fieldList c.fields)

/-- The checks of a declaration as a whole. -/
def headChecks (d : Declaration) : List Check :=
  match d.body with
  | .struct _ => []
  | .enum _ => (d.attributes.filter isRailroad).map .attributeOnEnum
  | .union keyword => [.union keyword]

/-- Everything that is checked, in reading order. -/
def checks (d : Declaration) : List Check :=
  headChecks d ++ (cases d).flatMap (·.checks)

/-- The fault that the readers report for a check. What shape was given first is of no account. -/
def Check.fault? : Check → Option Rejection
  | .union keyword => some (.of .unionDeclared keyword)
  | .attributeOnEnum a => some (.of .attributeOnEnum a.hash)
  | .shape first (.item i) =>
    Railroad.fault? (Shape.take (first.map fun place => ⟨.sequence, place⟩) i)
  | .shape _ (.noItems r) => some r
  | .skip (.item i) => Railroad.fault? (takeSkip i)
  | .skip (.noItems r) => some r

/-- **The readers report exactly the faults.** -/
theorem Check.fault?_eq_some_iff (c : Check) (r : Rejection) : c.fault? = some r ↔ c.Fault r := by
  constructor
  · intro h
    cases c with
    | union keyword =>
      cases h
      exact .union keyword
    | attributeOnEnum a =>
      cases h
      exact .attributeOnEnum a
    | shape first e =>
      cases e with
      | item i =>
        have ht := Shape.take_eq_error_iff.mp (Railroad.fault?_eq_some_iff.mp h)
        refine .shapeItem ?_
        rw [Option.map_map] at ht
        cases first <;> exact ht
      | noItems r' =>
        cases h
        exact .shapeNoItems first _
    | skip e =>
      cases e with
      | item i => exact .skipItem (takeSkip_eq_error_iff.mp (Railroad.fault?_eq_some_iff.mp h))
      | noItems r' =>
        cases h
        exact .skipNoItems _
  · intro h
    cases h with
    | union keyword => rfl
    | attributeOnEnum a => rfl
    | @shapeItem first i r h =>
      refine Railroad.fault?_eq_some_iff.mpr (Shape.take_eq_error_iff.mpr ?_)
      rw [Option.map_map]
      cases first <;> exact h
    | shapeNoItems first r => rfl
    | skipItem h => exact Railroad.fault?_eq_some_iff.mpr (takeSkip_eq_error_iff.mpr h)
    | skipNoItems r => rfl

theorem Check.fault?_eq_none_iff (c : Check) : c.fault? = none ↔ ∀ r, ¬ c.Fault r := by
  simp only [Option.eq_none_iff_forall_ne_some, ne_eq, fault?_eq_some_iff]

/-! ## Skipping -/

theorem takeSkip_eq_verdict (i : Item) : takeSkip i = verdict (Check.skip (.item i)).fault? () :=
  eq_verdict_fault? _

theorem takeSkipAttribute_eq_verdict (b : Bool) (a : Attribute) :
    takeSkipAttribute b a =
      verdict (((entries a).map Check.skip).findSome? Check.fault?)
        (b || !(entries a).isEmpty) := by
  unfold takeSkipAttribute entries
  cases items a with
  | error r => rfl
  | ok list =>
    show (list.forM takeSkip >>= fun _ => pure (b || !list.isEmpty)) = _
    rw [forM_eq_verdict takeSkip_eq_verdict, verdict_map, List.map_map, List.findSome?_map]
    cases list <;> rfl

theorem skip_fault?_eq_none_iff (e : Entry) : (Check.skip e).fault? = none ↔ e.skips = true := by
  cases e with
  | noItems r => simp [Check.fault?, Entry.skips]
  | item i =>
    rw [Entry.skips, ← Bool.not_eq_false, ← skipFault_iff]
    constructor
    · rintro h ⟨r, hr⟩
      exact (Check.fault?_eq_none_iff _).mp h r (.skipItem hr)
    · refine fun h => (Check.fault?_eq_none_iff _).mpr fun r hr => h ?_
      cases hr with
      | skipItem hr => exact ⟨r, hr⟩

theorem foldl_nonempty (b : Bool) (attributes : List Attribute) :
    attributes.foldl (fun b a => b || !(entries a).isEmpty) b =
      (b || !(attributes.flatMap entries).isEmpty) := by
  induction attributes generalizing b with
  | nil => simp
  | cons a rest ih =>
    rw [List.foldl_cons, ih, List.flatMap_cons]
    cases entries a <;> simp

/-- **Whether a field is skipped**, unless one of its entries has a fault. -/
theorem isSkipped_eq_verdict (f : Field) :
    isSkipped f.attributes =
      verdict (((allEntries f.attributes).map Check.skip).findSome? Check.fault?) (skipped f) := by
  unfold isSkipped
  rw [governs_eq_isRailroad, foldlM_eq_verdict takeSkipAttribute_eq_verdict, foldl_nonempty, Bool.false_or]
  unfold allEntries
  rw [List.map_flatMap, findSome?_flatMap]
  refine verdict_congr fun h => ?_
  -- without a fault all entries are bare `skip`s, so that there is one iff there is any entry
  have hall : ∀ e ∈ allEntries f.attributes, e.skips = true := by
    intro e he
    obtain ⟨a, ha, he⟩ := List.mem_flatMap.mp he
    have := List.findSome?_eq_none_iff.mp (List.findSome?_eq_none_iff.mp h a ha) (.skip e)
      (List.mem_map_of_mem he)
    exact (skip_fault?_eq_none_iff e).mp this
  show (!(allEntries f.attributes).isEmpty) = _
  unfold skipped
  cases hes : allEntries f.attributes with
  | nil => rfl
  | cons e rest =>
    rw [List.any_cons, hall e (by rw [hes]; exact List.mem_cons_self)]
    rfl

/-! ## Shapes -/

/-- Takes in one entry after a shape may have been given. -/
def takeEntry (given : Option Shape.Given) : Entry → Except Rejection (Option Shape.Given)
  | .item i => Shape.take given i
  | .noItems r => .error r

theorem takeAttribute_eq_foldlM (given : Option Shape.Given) (a : Attribute) :
    Shape.takeAttribute given a = (entries a).foldlM takeEntry given := by
  unfold Shape.takeAttribute entries
  cases items a with
  | error r => rfl
  | ok list =>
    show list.foldlM Shape.take given = (list.map Entry.item).foldlM takeEntry given
    rw [List.foldlM_map]
    rfl

theorem takeEntry_of_fault (given : Option Shape.Given) {e : Entry} {r : Rejection}
    (h : (Check.shape (given.map (·.place)) e).Fault r) : takeEntry given e = .error r := by
  cases h with
  | shapeItem h => exact Shape.take_eq_error_iff.mpr h
  | shapeNoItems _ r => rfl

theorem shape_fault?_eq_none_iff (e : Entry) :
    (Check.shape none e).fault? = none ↔ (e.shape?).isSome := by
  cases e with
  | noItems r => simp [Check.fault?, Entry.shape?]
  | item i =>
    rw [Entry.shape?, Option.isSome_iff_ne_none, ne_eq, ← Shape.shapeFault_none_iff]
    constructor
    · rintro h ⟨r, hr⟩
      exact (Check.fault?_eq_none_iff _).mp h r (.shapeItem hr)
    · refine fun h => (Check.fault?_eq_none_iff _).mpr fun r hr => h ?_
      cases hr with
      | shapeItem hr => exact ⟨r, hr⟩

theorem exists_second_fault (place : Position) (e : Entry) :
    ∃ r, (Check.shape (some place) e).Fault r := by
  cases e with
  | noItems r => exact ⟨r, .shapeNoItems _ r⟩
  | item i =>
    obtain ⟨r, hr⟩ := Shape.exists_shapeFault_some i place
    exact ⟨r, .shapeItem hr⟩

theorem takeEntry_of_shape? {e : Entry} {shape : Shape} (h : e.shape? = some shape) :
    takeEntry none e = .ok (some ⟨shape, e.place⟩) := by
  cases e with
  | noItems r => cases h
  | item i =>
    obtain ⟨place, hg⟩ := Shape.gives_nil_iff.mpr h
    have hp : (Entry.item i).place = place := by
      show i.next i.trees = place
      obtain ⟨i, rest, ht⟩ := hg.trees_eq
      rw [ht]
      rfl
    rw [hp]
    exact Shape.take_of_gives none hg

/-- **The shape of a struct or variant**, unless one of its entries has a fault. A second entry
always has one. -/
theorem read_eq_verdict (attributes : List Attribute) :
    Shape.read attributes =
      verdict ((shapeChecks (allEntries attributes)).findSome? Check.fault?)
        (declaredShape (allEntries attributes)) := by
  unfold Shape.read
  rw [governs_eq_isRailroad, show Shape.takeAttribute = fun given a => (entries a).foldlM takeEntry given from
    funext fun given => funext (takeAttribute_eq_foldlM given), ← foldlM_flatMap_eq]
  show ((allEntries attributes).foldlM takeEntry none >>= _) = _
  cases allEntries attributes with
  | nil => rfl
  | cons e rest =>
    rw [List.foldlM_cons, shapeChecks, List.findSome?_cons]
    cases hf : (Check.shape none e).fault? with
    | some r =>
      rw [takeEntry_of_fault none ((Check.fault?_eq_some_iff _ r).mp hf)]
      rfl
    | none =>
      obtain ⟨shape, hs⟩ := Option.isSome_iff_exists.mp ((shape_fault?_eq_none_iff e).mp hf)
      rw [takeEntry_of_shape? hs, declaredShape, hs]
      cases rest with
      | nil => rfl
      | cons e' rest' =>
        obtain ⟨r, hr⟩ := exists_second_fault e.place e'
        rw [List.map_cons, List.findSome?_cons, (Check.fault?_eq_some_iff _ r).mpr hr]
        show ((e' :: rest').foldlM takeEntry (some ⟨shape, e.place⟩) >>= _) = _
        rw [List.foldlM_cons, takeEntry_of_fault (some ⟨shape, e.place⟩) hr]
        rfl

/-! ## Plans and implementations -/

theorem plannedField_eq_verdict (f : Field) :
    PlannedField.of f =
      verdict (((allEntries f.attributes).map Check.skip).findSome? Check.fault?)
        (plannedField f) := by
  unfold PlannedField.of
  rw [isSkipped_eq_verdict, verdict_map]
  rfl

theorem plannedFields_eq_verdict (fields : Fields) :
    PlannedFields.of fields =
      verdict ((fieldChecks (fieldList fields)).findSome? Check.fault?) (plannedFields fields) := by
  unfold fieldChecks
  rw [findSome?_flatMap]
  cases fields with
  | unit => rfl
  | tuple fields =>
    show (fields.mapM PlannedField.of >>= _) = _
    rw [mapM_eq_verdict plannedField_eq_verdict, verdict_map]
    rfl
  | named fields =>
    have h (f : Ident × Field) : (do
        let planned ← PlannedField.of f.2
        return (f.1, planned) : Except Rejection (Ident × PlannedField)) =
        verdict (((allEntries f.2.attributes).map Check.skip).findSome? Check.fault?)
          (f.1, plannedField f.2) := by
      rw [plannedField_eq_verdict, verdict_map]
    show (fields.mapM _ >>= _) = _
    rw [mapM_eq_verdict h, verdict_map, fieldList, List.findSome?_map]
    rfl

theorem layout_eq_verdict (c : Case) :
    Layout.of c.attributes c.fields = verdict (c.checks.findSome? Check.fault?) c.layout := by
  unfold Layout.of Case.checks
  rw [read_eq_verdict, List.findSome?_append]
  refine verdict_bind ?_
  rw [plannedFields_eq_verdict, verdict_map]
  rfl

theorem variantPlan_eq_verdict (v : Variant) : (do
      let layout ← Layout.of v.attributes v.fields
      return (v.name, layout) : Except Rejection (Ident × Layout)) =
    verdict ((Case.checks ⟨some v.name, v.attributes, v.fields⟩).findSome? Check.fault?)
      (v.name, Case.layout ⟨some v.name, v.attributes, v.fields⟩) := by
  rw [layout_eq_verdict ⟨some v.name, v.attributes, v.fields⟩, verdict_map]

theorem plan_eq_verdict (d : Declaration) :
    Plan.of d = verdict ((checks d).findSome? Check.fault?) (declaredPlan d) := by
  unfold Plan.of checks headChecks cases declaredPlan
  cases d.body with
  | struct fields =>
    dsimp only
    rw [layout_eq_verdict ⟨none, d.attributes, fields⟩, verdict_map, List.nil_append,
      List.flatMap_singleton]
  | union keyword => rfl
  | enum variants =>
    dsimp only
    rw [governs_eq_isRailroad, List.findSome?_append, ← List.head?_filter]
    cases d.attributes.filter isRailroad with
    | cons a rest => rfl
    | nil =>
      show (variants.mapM _ >>= _) = _
      rw [mapM_eq_verdict variantPlan_eq_verdict, verdict_map, List.map_nil, List.findSome?_nil,
        Option.none_or, findSome?_flatMap, List.findSome?_map]
      rfl

/-- Why no implementation comes of a declaration: the first check that fails, or else the first
bound that no predicate can begin with. -/
def failure? (d : Declaration) : Option Failure :=
  (((checks d).findSome? Check.fault?).map .rejected).or
    (((declaredBounds d).find? holdsFields).map .noPredicate)

/-- **The derived implementation** is that of the declared plan, unless a check fails or a predicate
cannot be read. The first check in reading order that fails is the one reported. -/
theorem expand_eq_verdict (d : Declaration) :
    expand d = verdict (failure? d) (.of d (declaredPlan d)) := by
  unfold expand failure?
  rw [plan_eq_verdict, mapError_verdict]
  refine verdict_bind ?_
  have hbounds : (Implementation.of d (declaredPlan d)).bounds = declaredBounds d := rfl
  rw [← hbounds]
  dsimp only
  cases (Implementation.of d (declaredPlan d)).bounds.find? holdsFields <;> rfl

theorem failure?_eq_rejected_iff {d : Declaration} {r : Rejection} :
    failure? d = some (.rejected r) ↔ (checks d).findSome? Check.fault? = some r := by
  unfold failure?
  cases (checks d).findSome? Check.fault? with
  | some r' => simp
  | none => simp

end Railroad.Deriving
