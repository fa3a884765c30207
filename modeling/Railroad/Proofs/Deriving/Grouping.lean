import Mathlib.Data.List.Forall2
import Railroad.Proofs.Deriving.ReadingOrder

/-!
# How items are shared out among attributes

The same items can be shared out among several lists or stand in one. What does not depend on that,
nor on the places of the tokens, is the *essence* of an item, an entry, a check or a rejection: an
essential item is followed by a comma, and everything stands at the start.

* `Complaint.atComma`: the one thing in a complaint that grouping shows in is whether an item that
  is cut short is cut short by the end of its list.
* `fault?_essence`: the essence of a check fails for the essence of its fault.
* `SameItems`: two declarations that say the same, their items being shared out in any way among
  attributes, and among attributes of other names.
* `SameItems.plan_eq`, `SameItems.firstFault`: such declarations have the same plan, and the same
  check fails first, in essence for the same reason.
-/

namespace Railroad

namespace TokenTree

mutual

/-- A tree without the places of its lexemes. -/
def unplaced : TokenTree → TokenTree
  | .ident i _ => .ident i .start
  | .lifetime i _ => .lifetime i .start
  | .literal l _ => .literal l .start
  | .mark c joint _ => .mark c joint .start
  | .group d inner _ _ => .group d (unplacedAll inner) .start .start

/-- Trees without the places of their lexemes. -/
def unplacedAll : List TokenTree → List TokenTree
  | [] => []
  | t :: rest => unplaced t :: unplacedAll rest

end

theorem unplacedAll_eq_cons {ts us : List TokenTree} {u : TokenTree}
    (h : unplacedAll ts = u :: us) :
    ∃ t rest, ts = t :: rest ∧ unplaced t = u ∧ unplacedAll rest = us := by
  cases ts with
  | nil => cases h
  | cons t rest =>
    cases h
    exact ⟨t, rest, rfl, rfl, rfl⟩

theorem position_unplaced (t : TokenTree) : (unplaced t).position = .start := by
  cases t <;> rfl

theorem unplacedAll_eq_mark_cons {ts us : List TokenTree} {c : Char} {joint : Bool} {p : Position}
    (h : unplacedAll ts = .mark c joint p :: us) :
    ∃ q rest, ts = .mark c joint q :: rest ∧ unplacedAll rest = us := by
  obtain ⟨t, rest, rfl, ht, hr⟩ := unplacedAll_eq_cons h
  cases t with
  | mark c' joint' q =>
    cases ht
    exact ⟨q, rest, rfl, hr⟩
  | _ => cases ht

theorem unplacedAll_eq_ident_cons {ts us : List TokenTree} {i : Ident} {p : Position}
    (h : unplacedAll ts = .ident i p :: us) :
    ∃ q rest, ts = .ident i q :: rest ∧ unplacedAll rest = us := by
  obtain ⟨t, rest, rfl, ht, hr⟩ := unplacedAll_eq_cons h
  cases t with
  | ident i' q =>
    cases ht
    exact ⟨q, rest, rfl, hr⟩
  | _ => cases ht

theorem unplacedAll_eq_literal_cons {ts us : List TokenTree} {l : Literal} {p : Position}
    (h : unplacedAll ts = .literal l p :: us) :
    ∃ q rest, ts = .literal l q :: rest ∧ unplacedAll rest = us := by
  obtain ⟨t, rest, rfl, ht, hr⟩ := unplacedAll_eq_cons h
  cases t with
  | literal l' q =>
    cases ht
    exact ⟨q, rest, rfl, hr⟩
  | _ => cases ht

end TokenTree

open TokenTree (unplaced unplacedAll)

namespace Deriving

/-! ## Essences -/

/-- The complaint as it is when a comma ends the item. -/
def Complaint.atComma : Complaint → Complaint
  | .noItem => .otherItem
  | .noWord _ => .noWord false
  | .noString _ => .noString false
  | c => c

/-- What a rejection complains about. -/
def Rejection.essence (r : Rejection) : Rejection :=
  ⟨⟨r.first.complaint.atComma, .start⟩, r.further.map fun d => ⟨d.complaint.atComma, .start⟩⟩

/-- The trees of an item. -/
def Item.essence (i : Item) : Item :=
  ⟨unplacedAll i.trees, .start, false⟩

/-- What an entry holds. -/
def Entry.essence : Entry → Entry
  | .item i => .item i.essence
  | .noItems r => .noItems r.essence

/-! ## Faults in essence -/

namespace Item

variable {item : Item} {key : String} {place : Position} {left : List TokenTree}

theorem next_essence (item : Item) (left : List TokenTree) :
    item.essence.next (unplacedAll left) = .start := by
  cases left with
  | nil => rfl
  | cons t rest => exact TokenTree.position_unplaced t

theorem reject_essence (item : Item) (left : List TokenTree) (c : Complaint) :
    (item.reject left c).essence = item.essence.reject (unplacedAll left) c.atComma := by
  rw [reject, reject, next_essence]
  rfl

theorem Colons.essence {trees rest : List TokenTree} (h : Colons trees rest) :
    Colons (unplacedAll trees) (unplacedAll rest) := by
  obtain ⟨p, joint, q, rfl⟩ := h
  exact ⟨.start, joint, .start, rfl⟩

theorem not_colons_essence {trees : List TokenTree} (h : ∀ rest, ¬ Colons trees rest) :
    ∀ rest, ¬ Colons (unplacedAll trees) rest := by
  rintro us ⟨p, joint, q, hu⟩
  obtain ⟨p', trees', rfl, hrest⟩ := TokenTree.unplacedAll_eq_mark_cons hu
  obtain ⟨q', rest, rfl, -⟩ := TokenTree.unplacedAll_eq_mark_cons hrest
  exact h rest ⟨p', joint, q', rfl⟩

theorem not_worded_essence {trees : List TokenTree} (h : ¬ Worded trees) :
    ¬ Worded (unplacedAll trees) := by
  rintro ⟨i, p, us, hu⟩
  obtain ⟨q, rest, rfl, -⟩ := TokenTree.unplacedAll_eq_ident_cons hu
  exact h ⟨i, q, rest, rfl⟩

theorem Tail.essence {trees left : List TokenTree} {longer : Bool} (h : Tail trees longer left) :
    Tail (unplacedAll trees) longer (unplacedAll left) := by
  induction h with
  | done h => exact .done (not_colons_essence h)
  | word h _ ih => exact .word h.essence ih

theorem CutTail.essence {trees left : List TokenTree} (h : CutTail trees left) :
    CutTail (unplacedAll trees) (unplacedAll left) := by
  induction h with
  | cut h hw => exact .cut h.essence (not_worded_essence hw)
  | word h _ ih => exact .word h.essence ih

theorem Led.essence {trees rest : List TokenTree} {led : Bool} (h : Led trees led rest) :
    Led (unplacedAll trees) led (unplacedAll rest) := by
  cases h with
  | colons h => exact .colons h.essence
  | plain h => exact .plain (not_colons_essence h)

theorem literalFirst_essence_iff {trees : List TokenTree} :
    LiteralFirst (unplacedAll trees) ↔ LiteralFirst trees := by
  constructor
  · generalize hu : unplacedAll trees = us
    intro h
    cases h with
    | literal l p rest =>
      obtain ⟨q, rest, rfl, -⟩ := TokenTree.unplacedAll_eq_literal_cons hu
      exact .literal l q rest
    | negative hl joint p q rest =>
      obtain ⟨p', trees', rfl, hrest⟩ := TokenTree.unplacedAll_eq_mark_cons hu
      obtain ⟨q', rest, rfl, -⟩ := TokenTree.unplacedAll_eq_literal_cons hrest
      exact .negative hl joint p' q' rest
  · intro h
    cases h with
    | literal l p rest => exact .literal l .start (unplacedAll rest)
    | negative hl joint p q rest => exact .negative hl joint .start .start (unplacedAll rest)

/-- In essence an item begins with the same path. -/
theorem Begins.essence (h : item.Begins key place left) :
    item.essence.Begins key .start (unplacedAll left) := by
  cases h with
  | word h hc =>
    refine .word ?_ (not_colons_essence hc)
    show unplacedAll item.trees = _
    rw [h]
    rfl
  | longer hl ht h => exact .longer hl.essence ht.essence h

/-- Where there is no path, the same is wrong in essence. -/
theorem PathFault.essence {r : Rejection} (h : item.PathFault r) :
    item.essence.PathFault r.essence := by
  cases h with
  | noWord hl ht =>
    rw [reject_essence]
    exact .noWord hl.essence ht.essence
  | @noItem led left hl he =>
    -- where the list ends no tree is left, and so there is a comma in essence
    obtain rfl : left = [] := List.isEmpty_iff.mp (Bool.and_eq_true_iff.mp he).2
    have hf : ¬ LiteralFirst [] := nofun
    have hw : ¬ Worded [] := by
      rintro ⟨_, _, _, hw⟩
      cases hw
    exact .otherItem hl.essence rfl hf hw
  | literalItem hl hf =>
    rw [reject_essence]
    exact .literalItem hl.essence (literalFirst_essence_iff.mpr hf)
  | otherItem hl _ hf hw =>
    rw [reject_essence]
    exact .otherItem hl.essence rfl (mt literalFirst_essence_iff.mp hf) (not_worded_essence hw)

end Item

theorem Gives.essence {item : Item} {shape : Shape} {place : Position} {left : List TokenTree}
    (h : Gives item shape place left) : Gives item.essence shape .start (unplacedAll left) := by
  cases h with
  | choice h => exact .choice h.essence
  | token h hk hl => exact .token h.essence hk hl

theorem ReadFault.essence {item : Item} {r : Rejection} (h : ReadFault item r) :
    ReadFault item.essence r.essence := by
  cases h with
  | path h => exact .path h.essence
  | skip h => exact .skip h.essence
  | unknown h hc hk hs => exact .unknown h.essence hc hk hs
  | noEquals h hk hl =>
    rw [Item.reject_essence]
    refine .noEquals h.essence hk fun joint p rest he => ?_
    obtain ⟨q, rest', rfl, -⟩ := TokenTree.unplacedAll_eq_mark_cons he
    exact hl _ _ _ rfl
  | noString h hk hl =>
    rw [Item.reject_essence]
    refine .noString h.essence hk fun l q rest he => ?_
    obtain ⟨q', rest', rfl, -⟩ := TokenTree.unplacedAll_eq_literal_cons he
    exact hl _ _ _ rfl

theorem ShapeFault.essence {first : Option Position} {item : Item} {r : Rejection}
    (h : ShapeFault first item r) :
    ShapeFault (first.map fun _ => .start) item.essence r.essence := by
  cases h with
  | unread h => exact .unread h.essence
  | @more _ _ left h hf hl =>
    subst hf
    rw [Item.reject_essence]
    refine .more h.essence rfl ?_
    cases left with
    | nil => exact absurd rfl hl
    | cons t rest => exact List.cons_ne_nil _ _
  | conflict h hf =>
    subst hf
    exact .conflict h.essence rfl

theorem SkipFault.essence {item : Item} {r : Rejection} (h : SkipFault item r) :
    SkipFault item.essence r.essence := by
  cases h with
  | path h => exact .path h.essence
  | other h hk => exact .other h.essence hk
  | @more _ left h hl =>
    rw [Item.reject_essence]
    refine .more h.essence ?_
    cases left with
    | nil => exact absurd rfl hl
    | cons t rest => exact List.cons_ne_nil _ _

theorem Item.shape?_essence (item : Item) : item.essence.shape? = item.shape? := by
  cases h : item.shape? with
  | some shape =>
    obtain ⟨place, hg⟩ := Shape.gives_nil_iff.mpr h
    exact Shape.gives_nil_iff.mp ⟨.start, hg.essence⟩
  | none =>
    obtain ⟨r, hr⟩ := Shape.shapeFault_none_iff.mpr h
    exact Shape.shapeFault_none_iff.mp ⟨r.essence, hr.essence⟩

theorem Item.isBare_skip_essence (item : Item) :
    item.essence.isBare "skip" = item.isBare "skip" := by
  cases h : item.isBare "skip" with
  | true =>
    obtain ⟨place, hb⟩ := (isBare_iff_begins (by simp)).mp h
    exact (isBare_iff_begins (by simp)).mpr ⟨.start, hb.essence⟩
  | false =>
    obtain ⟨r, hr⟩ := skipFault_iff.mpr h
    exact skipFault_iff.mp ⟨r.essence, hr.essence⟩

theorem Entry.shape?_essence (e : Entry) : e.essence.shape? = e.shape? := by
  cases e with
  | item i => exact Item.shape?_essence i
  | noItems r => rfl

theorem Entry.skips_essence (e : Entry) : e.essence.skips = e.skips := by
  cases e with
  | item i => exact Item.isBare_skip_essence i
  | noItems r => rfl

theorem Entry.place_essence (e : Entry) : e.essence.place = .start := by
  cases e with
  | item i => exact Item.next_essence i i.trees
  | noItems r => rfl

/-! ## Checks in essence -/

/-- What a check is about. -/
def Check.essence : Check → Check
  | .union _ => .union .start
  | .attributeOnEnum _ => .attributeOnEnum ⟨.start, none, .start, .absent⟩
  | .shape first e => .shape (first.map fun _ => .start) e.essence
  | .skip e => .skip e.essence

theorem Check.Fault.essence {c : Check} {r : Rejection} (h : c.Fault r) :
    c.essence.Fault r.essence := by
  cases h with
  | union keyword => exact .union .start
  | attributeOnEnum a => exact .attributeOnEnum _
  | shapeItem h => exact .shapeItem h.essence
  | shapeNoItems first r => exact .shapeNoItems _ _
  | skipItem h => exact .skipItem h.essence
  | skipNoItems r => exact .skipNoItems _

/-- **The essence of a check fails for the essence of its fault**, and for no other reason. -/
theorem Check.fault?_essence (c : Check) : c.essence.fault? = c.fault?.map (·.essence) := by
  cases h : c.fault? with
  | some r =>
    exact (fault?_eq_some_iff _ _).mpr ((fault?_eq_some_iff _ _).mp h).essence
  | none =>
    show _ = none
    cases c with
    | union keyword => cases h
    | attributeOnEnum a => cases h
    | skip e =>
      rw [skip_fault?_eq_none_iff] at h
      exact (skip_fault?_eq_none_iff _).mpr (by rw [Entry.skips_essence, h])
    | shape first e =>
      cases first with
      | none =>
        rw [shape_fault?_eq_none_iff] at h
        exact (shape_fault?_eq_none_iff _).mpr (by rw [Entry.shape?_essence, h])
      | some place =>
        obtain ⟨r, hr⟩ := exists_second_fault place e
        exact absurd hr ((fault?_eq_none_iff _).mp h r)

/-- `r` is wrong with the check after the first `n` checks, and nothing is wrong with those. -/
def FirstFault (cs : List Check) (n : Nat) (r : Rejection) : Prop :=
  ∃ before c after, cs = before ++ c :: after ∧ before.length = n ∧
    (∀ b ∈ before, ∀ r', ¬ b.Fault r') ∧ c.Fault r

theorem findSome?_fault?_eq_some_iff {cs : List Check} {r : Rejection} :
    cs.findSome? Check.fault? = some r ↔ ∃ n, FirstFault cs n r := by
  rw [List.findSome?_eq_some_iff]
  constructor
  · rintro ⟨before, c, after, rfl, hc, hb⟩
    exact ⟨before.length, before, c, after, rfl, rfl,
      fun b hm => (Check.fault?_eq_none_iff b).mp (hb b hm), (Check.fault?_eq_some_iff c r).mp hc⟩
  · rintro ⟨n, before, c, after, rfl, -, hb, hc⟩
    exact ⟨before, c, after, rfl, (Check.fault?_eq_some_iff c r).mpr hc,
      fun b hm => (Check.fault?_eq_none_iff b).mpr (hb b hm)⟩

/-- Checks that are the same in essence fail at the same place for the same reason. -/
theorem FirstFault.of_essence {cs cs' : List Check} {n : Nat} {r : Rejection}
    (h : cs.map (·.essence) = cs'.map (·.essence)) (hf : FirstFault cs n r) :
    ∃ r', FirstFault cs' n r' ∧ r'.essence = r.essence := by
  obtain ⟨before, c, after, rfl, rfl, hb, hc⟩ := hf
  rw [List.map_append, List.map_cons] at h
  obtain ⟨before', rest, rfl, hbefore, hrest⟩ := List.map_eq_append_iff.mp h.symm
  obtain ⟨c', after', rfl, hc', -⟩ := List.map_eq_cons_iff.mp hrest
  have hfault : c'.fault?.map (·.essence) = some r.essence := by
    rw [← Check.fault?_essence, hc', Check.fault?_essence, (Check.fault?_eq_some_iff c r).mpr hc]
    rfl
  obtain ⟨r', hr', he⟩ := Option.map_eq_some_iff.mp hfault
  refine ⟨r', ⟨before', c', after', rfl, ?_, fun b' hm => ?_,
    (Check.fault?_eq_some_iff c' r').mp hr'⟩, he⟩
  · simpa using congrArg List.length hbefore
  · have hm' : b'.essence ∈ before.map (·.essence) := hbefore ▸ List.mem_map_of_mem hm
    obtain ⟨b, hbm, hbe⟩ := List.mem_map.mp hm'
    have hnone := (Check.fault?_eq_none_iff b).mpr (hb b hbm)
    rw [← Check.fault?_eq_none_iff, ← Option.map_eq_none_iff, ← Check.fault?_essence, ← hbe,
      Check.fault?_essence, hnone]
    rfl

/-! ## Declarations that say the same -/

/-- Attributes that hold the same items. -/
def SameEntries (as bs : List Attribute) : Prop :=
  (allEntries as).map (·.essence) = (allEntries bs).map (·.essence)

/-- Fields of one type whose attributes hold the same items. -/
def SameField (f g : Field) : Prop :=
  f.type = g.type ∧ SameEntries f.attributes g.attributes

/-- Fields of the same names and types whose attributes hold the same items. -/
inductive SameFields : Fields → Fields → Prop
  | unit : SameFields .unit .unit
  | named {fs gs} (h : List.Forall₂ (fun f g => f.1 = g.1 ∧ SameField f.2 g.2) fs gs) :
      SameFields (.named fs) (.named gs)
  | tuple {fs gs} (h : List.Forall₂ SameField fs gs) : SameFields (.tuple fs) (.tuple gs)

/-- Variants of one name whose attributes and fields say the same. -/
def SameVariant (v w : Variant) : Prop :=
  v.name = w.name ∧ SameEntries v.attributes w.attributes ∧ SameFields v.fields w.fields

/-- Bodies that say the same, given the attributes in front of them. Of those in front of an enum
it only matters whether one governs drawings. -/
inductive SameBody (as bs : List Attribute) : Declaration.Body → Declaration.Body → Prop
  | struct {fs gs} (ha : SameEntries as bs) (hf : SameFields fs gs) :
      SameBody as bs (.struct fs) (.struct gs)
  | enum {vs ws} (ha : (as.filter isRailroad).isEmpty = (bs.filter isRailroad).isEmpty)
      (hv : List.Forall₂ SameVariant vs ws) :
      SameBody as bs (.enum vs) (.enum ws)
  | union (k l : Position) : SameBody as bs (.union k) (.union l)

/-- Declarations that differ only in how items are shared out among attributes, in attributes of
other names, and in where the attributes stand. -/
structure SameItems (d e : Declaration) : Prop where
  name : d.name = e.name
  parameters : d.parameters = e.parameters
  predicates : d.predicates = e.predicates
  body : SameBody d.attributes e.attributes d.body e.body

theorem SameField.symm {f g : Field} (h : SameField f g) : SameField g f :=
  ⟨h.1.symm, h.2.symm⟩

theorem SameFields.symm {fs gs : Fields} (h : SameFields fs gs) : SameFields gs fs := by
  cases h with
  | unit => exact .unit
  | named h => exact .named (h.imp fun _ _ hf => ⟨hf.1.symm, hf.2.symm⟩).flip
  | tuple h => exact .tuple (h.imp fun _ _ => SameField.symm).flip

theorem SameVariant.symm {v w : Variant} (h : SameVariant v w) : SameVariant w v :=
  ⟨h.1.symm, h.2.1.symm, h.2.2.symm⟩

theorem SameBody.symm {as bs : List Attribute} {b b' : Declaration.Body} (h : SameBody as bs b b') :
    SameBody bs as b' b := by
  cases h with
  | struct ha hf => exact .struct ha.symm hf.symm
  | enum ha hv => exact .enum ha.symm (hv.imp fun _ _ => SameVariant.symm).flip
  | union k l => exact .union l k

theorem SameItems.symm {d e : Declaration} (h : SameItems d e) : SameItems e d :=
  ⟨h.name.symm, h.parameters.symm, h.predicates.symm, h.body.symm⟩

theorem map_eq_of_forall₂ {α β γ : Type} {R : α → β → Prop} {f : α → γ} {g : β → γ}
    (hfg : ∀ a b, R a b → f a = g b) {as : List α} {bs : List β} (h : List.Forall₂ R as bs) :
    as.map f = bs.map g := by
  induction h with
  | nil => rfl
  | cons hr _ ih => rw [List.map_cons, List.map_cons, hfg _ _ hr, ih]

/-! ### The plan -/

theorem declaredShape_essence (es : List Entry) :
    declaredShape (es.map (·.essence)) = declaredShape es := by
  cases es with
  | nil => rfl
  | cons e rest =>
    show e.essence.shape?.getD .sequence = e.shape?.getD .sequence
    rw [Entry.shape?_essence]

theorem SameEntries.shape_eq {as bs : List Attribute} (h : SameEntries as bs) :
    declaredShape (allEntries as) = declaredShape (allEntries bs) := by
  rw [← declaredShape_essence, h, declaredShape_essence]

theorem any_skips_essence (es : List Entry) :
    (es.map (·.essence)).any (·.skips) = es.any (·.skips) := by
  rw [List.any_map]
  exact congrArg _ (funext Entry.skips_essence)

theorem SameField.planned_eq {f g : Field} (h : SameField f g) :
    plannedField f = plannedField g := by
  obtain ⟨ht, he⟩ := h
  unfold plannedField skipped
  rw [ht, ← any_skips_essence, he, any_skips_essence]

theorem SameFields.planned_eq {fs gs : Fields} (h : SameFields fs gs) :
    plannedFields fs = plannedFields gs := by
  cases h with
  | unit => rfl
  | named h =>
    refine congrArg PlannedFields.named (map_eq_of_forall₂ ?_ h)
    rintro f g ⟨hn, hf⟩
    rw [hn, hf.planned_eq]
  | tuple h => exact congrArg PlannedFields.tuple (map_eq_of_forall₂ (fun _ _ => (·.planned_eq)) h)

theorem Case.layout_eq {c c' : Case} (ha : SameEntries c.attributes c'.attributes)
    (hf : SameFields c.fields c'.fields) : c.layout = c'.layout := by
  unfold Case.layout Case.shape
  rw [ha.shape_eq, hf.planned_eq]

/-- **Declarations that say the same have the same plan.** -/
theorem SameItems.plan_eq {d e : Declaration} (h : SameItems d e) :
    declaredPlan d = declaredPlan e := by
  have hb := h.body
  unfold declaredPlan
  generalize d.body = body, e.body = body' at hb
  cases hb with
  | struct ha hf => exact congrArg Plan.struct (Case.layout_eq ha hf)
  | enum ha hv =>
    refine congrArg Plan.enum (map_eq_of_forall₂ ?_ hv)
    rintro ⟨as, name, fields⟩ ⟨bs, name', fields'⟩ ⟨hn, he, hf⟩
    cases hn
    exact congrArg (Prod.mk name) (Case.layout_eq he hf)
  | union k l => rfl

theorem SameItems.implementation_eq {d e : Declaration} (h : SameItems d e) :
    Implementation.of d (declaredPlan d) = Implementation.of e (declaredPlan e) := by
  unfold Implementation.of Declaration.typeParameters
  rw [h.name, h.parameters, h.predicates, h.plan_eq]

/-! ### The checks -/

theorem shapeChecks_essence (es : List Entry) :
    (shapeChecks es).map (·.essence) = shapeChecks (es.map (·.essence)) := by
  cases es with
  | nil => rfl
  | cons e rest =>
    show Check.shape none e.essence :: _ = Check.shape none e.essence :: _
    rw [List.map_map, List.map_map, Entry.place_essence]
    rfl

theorem SameEntries.skipChecks_eq {as bs : List Attribute} (h : SameEntries as bs) :
    ((allEntries as).map Check.skip).map (·.essence) =
      ((allEntries bs).map Check.skip).map (·.essence) := by
  have hcomm (es : List Entry) :
      (es.map Check.skip).map (·.essence) = (es.map (·.essence)).map Check.skip := by
    rw [List.map_map, List.map_map]
    rfl
  rw [hcomm, hcomm, h]

theorem SameFields.fieldChecks_eq {fs gs : Fields} (h : SameFields fs gs) :
    (fieldChecks (fieldList fs)).map (·.essence) = (fieldChecks (fieldList gs)).map (·.essence) := by
  have hflat {fs gs : List Field} (h : List.Forall₂ SameField fs gs) :
      (fieldChecks fs).map (·.essence) = (fieldChecks gs).map (·.essence) := by
    unfold fieldChecks
    rw [List.map_flatMap, List.map_flatMap, List.flatMap_def, List.flatMap_def,
      map_eq_of_forall₂ (fun _ _ hf => hf.2.skipChecks_eq) h]
  cases h with
  | unit => rfl
  | tuple h => exact hflat h
  | named h =>
    refine hflat (List.forall₂_map_left_iff.mpr (List.forall₂_map_right_iff.mpr ?_))
    exact h.imp fun _ _ hf => hf.2

theorem Case.checks_eq {c c' : Case} (ha : SameEntries c.attributes c'.attributes)
    (hf : SameFields c.fields c'.fields) :
    c.checks.map (·.essence) = c'.checks.map (·.essence) := by
  unfold Case.checks
  rw [List.map_append, List.map_append, shapeChecks_essence, shapeChecks_essence, ha,
    hf.fieldChecks_eq]

/-- An enum with an attribute that governs drawings fails for the first such attribute. -/
theorem firstFault_attributeOnEnum {a : Attribute} {rest : List Attribute} {cs : List Check}
    {n : Nat} {r : Rejection} :
    FirstFault ((a :: rest).map Check.attributeOnEnum ++ cs) n r ↔
      n = 0 ∧ r = .of .attributeOnEnum a.hash := by
  constructor
  · rintro ⟨before, c, after, h, rfl, hb, hc⟩
    cases before with
    | nil =>
      cases h
      cases hc
      exact ⟨rfl, rfl⟩
    | cons b before =>
      obtain ⟨rfl, -⟩ := List.cons.inj h
      exact absurd (.attributeOnEnum a) (hb _ List.mem_cons_self _)
  · rintro ⟨rfl, rfl⟩
    exact ⟨[], _, _, rfl, rfl, by simp, .attributeOnEnum a⟩

/-- **Declarations that say the same fail at the same place**, in essence for the same reason. -/
theorem SameItems.firstFault {d e : Declaration} (h : SameItems d e) {n : Nat} {r : Rejection}
    (hf : FirstFault (checks d) n r) :
    ∃ r', FirstFault (checks e) n r' ∧ r'.essence = r.essence := by
  obtain ⟨as, name, parameters, predicates, body⟩ := d
  obtain ⟨bs, name', parameters', predicates', body'⟩ := e
  cases h.body with
  | union k l =>
    refine FirstFault.of_essence ?_ hf
    rfl
  | struct ha hfields =>
    refine hf.of_essence ?_
    show (_ ++ []).map _ = (_ ++ []).map _
    rw [List.append_nil, List.append_nil]
    exact Case.checks_eq ha hfields
  | @enum vs ws ha hv =>
    unfold checks headChecks cases at hf ⊢
    dsimp only at hf ha ⊢
    cases hfirst : as.filter isRailroad with
    | cons a rest =>
      cases hsecond : bs.filter isRailroad with
      | nil =>
        rw [hfirst, hsecond] at ha
        cases ha
      | cons b rest' =>
        rw [hfirst] at hf
        obtain ⟨rfl, rfl⟩ := firstFault_attributeOnEnum.mp hf
        exact ⟨_, firstFault_attributeOnEnum.mpr ⟨rfl, rfl⟩, rfl⟩
    | nil =>
      cases hsecond : bs.filter isRailroad with
      | cons b rest' =>
        rw [hfirst, hsecond] at ha
        cases ha
      | nil =>
        rw [hfirst] at hf
        refine hf.of_essence ?_
        rw [List.map_append, List.map_append, List.flatMap_map, List.flatMap_map,
          List.map_flatMap, List.map_flatMap, List.flatMap_def, List.flatMap_def]
        refine congrArg _ (congrArg _ (map_eq_of_forall₂ ?_ hv))
        rintro v w ⟨-, he, hfields⟩
        exact Case.checks_eq he hfields

/-- What is reported of two declarations that say the same is the same in essence. -/
theorem SameItems.fault?_eq {d e : Declaration} (h : SameItems d e) :
    ((checks d).findSome? Check.fault?).map (·.essence) =
      ((checks e).findSome? Check.fault?).map (·.essence) := by
  have some_of_some {d e : Declaration} (h : SameItems d e) {r : Rejection}
      (hr : (checks d).findSome? Check.fault? = some r) :
      ∃ r', (checks e).findSome? Check.fault? = some r' ∧ r'.essence = r.essence := by
    obtain ⟨n, hf⟩ := findSome?_fault?_eq_some_iff.mp hr
    obtain ⟨r', hf', he⟩ := h.firstFault hf
    exact ⟨r', findSome?_fault?_eq_some_iff.mpr ⟨n, hf'⟩, he⟩
  cases hd : (checks d).findSome? Check.fault? with
  | some r =>
    obtain ⟨r', hr', he⟩ := some_of_some h hd
    rw [hr', Option.map_some, Option.map_some, he]
  | none =>
    cases he : (checks e).findSome? Check.fault? with
    | none => rfl
    | some r =>
      obtain ⟨r', hr', -⟩ := some_of_some h.symm he
      rw [hd] at hr'
      cases hr'

end Deriving

end Railroad
