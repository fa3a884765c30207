import Railroad.Proofs.Deriving.Grouping
import Railroad.Proofs.Deriving.WhereClause

/-!
# Which declarations are accepted

The grammar of the attributes that govern drawings, for a whole declaration, and what becomes of a
declaration that does not keep to it.

* `InGrammar`: the attributes of a declaration are written as they should be. `Predicable`: a
  predicate can be read for every type that gets one.
* `failure?_eq_none_iff`: no check of a declaration fails and no predicate, iff it is in the grammar
  and predicable.
* `wordings`: what is said to the user, word by word.
* `expand_governed`: attributes of other names are of no account at all.
* `expand_congr_of_sameItems`: how items are shared out among attributes is of no account, except
  for the places and for the words that say that a list has ended.
* `expand_decides_grammar`: what is accepted, and what is reported otherwise.
-/

namespace Railroad.Deriving

/-! ## The grammar -/

/-- The entries of a struct or variant and of its fields are written as they should be. -/
structure Case.InGrammar (c : Case) : Prop where
  /-- There is at most one entry on the struct or variant. -/
  single : (allEntries c.attributes).length ≤ 1
  /-- It gives a shape. -/
  gives : ∀ e ∈ allEntries c.attributes, e.shape?.isSome = true
  /-- Every entry on a field is a bare `skip`. -/
  skips : ∀ f ∈ fieldList c.fields, ∀ e ∈ allEntries f.attributes, e.skips = true

/-- The attributes of a declaration are written as they should be. -/
def InGrammar (d : Declaration) : Prop :=
  match d.body with
  | .struct _ => ∀ c ∈ cases d, c.InGrammar
  | .enum _ => (∀ a ∈ d.attributes, isRailroad a = false) ∧ ∀ c ∈ cases d, c.InGrammar
  | .union _ => False

theorem shapeChecks_none_iff (es : List Entry) :
    (shapeChecks es).findSome? Check.fault? = none ↔
      es.length ≤ 1 ∧ ∀ e ∈ es, e.shape?.isSome = true := by
  cases es with
  | nil => simp [shapeChecks]
  | cons e rest =>
    rw [shapeChecks, List.findSome?_eq_none_iff, List.forall_mem_cons, shape_fault?_eq_none_iff]
    cases rest with
    | nil => simp
    | cons e' rest' =>
      -- a second entry has a fault, whatever it is
      obtain ⟨r, hr⟩ := exists_second_fault e.place e'
      constructor
      · rintro ⟨-, h⟩
        exact absurd hr ((Check.fault?_eq_none_iff _).mp (h _ List.mem_cons_self) r)
      · rintro ⟨h, -⟩
        exact absurd h (by simp)

theorem fieldChecks_none_iff (fields : List Field) :
    (fieldChecks fields).findSome? Check.fault? = none ↔
      ∀ f ∈ fields, ∀ e ∈ allEntries f.attributes, e.skips = true := by
  simp only [fieldChecks, List.findSome?_eq_none_iff, List.mem_flatMap, List.mem_map,
    ← skip_fault?_eq_none_iff]
  constructor
  · intro h f hf e he
    exact h _ ⟨f, hf, e, he, rfl⟩
  · rintro h _ ⟨f, hf, e, he, rfl⟩
    exact h f hf e he

theorem Case.checks_none_iff (c : Case) :
    c.checks.findSome? Check.fault? = none ↔ c.InGrammar := by
  rw [Case.checks, List.findSome?_append, Option.or_eq_none_iff, shapeChecks_none_iff,
    fieldChecks_none_iff]
  constructor
  · rintro ⟨⟨hs, hg⟩, hf⟩
    exact ⟨hs, hg, hf⟩
  · rintro ⟨hs, hg, hf⟩
    exact ⟨⟨hs, hg⟩, hf⟩

/-- **No check fails iff the declaration is in the grammar.** -/
theorem findSome?_checks_eq_none_iff (d : Declaration) :
    (checks d).findSome? Check.fault? = none ↔ InGrammar d := by
  have hcases : ((cases d).flatMap (·.checks)).findSome? Check.fault? = none ↔
      ∀ c ∈ cases d, c.InGrammar := by
    rw [findSome?_flatMap, List.findSome?_eq_none_iff]
    exact forall₂_congr fun c _ => c.checks_none_iff
  rw [checks, List.findSome?_append, Option.or_eq_none_iff, hcases]
  unfold headChecks InGrammar
  cases d.body with
  | struct fields => simp
  | union keyword => simp [Check.fault?]
  | enum variants =>
    refine and_congr_left' ?_
    simp only [List.findSome?_eq_none_iff, List.mem_map, List.mem_filter]
    constructor
    · intro h a ha
      cases hg : isRailroad a with
      | false => rfl
      | true => cases h _ ⟨a, ⟨ha, hg⟩, rfl⟩
    · rintro h _ ⟨a, ⟨ha, hg⟩, rfl⟩
      rw [h a ha] at hg
      cases hg

/-! ## Attributes of other names -/

/-- The field with those of its attributes that govern drawings. -/
def governedField (f : Field) : Field :=
  { f with attributes := f.attributes.filter isRailroad }

/-- Fields with those of their attributes that govern drawings. -/
def governedFields : Fields → Fields
  | .unit => .unit
  | .named fields => .named (fields.map fun f => (f.1, governedField f.2))
  | .tuple fields => .tuple (fields.map governedField)

/-- The variant with those of its attributes, and of the attributes of its fields, that govern
drawings. -/
def governedVariant (v : Variant) : Variant :=
  ⟨v.attributes.filter isRailroad, v.name, governedFields v.fields⟩

/-- The declaration without the attributes that do not govern drawings. -/
def governed (d : Declaration) : Declaration :=
  { d with
    attributes := d.attributes.filter isRailroad
    body := match d.body with
      | .struct fields => .struct (governedFields fields)
      | .enum variants => .enum (variants.map governedVariant)
      | .union keyword => .union keyword }

theorem allEntries_filter_isRailroad (attributes : List Attribute) :
    allEntries (attributes.filter isRailroad) = allEntries attributes := by
  unfold allEntries
  rw [List.filter_filter]
  simp

theorem plannedFields_governed (fields : Fields) :
    plannedFields (governedFields fields) = plannedFields fields := by
  have hfield (f : Field) : plannedField (governedField f) = plannedField f := by
    unfold plannedField skipped governedField
    rw [allEntries_filter_isRailroad]
  cases fields with
  | unit => rfl
  | named fields => simp [governedFields, plannedFields, hfield]
  | tuple fields => simp [governedFields, plannedFields, hfield]

theorem fieldChecks_governed (fields : Fields) :
    fieldChecks (fieldList (governedFields fields)) = fieldChecks (fieldList fields) := by
  have hfield (f : Field) : allEntries (governedField f).attributes = allEntries f.attributes :=
    allEntries_filter_isRailroad f.attributes
  cases fields with
  | unit => rfl
  | named fields => simp [governedFields, fieldList, fieldChecks, List.flatMap_map, hfield]
  | tuple fields => simp [governedFields, fieldList, fieldChecks, List.flatMap_map, hfield]

theorem declaredPlan_governed (d : Declaration) : declaredPlan (governed d) = declaredPlan d := by
  have hlayout (variant : Option Ident) (attributes : List Attribute) (fields : Fields) :
      Case.layout ⟨variant, attributes.filter isRailroad, governedFields fields⟩ =
        Case.layout ⟨variant, attributes, fields⟩ := by
    simp [Case.layout, Case.shape, allEntries_filter_isRailroad, plannedFields_governed]
  unfold declaredPlan governed
  cases d.body with
  | struct fields => exact congrArg Plan.struct (hlayout none d.attributes fields)
  | union keyword => rfl
  | enum variants =>
    simp only [List.map_map]
    refine congrArg Plan.enum (List.map_congr_left fun v _ => ?_)
    exact congrArg (Prod.mk v.name) (hlayout (some v.name) v.attributes v.fields)

theorem checks_governed (d : Declaration) : checks (governed d) = checks d := by
  have hcase (variant : Option Ident) (attributes : List Attribute) (fields : Fields) :
      Case.checks ⟨variant, attributes.filter isRailroad, governedFields fields⟩ =
        Case.checks ⟨variant, attributes, fields⟩ := by
    simp [Case.checks, allEntries_filter_isRailroad, fieldChecks_governed]
  unfold checks headChecks cases governed
  cases d.body with
  | struct fields => simp [hcase]
  | union keyword => rfl
  | enum variants => simp [List.flatMap_map, governedVariant, hcase]

theorem implementation_governed (d : Declaration) :
    Implementation.of (governed d) (declaredPlan (governed d)) =
      Implementation.of d (declaredPlan d) := by
  rw [declaredPlan_governed]
  rfl

/-- **Attributes of other names are of no account.** -/
theorem expand_governed (d : Declaration) : expand (governed d) = expand d := by
  have hbounds : declaredBounds (governed d) = declaredBounds d :=
    congrArg Implementation.bounds (implementation_governed d)
  rw [expand_eq_verdict, expand_eq_verdict, failure?, failure?, checks_governed, hbounds,
    implementation_governed]

/-! ## Grouping -/

/-- Why no implementation comes of a declaration, in essence. -/
def Failure.essence : Failure → Failure
  | .rejected r => .rejected r.essence
  | .noPredicate type => .noPredicate type

theorem SameItems.failure?_eq {d e : Declaration} (h : SameItems d e) :
    (failure? d).map (·.essence) = (failure? e).map (·.essence) := by
  have hbounds : declaredBounds d = declaredBounds e :=
    congrArg Implementation.bounds h.implementation_eq
  have hrejected (fault : Option Rejection) :
      (fault.map Failure.rejected).map (·.essence) = (fault.map (·.essence)).map .rejected := by
    cases fault <;> rfl
  unfold failure?
  rw [Option.map_or, Option.map_or, hrejected, hrejected, h.fault?_eq, hbounds]

/-- **Items may be shared out among attributes in any way.** The same implementation is derived, or
what is reported is the same in essence. -/
theorem expand_congr_of_sameItems {d e : Declaration} (h : SameItems d e) :
    (expand d).mapError (·.essence) = (expand e).mapError (·.essence) := by
  rw [expand_eq_verdict, expand_eq_verdict, mapError_verdict, mapError_verdict,
    h.implementation_eq, h.failure?_eq]

/-! ## Predicates -/

/-- Fields stand in place of the type. No predicate begins with them. -/
def FieldsInPlace (type : List TokenTree) : Prop :=
  ∃ word ∈ ["struct", "union"], ∃ rest, TokenTree.spellings type = word :: "\x7b" :: rest

/-- Every type that a predicate is added for is one that a predicate can begin with. -/
def Predicable (d : Declaration) : Prop :=
  ∀ call ∈ calls d, Involves d.typeParameters call.2 → ¬ FieldsInPlace call.2

theorem holdsFields_iff {type : List TokenTree} :
    holdsFields type = true ↔ FieldsInPlace type := by
  unfold holdsFields FieldsInPlace
  generalize TokenTree.spellings type = words
  constructor
  · intro h
    rw [List.contains_iff_mem, List.mem_cons, List.mem_singleton] at h
    have htail := List.take_append_drop 2 words
    rcases h with h | h <;> rw [h] at htail
    · exact ⟨"struct", by simp, _, htail.symm⟩
    · exact ⟨"union", by simp, _, htail.symm⟩
  · rintro ⟨word, hw, rest, rfl⟩
    rw [List.contains_iff_mem]
    rcases List.mem_cons.mp hw with rfl | hw
    · exact List.mem_cons_self
    · obtain rfl := List.mem_singleton.mp hw
      exact List.mem_cons_of_mem _ List.mem_cons_self

/-- **Every predicate can be read iff the declaration is predicable.** -/
theorem find?_holdsFields_eq_none_iff (d : Declaration) :
    (declaredBounds d).find? holdsFields = none ↔ Predicable d := by
  rw [List.find?_eq_none]
  simp only [holdsFields_iff]
  constructor
  · intro h call hc hi hf
    obtain ⟨b, hb, hl⟩ := exists_declaredBound_of_call hc hi
    -- the bound is laid out like the type of the call, so fields stand in its place, too
    have hspelled : TokenTree.spellings b = TokenTree.spellings call.2 := by
      rw [← TokenTree.map_fst_layouts, ← TokenTree.map_fst_layouts, hl]
    refine h b hb ?_
    unfold FieldsInPlace
    rwa [hspelled]
  · intro h b hb
    obtain ⟨⟨call, hc, rfl⟩, hi⟩ := call_of_mem_declaredBounds hb
    exact h call hc hi

theorem failure?_eq_none_iff (d : Declaration) :
    failure? d = none ↔ InGrammar d ∧ Predicable d := by
  rw [failure?, Option.or_eq_none_iff, Option.map_eq_none_iff, Option.map_eq_none_iff,
    findSome?_checks_eq_none_iff, find?_holdsFields_eq_none_iff]

/-! ## The decision -/

/-- What the user is told, word by word. -/
def wordings : List (Complaint × String) := [
  (.unionDeclared, "Railroadable cannot be derived for unions"),
  (.attributeOnEnum, "railroad attributes belong on enum variants, not on the enum"),
  (.noArguments, "expected attribute arguments in parentheses: #[railroad(...)]"),
  (.assignedArguments, "expected parentheses: #[railroad(...)]"),
  (.noItem, "unexpected end of input, expected nested attribute"),
  (.literalItem, "unexpected literal in nested attribute, expected ident"),
  (.otherItem, "unexpected token in nested attribute, expected ident"),
  (.noWord false, "expected ident"),
  (.noWord true, "unexpected end of input, expected ident"),
  (.noEquals, "expected `=`"),
  (.noString false, "expected string literal"),
  (.noString true, "unexpected end of input, expected string literal"),
  (.skipOutsideField, "`skip` applies to fields, not to structs or variants"),
  (.conflicting, "conflicting railroad attributes"),
  (.firstDeclared, "first declared here"),
  (.onlySkip, "only `skip` is allowed on fields"),
  (.noComma, "expected `,`")]

/-- What is wrong is said in the words of the table; of a key that there is not, the key is named. -/
theorem message_eq_of_mem_wordings :
    (∀ w ∈ wordings, w.1.message = w.2) ∧
      ∀ key, (Complaint.unknownKey key).message = "unknown railroad attribute `" ++ key ++ "`" := by
  have h : wordings.map (fun w => w.1.message) = wordings.map (·.2) := rfl
  exact ⟨List.map_inj_left.mp h, fun _ => rfl⟩

theorem exists_expand_eq_ok_iff (d : Declaration) :
    (∃ i, expand d = .ok i) ↔ InGrammar d ∧ Predicable d := by
  rw [expand_eq_verdict, exists_verdict_eq_ok_iff, failure?_eq_none_iff]

theorem expand_eq_rejected_iff {d : Declaration} {r : Rejection} :
    expand d = .error (.rejected r) ↔ ∃ n, FirstFault (checks d) n r := by
  rw [expand_eq_verdict, verdict_eq_error_iff, failure?_eq_rejected_iff,
    findSome?_fault?_eq_some_iff]

theorem expand_union {d : Declaration} {keyword : Position} (h : d.body = .union keyword) :
    expand d = .error (.rejected (.of .unionDeclared keyword)) := by
  rw [expand_eq_verdict, failure?, checks, headChecks, h]
  rfl

/-- The attribute on an enum is reported whatever the variants are. -/
theorem expand_attributeOnEnum {d : Declaration} {variants : List Variant} {a : Attribute}
    {rest : List Attribute} (h : d.body = .enum variants)
    (ha : d.attributes.filter isRailroad = a :: rest) :
    expand d = .error (.rejected (.of .attributeOnEnum a.hash)) := by
  rw [expand_eq_verdict, failure?, checks, headChecks, h]
  dsimp only
  rw [ha]
  rfl

/-- **What is accepted, and what is reported otherwise.** A union is always rejected, and so is an
enum with an attribute of its own. Otherwise a declaration is accepted iff it is in the grammar,
which asks every attribute that governs drawings for a list of items, and a predicate can be read
for each type that gets one; and if it is not in the grammar, the first fault in reading order is
reported. Neither attributes of other names nor the grouping of items have a say in that: grouping
shows in the places, and in whether the complaint about an item that is cut short says that the list
has ended. -/
theorem expand_decides_grammar (d : Declaration) :
    (∀ w ∈ wordings, w.1.message = w.2) ∧
    (∀ key, (Complaint.unknownKey key).message = "unknown railroad attribute `" ++ key ++ "`") ∧
    (∀ a es, Holds a es ↔ entries a = es) ∧
    (∀ keyword, d.body = .union keyword →
      expand d = .error (.rejected (.of .unionDeclared keyword))) ∧
    (∀ variants a rest, d.body = .enum variants → d.attributes.filter isRailroad = a :: rest →
      expand d = .error (.rejected (.of .attributeOnEnum a.hash))) ∧
    ((∃ i, expand d = .ok i) ↔ InGrammar d ∧ Predicable d) ∧
    (∀ r, expand d = .error (.rejected r) ↔ ∃ n, FirstFault (checks d) n r) ∧
    expand (governed d) = expand d ∧
    ∀ e, SameItems d e →
      (expand d).mapError (·.essence) = (expand e).mapError (·.essence) ∧
      ∀ n r, FirstFault (checks d) n r →
        ∃ r', FirstFault (checks e) n r' ∧ r'.essence = r.essence := by
  refine ⟨message_eq_of_mem_wordings.1, message_eq_of_mem_wordings.2, fun a es => holds_iff,
    fun keyword h => expand_union h, fun variants a rest h ha => expand_attributeOnEnum h ha,
    exists_expand_eq_ok_iff d, fun r => expand_eq_rejected_iff, expand_governed d, fun e h => ?_⟩
  exact ⟨expand_congr_of_sameItems h, fun n r hf => h.firstFault hf⟩

/-- A struct without parameters. -/
def plainStruct (attributes : List Attribute) (fields : Fields) : Declaration :=
  ⟨attributes, ⟨false, "A"⟩, ⟨[], false⟩, ⟨[], false⟩, .struct fields⟩

/-- A field of the type `X`. -/
def fieldX (attributes : List Attribute) : Field :=
  ⟨attributes, [.ident ⟨false, "X"⟩ .start]⟩

/-- The item `key = "x"`. -/
def keyed (key : String) : List TokenTree :=
  [.ident ⟨false, key⟩ .start, .mark '=' false .start, .literal ⟨.text, "\"x\""⟩ .start]

/-- The items `skip` and `skip` in one attribute. -/
def skipTwice : Attribute :=
  railroadAttribute (.list [.ident ⟨false, "skip"⟩ .start, .mark ',' false .start,
    .ident ⟨false, "skip"⟩ .start] .start)

/-- The items `text =` and `choice` in two attributes. -/
def textThenChoice : List Attribute :=
  [railroadAttribute (.list [.ident ⟨false, "text"⟩ ⟨1, 11⟩, .mark '=' false ⟨1, 16⟩] ⟨1, 17⟩),
    railroadAttribute (.list [.ident ⟨false, "choice"⟩ ⟨1, 31⟩] ⟨1, 37⟩)]

/-- The items `text =` and `choice` in one attribute, after a blank. -/
def textWithChoice : List Attribute :=
  [railroadAttribute (.list [.ident ⟨false, "text"⟩ ⟨1, 12⟩, .mark '=' false ⟨1, 17⟩,
    .mark ',' false ⟨1, 18⟩, .ident ⟨false, "choice"⟩ ⟨1, 20⟩] ⟨1, 26⟩)]

theorem sameItems_text_choice :
    SameItems (plainStruct textThenChoice .unit) (plainStruct textWithChoice .unit) :=
  ⟨rfl, rfl, rfl, .struct rfl .unit⟩

theorem expand_decides_grammar_structs :
    (∃ i, expand (plainStruct [railroadWord "choice"]
      (.tuple [fieldX [skipTwice, railroadWord "skip"], fieldX []])) = .ok i) ∧
    (∀ key ∈ ["production", "text", "anycase", "description"], ∃ i,
      expand (plainStruct [railroadAttribute (.list (keyed key) .start)] .unit) = .ok i) ∧
    (expand (plainStruct [] (.tuple [fieldX [railroadWord "skip",
          railroadAttribute (.list [.ident ⟨false, "choice"⟩ ⟨1, 38⟩] ⟨1, 44⟩)]])) =
        .error (.rejected (.of .onlySkip ⟨1, 38⟩)) ∧
      Complaint.onlySkip.message = "only `skip` is allowed on fields") ∧
    (expand (plainStruct textThenChoice .unit)).mapError (·.essence) =
      (expand (plainStruct textWithChoice .unit)).mapError (·.essence) ∧
    expand ⟨[], ⟨false, "U"⟩, ⟨[], false⟩, ⟨[], false⟩, .union .start⟩ =
      .error (.rejected (.of .unionDeclared .start)) ∧
    expand ⟨[railroadAttribute .absent], ⟨false, "E"⟩, ⟨[], false⟩, ⟨[], false⟩, .enum []⟩ =
      .error (.rejected (.of .attributeOnEnum .start)) := by
  have accepts {d : Declaration} (h : InGrammar d) (hp : d.typeParameters = []) :
      ∃ i, expand d = .ok i := by
    refine (expand_decides_grammar d).2.2.2.2.2.1.mpr ⟨h, fun call _ hi => ?_⟩
    obtain ⟨name, hn, -⟩ := hi
    rw [hp] at hn
    cases hn
  obtain ⟨-, -, -, -, -, -, hreported, -⟩ := expand_decides_grammar (plainStruct []
    (.tuple [fieldX [railroadWord "skip",
      railroadAttribute (.list [.ident ⟨false, "choice"⟩ ⟨1, 38⟩] ⟨1, 44⟩)]]))
  obtain ⟨hwordings, -, -, -, -, -, -, -, hgrouped⟩ :=
    expand_decides_grammar (plainStruct textThenChoice .unit)
  refine ⟨accepts ?_ rfl, fun key hk => accepts ?_ rfl,
    ⟨(hreported _).mpr (findSome?_fault?_eq_some_iff.mp rfl), hwordings (.onlySkip, _) ?_⟩,
    (hgrouped _ sameItems_text_choice).1, (expand_decides_grammar _).2.2.2.1 .start rfl,
    (expand_decides_grammar _).2.2.2.2.1 [] (railroadAttribute .absent) [] rfl rfl⟩
  · intro c hc
    obtain rfl := List.mem_singleton.mp hc
    exact ⟨by decide, by decide, by decide⟩
  · intro c hc
    obtain rfl := List.mem_singleton.mp hc
    simp only [List.mem_cons, List.not_mem_nil, or_false] at hk
    rcases hk with rfl | rfl | rfl | rfl <;> exact ⟨by decide, by decide, by simp [fieldList]⟩
  · simp [wordings]

/-- A struct with a type parameter `T` and fields `{ t: T }` in place of a type. -/
def fieldsInStruct : Declaration :=
  ⟨[], ⟨false, "A"⟩, ⟨[.type [] ⟨false, "T"⟩ []], false⟩, ⟨[], false⟩,
    .struct (.named [(⟨false, "_"⟩, ⟨[], [.ident ⟨false, "struct"⟩ .start,
      .group .brace [.ident ⟨false, "t"⟩ .start, .mark ':' false .start, letterT] .start .start]⟩)])⟩

/-- An attribute without a list has no items, and yet it is refused; the same items are refused in
other words when they are grouped in another way; and without any items a declaration is refused
for fields in place of a type. -/
theorem listless_attribute_refused :
    ((∀ i, .item i ∉ allEntries (plainStruct [railroadAttribute .absent] .unit).attributes) ∧
      ¬ ∃ i, expand (plainStruct [railroadAttribute .absent] .unit) = .ok i) ∧
    (SameItems (plainStruct textThenChoice .unit) (plainStruct textWithChoice .unit) ∧
      expand (plainStruct textThenChoice .unit) =
        .error (.rejected (.of (.noString true) ⟨1, 17⟩)) ∧
      expand (plainStruct textWithChoice .unit) =
        .error (.rejected (.of (.noString false) ⟨1, 18⟩))) ∧
    InGrammar fieldsInStruct ∧ ¬ ∃ i, expand fieldsInStruct = .ok i := by
  refine ⟨⟨fun i hi => ?_, ?_⟩, ⟨sameItems_text_choice, rfl, rfl⟩, ?_, ?_⟩
  · cases List.mem_singleton.mp hi
  · rintro ⟨i, h⟩
    cases h
  · intro c hc
    obtain rfl := List.mem_singleton.mp hc
    exact ⟨by decide, by decide, by decide⟩
  · rintro ⟨i, h⟩
    cases h

end Railroad.Deriving
