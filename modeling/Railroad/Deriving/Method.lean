import Railroad.Deriving.Plan

/-!
# Derived drawing methods

Model of `struct_body` and `variant_arm`: the drawing method that is derived from a declaration,
before it is written out. A struct has one body. An enum has an arm for each variant, whose pattern
gives names to the fields that the body draws.

* `Body.combine` makes a body of a shape and the fields that are left to draw (`combine`).
* `Method.of` is the method of a plan, `Plan.drawnTypes` the types of the fields that it draws
  (`drawn_types`).
-/

namespace Railroad.Deriving

/-- How a field of a struct is named. -/
inductive Member where
  | named (name : Ident)
  | index (place : Nat)
  deriving DecidableEq

/-- How a body reaches the field that it draws. -/
inductive Access where
  /-- A member of the value that is drawn. -/
  | member (m : Member)
  /-- A name that a pattern has given to the field. -/
  | bound (name : Ident)
  deriving DecidableEq

/-- What is drawn for a struct or variant. -/
inductive Body where
  /-- A token in place of the fields. -/
  | token (kind : TokenKind) (text : Literal)
  /-- An empty segment. -/
  | nothing
  /-- One field as it draws itself. -/
  | one (field : Access)
  /-- Fields one after the other. -/
  | sequence (fields : List Access)
  /-- Fields as alternatives. -/
  | choice (fields : List Access)
  deriving DecidableEq

/-- Which values an arm is for, and the names it gives to their fields. -/
inductive Pattern where
  /-- A variant without fields. -/
  | unit (variant : Ident)
  /-- A variant some of whose named fields keep their names. -/
  | named (variant : Ident) (bindings : List Ident)
  /-- A variant each of whose fields gets a name or none. -/
  | tuple (variant : Ident) (slots : List (Option Ident))
  /-- A variant whose fields lie in parentheses and are not looked at. -/
  | anyTuple (variant : Ident)
  deriving DecidableEq

/-- What is done for the values of one variant. -/
structure Arm where
  pattern : Pattern
  body : Body
  deriving DecidableEq

/-- A derived drawing method. -/
inductive Method where
  /-- One body for all values. -/
  | direct (body : Body)
  /-- An arm for each variant. -/
  | cases (arms : List Arm)
  /-- There are no values. -/
  | impossible
  deriving DecidableEq

/-- The name under which a method receives the drawing options. -/
def optionsName : Ident := ⟨false, "options"⟩

/-- The name that a pattern gives to the field at a place. -/
def slotName (place : Nat) : Ident :=
  ⟨false, "__field" ++ toString place⟩

/-- The fields that a body draws, in order. -/
def Body.accesses : Body → List Access
  | .token _ _ => []
  | .nothing => []
  | .one field => [field]
  | .sequence fields => fields
  | .choice fields => fields

/-- The body that draws fields in a shape. A single field needs no shape around it. -/
def Body.combine : Shape → List Access → Body
  | .token kind text, _ => .token kind text
  | _, [] => .nothing
  | _, [field] => .one field
  | .choice, fields => .choice fields
  | .sequence, fields => .sequence fields

/-! ## Fields that are drawn -/

/-- A field that takes part in the drawing. -/
structure Part where
  access : Access
  /-- The declared type of the field. -/
  type : List TokenTree

/-- The fields with names that are not skipped. -/
def namedParts (access : Ident → Access) (fields : List (Ident × PlannedField)) : List Part :=
  fields.filterMap fun field =>
    if field.2.skipped then none else some ⟨access field.1, field.2.type⟩

/-- The fields that are not skipped of those from a place on. -/
def tupleParts (access : Nat → Access) : Nat → List PlannedField → List Part
  | _, [] => []
  | place, field :: rest =>
    if field.skipped then tupleParts access (place + 1) rest
    else ⟨access place, field.type⟩ :: tupleParts access (place + 1) rest

/-- The fields of a struct that are not skipped. -/
def structParts : PlannedFields → List Part
  | .unit => []
  | .named fields => namedParts (fun name => .member (.named name)) fields
  | .tuple fields => tupleParts (fun place => .member (.index place)) 0 fields

/-- The fields of a variant that are not skipped. -/
def variantParts : PlannedFields → List Part
  | .unit => []
  | .named fields => namedParts .bound fields
  | .tuple fields => tupleParts (fun place => .bound (slotName place)) 0 fields

/-- The types of the parts that are drawn; a token is drawn in place of all of them. -/
def drawnTypes : Shape → List Part → List (List TokenTree)
  | .token _ _, _ => []
  | _, parts => parts.map (·.type)

/-! ## Patterns -/

/-- The names of the fields that are not skipped. -/
def boundNames (fields : List (Ident × PlannedField)) : List Ident :=
  fields.filterMap fun field => if field.2.skipped then none else some field.1

/-- The names for the fields from a place on; a skipped field gets none. -/
def slotNames : Nat → List PlannedField → List (Option Ident)
  | _, [] => []
  | place, field :: rest =>
    (if field.skipped then none else some (slotName place)) :: slotNames (place + 1) rest

/-- The pattern that gives names to the fields of a variant that are not skipped. -/
def bindingPattern (variant : Ident) : PlannedFields → Pattern
  | .unit => .unit variant
  | .named fields => .named variant (boundNames fields)
  | .tuple fields => .tuple variant (slotNames 0 fields)

/-- The pattern that looks at no field of a variant. -/
def anyPattern (variant : Ident) : PlannedFields → Pattern
  | .unit => .unit variant
  | .named _ => .named variant []
  | .tuple _ => .anyTuple variant

/-- The pattern of a variant. A token has no use for the fields. -/
def Pattern.of (variant : Ident) (layout : Layout) : Pattern :=
  match layout.shape with
  | .token _ _ => anyPattern variant layout.fields
  | _ => bindingPattern variant layout.fields

/-! ## The method of a plan -/

/-- The body that draws parts in a shape. -/
def Body.ofParts (shape : Shape) (parts : List Part) : Body :=
  .combine shape (parts.map (·.access))

/-- The arm of a variant. -/
def Arm.of (variant : Ident) (layout : Layout) : Arm :=
  ⟨.of variant layout, .ofParts layout.shape (variantParts layout.fields)⟩

/-- The method of a plan. -/
def Method.of : Plan → Method
  | .struct layout => .direct (.ofParts layout.shape (structParts layout.fields))
  | .enum [] => .impossible
  | .enum variants => .cases (variants.map fun v => .of v.1 v.2)

/-- The types of the fields that the method of a plan draws, in order. -/
def Plan.drawnTypes : Plan → List (List TokenTree)
  | .struct layout => Deriving.drawnTypes layout.shape (structParts layout.fields)
  | .enum variants =>
    variants.flatMap fun v => Deriving.drawnTypes v.2.shape (variantParts v.2.fields)

end Railroad.Deriving
