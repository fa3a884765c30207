import Railroad.Deriving.Shape

/-!
# Drawing plans

The checks of `expand`, `struct_body` and `variant_arm`, apart from what these put together. A plan
is what the attributes of a declaration come to once all of them have been found in order: a shape
for the struct or for each variant, and which fields are skipped. Everything that can be wrong with
an attribute is found while the plan is made.

* `Plan.of` makes the plan of a declaration. It takes a struct, and each variant of an enum in turn,
  first by its own attributes and then by those of its fields.
-/

namespace Railroad.Deriving

/-- A field, and whether it is skipped. -/
structure PlannedField where
  skipped : Bool
  /-- The declared type. -/
  type : List TokenTree

/-- The fields of a struct or variant, each with whether it is skipped. -/
inductive PlannedFields where
  | unit
  | named (fields : List (Ident × PlannedField))
  | tuple (fields : List PlannedField)

/-- How a struct or variant is drawn. -/
structure Layout where
  shape : Shape
  fields : PlannedFields

/-- How the values of a declared type are drawn. -/
inductive Plan where
  | struct (layout : Layout)
  | enum (variants : List (Ident × Layout))

/-- Finds out whether a field is skipped. -/
def PlannedField.of (field : Field) : Except Rejection PlannedField := do
  let skipped ← isSkipped field.attributes
  return ⟨skipped, field.type⟩

/-- Finds out which fields are skipped. -/
def PlannedFields.of : Fields → Except Rejection PlannedFields
  | .unit => .ok .unit
  | .named fields => do
    let planned ← fields.mapM fun field => do
      let planned ← PlannedField.of field.2
      return (field.1, planned)
    return .named planned
  | .tuple fields => do
    let planned ← fields.mapM PlannedField.of
    return .tuple planned

/-- The layout that attributes and fields come to. -/
def Layout.of (attributes : List Attribute) (fields : Fields) : Except Rejection Layout := do
  let shape ← Shape.read attributes
  let planned ← PlannedFields.of fields
  return ⟨shape, planned⟩

/-- The plan of a declaration. -/
def Plan.of (d : Declaration) : Except Rejection Plan :=
  match d.body with
  | .struct fields => do
    let layout ← Layout.of d.attributes fields
    return .struct layout
  | .enum variants =>
    match d.attributes.find? governs with
    | some a => .error (.of .attributeOnEnum a.hash)
    | none => do
      let layouts ← variants.mapM fun v => do
        let layout ← Layout.of v.attributes v.fields
        return (v.name, layout)
      return .enum layouts
  | .union keyword => .error (.of .unionDeclared keyword)

end Railroad.Deriving
