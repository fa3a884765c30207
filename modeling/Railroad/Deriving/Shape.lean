import Railroad.Deriving.Item
import Railroad.Token

/-!
# Shapes

Model of `Shape`, `token_kind`, `parse_shape` and `is_skipped`. The shape of a struct or variant
says how it is drawn: its fields one after the other, its fields as alternatives, or one token in
place of the fields. A field may be skipped.

* `Shape.read` reads the shape off the attributes of a struct or variant (`parse_shape`). At most
  one shape may be given, over all attributes together.
* `isSkipped` tells whether the attributes of a field skip it (`is_skipped`).

Attributes are read from left to right, and the first thing that is wrong is reported.
-/

namespace Railroad.Deriving

/-- How a struct or variant is drawn. -/
inductive Shape where
  /-- The fields one after the other. -/
  | sequence
  /-- The fields as alternatives. -/
  | choice
  /-- A token with a given text. -/
  | token (kind : TokenKind) (text : Literal)
  deriving DecidableEq

namespace Shape

/-- The kind of token that a key stands for. -/
def tokenKind? : String → Option TokenKind
  | "production" => some .production
  | "text" => some .text
  | "anycase" => some .anyCase
  | "description" => some .description
  | _ => none

/-- The text given to the key of a token, and the trees after it. -/
def readText (item : Item) : List TokenTree → Except Rejection (Literal × List TokenTree)
  | .mark '=' _ _ :: .literal l place :: rest =>
    match l.form with
    | .text | .rawText _ => .ok (l, rest)
    | _ => .error (.of (.noString false) place)
  | .mark '=' _ _ :: rest => .error (item.reject rest (.noString (item.ends rest)))
  | rest => .error (item.reject rest .noEquals)

/-- The shape that an item gives, with the path of the item and the trees after the shape. -/
def readItem (item : Item) : Except Rejection (Shape × Item.Path × List TokenTree) := do
  let (path, left) ← item.path
  if path.key = "choice" then
    return (.choice, path, left)
  else match tokenKind? path.key with
    | some kind =>
      let (text, left) ← readText item left
      return (.token kind text, path, left)
    | none =>
      if path.key = "skip" then throw (.of .skipOutsideField path.place)
      else throw (.of (.unknownKey path.key) path.place)

/-- A shape, and where it was given. -/
structure Given where
  shape : Shape
  place : Position

/-- Takes in one item after a shape may have been given. -/
def take (given : Option Given) (item : Item) : Except Rejection (Option Given) := do
  let (shape, path, left) ← readItem item
  match given with
  | some first =>
    throw ⟨⟨.conflicting, path.place⟩, [⟨.firstDeclared, first.place⟩]⟩
  | none =>
    item.finish left
    return some ⟨shape, path.place⟩

/-- Takes in one attribute. -/
def takeAttribute (given : Option Given) (a : Attribute) : Except Rejection (Option Given) := do
  let list ← items a
  list.foldlM take given

/-- The shape that attributes give. -/
def read (attributes : List Attribute) : Except Rejection Shape := do
  let given ← (attributes.filter governs).foldlM takeAttribute none
  return (given.map (·.shape)).getD .sequence

end Shape

/-- Takes in one item on a field, which can only be skipped. -/
def takeSkip (item : Item) : Except Rejection Unit := do
  let (path, left) ← item.path
  if path.key = "skip" then item.finish left
  else throw (.of .onlySkip path.place)

/-- Takes in one attribute of a field, and tells whether the field is skipped by now. -/
def takeSkipAttribute (skipped : Bool) (a : Attribute) : Except Rejection Bool := do
  let list ← items a
  list.forM takeSkip
  return skipped || !list.isEmpty

/-- The attributes of a field skip it. -/
def isSkipped (attributes : List Attribute) : Except Rejection Bool :=
  (attributes.filter governs).foldlM takeSkipAttribute false

end Railroad.Deriving
