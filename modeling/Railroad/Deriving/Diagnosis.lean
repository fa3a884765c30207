import Railroad.Source.Position

/-!
# Diagnoses

The errors that `parse_shape`, `is_skipped` and `expand` return. Why no drawing can be derived from
a declaration: each cause, its wording, and the place that the user is shown.
-/

namespace Railroad.Deriving

/-- What is wrong with a declaration or one of its attributes. -/
inductive Complaint where
  /-- A union has no drawing. -/
  | unionDeclared
  /-- An enum has a shape for each variant and none for the whole. -/
  | attributeOnEnum
  /-- The attribute has no list of items. -/
  | noArguments
  /-- The attribute has a value where a list of items is expected. -/
  | assignedArguments
  /-- The list ends in the middle of the path of an item. -/
  | noItem
  /-- A literal stands where an item is expected. -/
  | literalItem
  /-- Something else than a path stands where an item is expected. -/
  | otherItem
  /-- A path ends in two colons; `ended` tells whether the list ends there, too. -/
  | noWord (ended : Bool)
  /-- The key of a token is not followed by an equals sign. -/
  | noEquals
  /-- The key of a token is not given a string; `ended` tells whether the list ends there. -/
  | noString (ended : Bool)
  /-- A field can be skipped, a struct or variant cannot. -/
  | skipOutsideField
  /-- There is no such item. -/
  | unknownKey (key : String)
  /-- A second shape is given. -/
  | conflicting
  /-- This is the first of two shapes. -/
  | firstDeclared
  /-- A field has no shape. -/
  | onlySkip
  /-- An item is followed by something else than a comma. -/
  | noComma
  /-- The derivation breaks off. It does not say so itself: this is told by whoever asked for it. -/
  | brokenOff
  deriving DecidableEq

/-- The explanation given to the user. -/
def Complaint.message : Complaint → String
  | .unionDeclared => "Railroadable cannot be derived for unions"
  | .attributeOnEnum => "railroad attributes belong on enum variants, not on the enum"
  | .noArguments => "expected attribute arguments in parentheses: #[railroad(...)]"
  | .assignedArguments => "expected parentheses: #[railroad(...)]"
  | .noItem => "unexpected end of input, expected nested attribute"
  | .literalItem => "unexpected literal in nested attribute, expected ident"
  | .otherItem => "unexpected token in nested attribute, expected ident"
  | .noWord false => "expected ident"
  | .noWord true => "unexpected end of input, expected ident"
  | .noEquals => "expected `=`"
  | .noString false => "expected string literal"
  | .noString true => "unexpected end of input, expected string literal"
  | .skipOutsideField => "`skip` applies to fields, not to structs or variants"
  | .unknownKey key => "unknown railroad attribute `" ++ key ++ "`"
  | .conflicting => "conflicting railroad attributes"
  | .firstDeclared => "first declared here"
  | .onlySkip => "only `skip` is allowed on fields"
  | .noComma => "expected `,`"
  | .brokenOff => "proc-macro derive panicked"

/-- A complaint about some place. -/
structure Diagnosis where
  complaint : Complaint
  place : Position
  deriving DecidableEq

/-- Why no drawing can be derived: a diagnosis, and further places that explain it. -/
structure Rejection where
  first : Diagnosis
  further : List Diagnosis
  deriving DecidableEq

/-- A rejection for one cause. -/
def Rejection.of (complaint : Complaint) (place : Position) : Rejection :=
  ⟨⟨complaint, place⟩, []⟩

/-- All diagnoses of a rejection. -/
def Rejection.diagnoses (r : Rejection) : List Diagnosis :=
  r.first :: r.further

end Railroad.Deriving
