import Railroad.Text.Outline

/-!
# Refusals

Model of `Error`, the two requests that the library declines: a token of a kind that does not exist
(`InvalidTokenType`), and the drawing of a value whose type has no drawing (`InvalidCapability`).
`Refusal.unregistered` is `Error::unregistered_type_id`, and `Refusal.message` is the wording of
both.
-/

namespace Railroad

/-- Why a request is declined. -/
inductive Refusal where
  /-- No kind of token has this code. -/
  | unknownKindCode (code : Int64)
  /-- Values of the type with this name cannot be drawn. -/
  | notDrawable (typeName : String)
  deriving DecidableEq

namespace Refusal

/-- A value of unknown type name, known only by the identity of its type. -/
def unregistered (identity : String) : Refusal :=
  .notDrawable ("unregistered type id " ++ identity
    ++ " (call Registry::create_railroad_of to see the type name)")

/-- The explanation given to the user. -/
def message : Refusal → String
  | .unknownKindCode code =>
    "invalid token type " ++ toString code.toInt
      ++ ": expected one of 1 (production), 2 (text), 3 (anycase), 4 (description)"
  | .notDrawable typeName =>
    "cannot create a railroad diagram for a value of type `" ++ typeName
      ++ "`: it is not railroadable"

/-- The refusal laid out for inspection. -/
def outline : Refusal → Outline
  | .unknownKindCode code => .record "InvalidTokenType" ["code"] [.word (toString code.toInt)]
  | .notDrawable typeName => .record "InvalidCapability" ["type_name"] [.quoted typeName]

end Refusal

end Railroad
