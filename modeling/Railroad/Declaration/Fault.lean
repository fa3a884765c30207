import Railroad.Source.Position

/-!
# Faults of a source text

A source text that is no declaration: it cannot be cut into tokens, or something other than what is
read next is expected at some place.
-/

namespace Railroad

/-- Why a source text is not a declaration, and where. -/
inductive Declaration.Fault where
  /-- The text cannot be cut into tokens. -/
  | unreadable (place : Position)
  /-- One of the alternatives is expected where the text goes on differently. -/
  | expected (alternatives : List String) (place : Position)
  /-- A name is expected where a keyword stands. -/
  | keyword (word : String) (place : Position)
  /-- One of the alternatives is expected where the text ends. -/
  | ended (alternatives : List String)
  /-- The text goes on after the declaration. -/
  | unexpected (place : Position)

namespace Declaration.Fault

/-- The alternatives in words. -/
def expectation : List String → String
  | [] => "unexpected token"
  | [a] => "expected " ++ a
  | [a, b] => "expected " ++ a ++ " or " ++ b
  | alternatives => "expected one of: " ++ String.intercalate ", " alternatives

/-- The explanation given to the user. -/
def message : Fault → String
  | .unreadable _ => "cannot parse string into token stream"
  | .expected alternatives _ => expectation alternatives
  | .keyword word _ => "expected identifier, found keyword `" ++ word ++ "`"
  | .ended alternatives => "unexpected end of input, " ++ expectation alternatives
  | .unexpected _ => "unexpected token"

/-- Where the fault is. The end of the text is shown as its beginning. -/
def place : Fault → Position
  | .unreadable place => place
  | .expected _ place => place
  | .keyword _ place => place
  | .ended _ => .start
  | .unexpected place => place

end Declaration.Fault

end Railroad
