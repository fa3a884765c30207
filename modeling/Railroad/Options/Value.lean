import Railroad.Text.Outline

/-!
# Option values

Model of `OptionValue`: the value of a drawing option is a truth value, a 64-bit integer or a text.
A reader that asks for one type gets nothing from a value of another type.
-/

namespace Railroad

/-- The value of a drawing option. -/
inductive OptionValue where
  | bool (value : Bool)
  | int (value : Int64)
  | text (value : String)
  deriving DecidableEq

namespace OptionValue

/-- The truth value, if it is one. -/
def bool? : OptionValue → Option Bool
  | .bool value => some value
  | _ => none

/-- The integer, if it is one. -/
def int? : OptionValue → Option Int64
  | .int value => some value
  | _ => none

/-- The text, if it is one. -/
def text? : OptionValue → Option String
  | .text value => some value
  | _ => none

/-- The value as plain text. -/
def plain : OptionValue → String
  | .bool true => "true"
  | .bool false => "false"
  | .int value => toString value.toInt
  | .text value => value

/-- The value laid out for inspection. -/
def outline (value : OptionValue) : Outline :=
  match value with
  | .bool _ => .wrap "Bool" (.word value.plain)
  | .int _ => .wrap "Int" (.word value.plain)
  | .text content => .wrap "Text" (.quoted content)

end OptionValue

end Railroad
