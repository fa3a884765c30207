import Railroad.Phrase.Basic

/-!
# Paths

Names with double colons between them, each of which may have arguments in angle brackets. In a
type, the last name may have arguments in parentheses instead; in an expression, double colons
stand in front of an angle bracket.

* Lifetimes are written before all other arguments in angle brackets.
* Double colons in front of parentheses, and empty angle brackets there, are not written.
-/

namespace Railroad.Phrase

variable (parts : Parts)

/-! ## Arguments -/

/-- The trees begin with a value that is not a name. -/
def startsWithConstant (trees : List TokenTree) : Bool :=
  startsWithLiteral trees || startsWithGroup .brace trees

/-- An argument that is a value. -/
def constant : Reader Written := do
  if ← sees startsWithLiteral then literal
  else if ← sees (startsWithGroup .brace) then parts .block
  else name

/-- What follows the name of a part of a type: the part itself, or its bounds. -/
def namedArgument : Reader Written := do
  if ← seesMark "=" then
    let equals ← mark "="
    if ← sees startsWithConstant then return equals ++ (← constant parts)
    else return equals ++ (← parts (.type true))
  else given (seesMark ":") (inOrder [mark ":", parts .bounds])

/-- The trees begin with a lifetime that no plus sign follows. -/
def startsWithLoneLifetime : List TokenTree → Bool
  | .lifetime _ _ :: rest => !startsWith ['+'] rest
  | _ => false

/-- An argument between angle brackets. -/
def argument : Reader Ranked := do
  if ← sees startsWithLoneLifetime then return ⟨true, ← lifetime⟩
  else if ← sees startsWithConstant then return ⟨false, ← constant parts⟩
  else return ⟨false, ← inOrder [parts (.type true), namedArgument parts]⟩

/-- The arguments between angle brackets. -/
def angled : Reader (List (Entry Ranked)) :=
  entries (seesMark ">") (argument parts)

/-- The type that a function gives back, if it is told. -/
def result (sums : Bool) : Reader Written :=
  given (seesMark "->") (inOrder [mark "->", parts (.type sums)])

/-- Arguments in parentheses, and the type that is given back. -/
def called : Reader Written :=
  inOrder [group .parenthesis (commaList atEnd (parts (.type true))), result parts false]

/-! ## Names -/

/-- A name in a path. -/
structure Segment where
  /-- The name and what stands in front of it. -/
  name : Written
  arguments : Written
  /-- There are no arguments. -/
  bare : Bool

/-- The segment as it is written. -/
def Segment.written (s : Segment) : Written :=
  s.name ++ s.arguments

/-- Words that stand for a place among all names and take no arguments. -/
def places : List String := ["super", "self", "crate", "try"]

/-- Arguments in angle brackets come next. -/
def startsWithAngled (inExpression : Bool) : List TokenTree → Bool := fun trees =>
  !inExpression && startsWith ['<'] trees && !startsWith ['<', '='] trees ||
    startsWith [':', ':'] trees && startsWith ['<'] (trees.drop 2)

/-- A name with its arguments, behind what has been read of the path. -/
def segment (inExpression : Bool) (front : Written) : Reader Segment := do
  if ← sees fun trees => places.any fun w => startsWithWord w trees then
    return ⟨front ++ (← anyIdent), [], true⟩
  else
    let own ← if ← seesWord "Self" then anyIdent else name
    if ← sees (startsWithAngled inExpression) then
      let opening ← inOrder [mark? "::", mark "<"]
      let all ← angled parts
      return ⟨front ++ own, opening ++ lifetimesFirst all ++ (← mark ">"), all.isEmpty⟩
    else return ⟨front ++ own, [], true⟩

/-- Double colons come next, and no parentheses after them. -/
def startsWithNext (trees : List TokenTree) : Bool :=
  startsWith [':', ':'] trees && !startsWithGroup .parenthesis (trees.drop 2)

/-- The names after the first one, the last one given apart from what stands in front of it. -/
def segmentsAfter (inExpression : Bool) (first : Segment) : (limit : Nat) → Reader Segment
  | 0 => return first
  | limit + 1 => do
    if ← sees startsWithNext then
      let colons ← mark "::"
      let next ← segment parts inExpression (first.written ++ colons)
      segmentsAfter inExpression next limit
    else return first

/-- The names after the first one. -/
def moreSegments (inExpression : Bool) (first : Segment) : Reader Segment := do
  segmentsAfter parts inExpression first (← get).length

/-- A path. -/
def segments (inExpression : Bool) : Reader Segment := do
  let first ← segment parts inExpression (← mark? "::")
  moreSegments parts inExpression first

/-- A path whose first name belongs to a type in angle brackets. -/
def qualified (inExpression : Bool) : Reader Segment := do
  let type ← inOrder [mark "<", parts (.type true)]
  let trait ← given (seesWord "as") do
    let as ← word "as"
    return as ++ (← segments parts false).written
  let closing ← inOrder [mark ">", mark "::"]
  let first ← segment parts inExpression (type ++ trait ++ closing)
  moreSegments parts inExpression first

/-- A path that may be qualified. -/
def anySegments (inExpression : Bool) : Reader Segment := do
  if ← seesMark "<" then qualified parts inExpression else segments parts inExpression

/-- Parentheses come next, or double colons and parentheses. -/
def startsWithCall (trees : List TokenTree) : Bool :=
  startsWithGroup .parenthesis trees ||
    startsWith [':', ':'] trees && startsWithGroup .parenthesis (trees.drop 2)

/-- Arguments in parentheses for the last name of a path, if they come next and the name has no
other arguments, and the names behind them. -/
def segmentsCalled (last : Segment) : (limit : Nat) → Reader Segment
  | 0 => return last
  | limit + 1 => do
    if last.bare && (← sees startsWithCall) then
      let _ ← mark? "::"
      let arguments ← called parts
      let next ← moreSegments parts false ⟨last.name, arguments, false⟩
      segmentsCalled next limit
    else return last

/-- The path of a type. -/
def typePath : Reader Written := do
  let last ← segmentsCalled parts (← anySegments parts false) (← get).length
  return last.written

/-- The path of a bound. -/
def boundPath : Reader Written := do
  let last ← segments parts false
  if last.bare && (← sees startsWithCall) then
    let _ ← mark? "::"
    return last.name ++ (← called parts)
  else return last.written

/-- The path of a value, of a pattern or of a value with fields. -/
def valuePath : Reader Written := do
  return (← anySegments parts true).written

end Railroad.Phrase
