import Railroad.Phrase.Pattern

/-!
# Expressions

An expression is operands with operators between them. An operand is marks in front of it, one of
the forms below, and what is done with it: calls, fields, indices.

* Which operators bind tighter makes no difference to how an expression is written.
* A place of a field is written as a plain number, lifetimes before other arguments.
-/

namespace Railroad.Phrase

variable (parts : Parts)

/-! ## What comes next -/

/-- The function that an expression is begins with these trees. -/
def startsWithClosure (trees : List TokenTree) : Bool :=
  let second := trees.drop 1
  let third := trees.drop 2
  startsWith ['|'] trees || startsWithWord "move" trees ||
    startsWithWord "for" trees && startsWith ['<'] second &&
      (startsWithLifetime third || startsWith ['>'] third) ||
    startsWithWord "const" trees && !startsWithGroup .brace second ||
    startsWithWord "static" trees ||
    startsWithWord "async" trees && (startsWith ['|'] second || startsWithWord "move" second)

/-- A block that is carried out later comes next. -/
def startsWithAsyncBlock (trees : List TokenTree) : Bool :=
  startsWithWord "async" trees && (startsWithGroup .brace (trees.drop 1) ||
    startsWithWord "move" (trees.drop 1) && startsWithGroup .brace (trees.drop 2))

/-- An expression that ends with a block comes next. -/
def startsWithBlockLike (trees : List TokenTree) : Bool :=
  let second := trees.drop 1
  ["if", "while", "loop", "match", "unsafe"].any (fun w => startsWithWord w trees) ||
    startsWithWord "for" trees && !startsWithClosure trees ||
    startsWithWord "try" trees && startsWithGroup .brace second ||
    startsWithWord "const" trees && startsWithGroup .brace second ||
    startsWithGroup .brace trees || startsWithLifetime trees

/-- An expression comes next. -/
def startsWithExpression (trees : List TokenTree) : Bool :=
  let single (c : Char) : Bool := startsWith [c] trees && !startsWith [c, '='] trees
  startsWithIdent trees && !startsWithWord "as" trees ||
    startsWithGroup .parenthesis trees || startsWithGroup .bracket trees ||
    startsWithGroup .brace trees || startsWithLiteral trees || single '!' ||
    single '-' && !startsWith ['-', '>'] trees || single '*' || single '|' || single '&' ||
    startsWith ['.', '.'] trees || single '<' && !startsWith ['<', '<', '='] trees ||
    startsWith [':', ':'] trees || startsWithLifetime trees || startsWith ['#'] trees

/-! ## Forms of operands -/

/-- A label and the colon after it. -/
def label : Reader Written :=
  inOrder [lifetime, mark ":"]

/-- A field of a value, by name or place. A name may stand for the value of that name. -/
def fieldValue : Reader Written := do
  if ← seesMark ".." then
    inOrder [mark "..", given (return !(← atEnd)) (parts (.expression true))]
  else
    inOrder [attributes parts, member,
      given (seesMark ":") (inOrder [mark ":", parts (.expression true)])]

/-- A path, a macro, or a value with fields in braces. -/
def pathExpression (records : Bool) : Reader Written := do
  let path ← valuePath parts
  if ← sees startsWithBang then return path ++ (← macroArgument)
  else if records && (← sees (startsWithGroup .brace)) then
    return path ++ (← group .brace (commaList atEnd (fieldValue parts)))
  else return path

/-- Expressions with commas between them. -/
def arguments : Reader Written :=
  commaList atEnd (parts (.expression true))

/-- Values in brackets, or one value and how often it is repeated. -/
def array : Reader Written :=
  group .bracket do
    if ← atEnd then return []
    let first ← parts (.expression true)
    if ← seesMark ";" then
      return first ++ (← inOrder [mark ";", parts (.expression true)])
    else
      return first ++ (← inOrder [mark? ",", arguments parts])

/-- A parameter of a function that an expression is. -/
def closureParameter : Reader Written :=
  inOrder [attributes parts, parts (.pattern false),
    given (seesMark ":") (inOrder [mark ":", parts (.type true)])]

/-- A function that an expression is. -/
def closure (records : Bool) : Reader Written := do
  let front ← inOrder [binder? parts, word? "const", word? "static", word? "async", word? "move",
    mark "|", commaList (seesMark "|") (closureParameter parts), mark "|"]
  if ← seesMark "->" then
    return front ++ (← inOrder [result parts true, parts .block])
  else return front ++ (← parts (.expression records))

/-- A choice by conditions. -/
def conditional : Reader Written := do
  let branch : Reader Written := inOrder [word "if", parts (.expression false), parts .block]
  let first ← branch
  let others ← whileSeen (seesWord "else") do
    let otherwise ← word "else"
    return otherwise ++ (← if ← seesWord "if" then branch else parts .block)
  return first ++ others

/-- An arm of a choice by patterns. -/
def arm : Reader Written :=
  inOrder [attributes parts, parts (.pattern true),
    given (seesWord "if") (inOrder [word "if", parts (.expression true)]),
    mark "=>", parts .leading, mark? ","]

/-- A choice by patterns. -/
def choice : Reader Written :=
  inOrder [word "match", parts (.expression false),
    group .brace (inOrder [innerAttributes parts, toEnd (arm parts)])]

/-- A loop, or a block with a label. -/
def loop : Reader Written := do
  if ← seesWord "while" then inOrder [word "while", parts (.expression false), parts .block]
  else if ← seesWord "for" then
    inOrder [word "for", parts (.pattern true), word "in", parts (.expression false), parts .block]
  else if ← seesWord "loop" then inOrder [word "loop", parts .block]
  else parts .block

/-- A word after which there may be a value. -/
def departure (w : String) (records : Bool) : Reader Written := do
  let front ← inOrder [word w, given (return w == "break" && (← sees startsWithLifetime) &&
    !(← sees fun trees => startsWith [':'] (trees.drop 1))) lifetime]
  let valued ← sees fun trees =>
    startsWithExpression trees && (records || !startsWithGroup .brace trees)
  return front ++ (← given (return valued) (parts (.expression records)))

/-- The trees after the marks of a range are not its end. -/
def endsRange (records : Bool) (trees : List TokenTree) : Bool :=
  trees.isEmpty || !startsWithExpression trees || !records && startsWithGroup .brace trees

/-- A range, from its marks on. -/
def range (records : Bool) (operand : Reader Written) : Reader Written := do
  let marks ← rangeMarks
  return marks ++ (← given (return !(← sees (endsRange records))) operand)

/-- The form of an operand, without the marks in front of it and what is done with it. -/
def atom (records : Bool) : Reader Written := do
  if ← sees startsWithLiteral then literal
  else if ← sees startsWithAsyncBlock then inOrder [word "async", word? "move", parts .block]
  else if ← sees startsWithClosure then closure parts records
  else if ← sees startsWithLifetime then inOrder [label, loop parts]
  else if ← seesWord "if" then conditional parts
  else if ← seesWord "match" then choice parts
  else if ← sees fun trees =>
      ["while", "for", "loop"].any fun w => startsWithWord w trees then loop parts
  else if ← sees (startsWithGroup .brace) then parts .block
  else if ← seesWord "unsafe" then inOrder [word "unsafe", parts .block]
  else if ← seesWord "const" then constantBlock parts
  else if ← sees fun trees => startsWithWord "try" trees && startsWithGroup .brace (trees.drop 1)
    then inOrder [word "try", parts .block]
  else if ← sees (startsWithGroup .parenthesis) then group .parenthesis (arguments parts)
  else if ← sees (startsWithGroup .bracket) then array parts
  else if ← seesWord "let" then
    inOrder [word "let", parts (.pattern true), mark "=", parts (.expression records)]
  else if ← seesWord "break" then departure parts "break" records
  else if ← seesWord "return" then departure parts "return" true
  else if ← seesWord "yield" then departure parts "yield" true
  else if ← seesWord "become" then departure parts "become" true
  else if ← seesWord "continue" then
    inOrder [word "continue", given (sees startsWithLifetime) lifetime]
  else if ← seesMark ".." then range records (parts (.expression records))
  else if ← seesWord "_" then word "_"
  else pathExpression parts records

/-! ## Operands -/

/-- A method with its arguments in angle brackets, or a field. -/
def methodName : Reader Written := do
  let own ← member
  let generics ← given (seesMark "::") do
    let opening ← inOrder [mark "::", mark "<"]
    let all ← angled parts
    return opening ++ lifetimesFirst all ++ (← mark ">")
  return own ++ generics

/-- A field or a method after a point. -/
def afterPoint : Reader Written := do
  match ← get with
  | .literal ⟨.number, spelling⟩ p :: rest =>
    set rest
    let (places, dotted) := placeTrees p spelling
    return places ++ (← given (return dotted) (methodName parts))
  | _ => if ← seesWord "await" then word "await" else methodName parts

/-- What is done with the operand read so far. -/
def trailers : Reader Written := do
  let all ← repeated do
    if ← sees (startsWithGroup .parenthesis) then
      return some (← group .parenthesis (arguments parts))
    else if ← sees (startsWithGroup .bracket) then
      return some (← group .bracket (parts (.expression true)))
    else if ← seesMark "?" then return some (← mark "?")
    else if (← seesMark ".") && !(← seesMark "..") then
      return some (← inOrder [mark ".", afterPoint parts])
    else return none
  return all.flatten

/-- A mark in front of an operand. -/
def sign : Reader (Option Written) := do
  if ← sees startsWithAttribute then
    return some (← inOrder [mark "#", group .bracket (attributeContent parts)])
  else if ← seesMark "&" then
    let raw ← sees fun trees =>
      let third := trees.drop 2
      startsWithWord "raw" (trees.drop 1) &&
        (startsWithWord "const" third || startsWithWord "mut" third)
    if raw then return some (← inOrder [mark "&", word "raw", word? "const", word? "mut"])
    else return some (← inOrder [mark "&", word? "mut"])
  else if ← seesMark "*" then return some (← mark "*")
  else if ← seesMark "!" then return some (← mark "!")
  else if ← seesMark "-" then return some (← mark "-")
  else return none

/-- An operand. -/
def operand (records : Bool) : Reader Written := do
  let signs ← repeated (sign parts)
  let form ← atom parts records
  return signs.flatten ++ form ++ (← trailers parts)

/-! ## Operators -/

/-- The operators between two operands, the longer ones first. -/
def operators : List String :=
  ["+=", "-=", "*=", "/=", "%=", "^=", "&=", "|=", "<<=", ">>=", "&&", "||", "<<", ">>", "==",
   "<=", "!=", ">=", "+", "-", "*", "/", "%", "^", "&", "|", "<", ">"]

/-- An operator and the operand after it. -/
def operation (records : Bool) : Reader (Option Written) := do
  let trees ← get
  match operators.find? fun o => startsWith o.toList trees with
  | some o => return some (← inOrder [mark o, operand parts records])
  | none =>
    if startsWith ['='] trees && !startsWith ['=', '>'] trees then
      return some (← inOrder [mark "=", operand parts records])
    else if startsWith ['.', '.'] trees then
      return some (← range records (operand parts records))
    else if startsWithWord "as" trees then
      return some (← inOrder [word "as", parts (.type false)])
    else return none

/-- The operators and operands after the first operand. -/
def operations (records : Bool) : Reader Written := do
  return (← repeated (operation parts records)).flatten

/-- An expression. -/
def readExpression (records : Bool) : Reader Written :=
  inOrder [operand parts records, operations parts records]

/-- An expression at the beginning of a statement. A block at its beginning ends it, unless a point
or a question mark follows. -/
def readLeading : Reader Written := do
  let front ← attributes parts
  if ← sees startsWithBlockLike then
    let block ← atom parts true
    if ((← seesMark ".") && !(← seesMark "..")) || (← seesMark "?") then
      return front ++ block ++ (← inOrder [trailers parts, operations parts true])
    else return front ++ block
  else return front ++ (← readExpression parts true)

end Railroad.Phrase
