import Railroad.Phrase.Expression
import Railroad.Phrase.Predicate

/-!
# Blocks

Statements in braces: bindings, declarations, and expressions with or without a semicolon.

* Functions and constants declared in a block are read like everything else. Of other declarations
  what stands in front of the braces or the semicolon is read, and what the braces hold is written
  as it was read.
-/

namespace Railroad.Phrase

variable (parts : Parts)

/-! ## Bindings -/

/-- A binding of names to the parts of a value. -/
def binding : Reader Written :=
  inOrder [word "let", parts (.pattern false),
    given (seesMark ":") (inOrder [mark ":", parts (.type true)]),
    given (seesMark "=") (inOrder [mark "=", parts (.expression true),
      given (seesWord "else") (inOrder [word "else", parts .block])]),
    mark ";"]

/-! ## Declarations -/

/-- These trees between parentheses restrict a visibility. -/
def restrictsVisibility : List TokenTree → Bool
  | [t] => t.isWord "crate" || t.isWord "self" || t.isWord "super"
  | t :: _ => t.isWord "in"
  | [] => false

/-- A group that restricts a visibility comes next. -/
def startsWithRestriction : List TokenTree → Bool
  | .group .parenthesis inner _ _ :: _ => restrictsVisibility inner
  | _ => false

/-- Where something is visible, if it is told. -/
def visibility : Reader Written :=
  given (seesWord "pub") (inOrder [word "pub", given (sees startsWithRestriction) anyGroup])

/-- The parameters of something declared in a block, lifetimes first. No parameters need no angle
brackets. -/
def declaredParameters : Reader Written := do
  let all ← parameters parts
  if all.isEmpty then return []
  let ranked := all.map fun e => (⟨e.item.written, e.comma⟩ : Entry Ranked)
  return .mark '<' false .start :: lifetimesFirst ranked ++ [.mark '>' false .start]

/-- The predicates of something declared in a block. No predicates need no word in front. -/
def declaredPredicates : Reader Written :=
  given (seesWord "where") do
    let all ← predicates parts
    if all.isEmpty then return []
    return .ident ⟨false, "where"⟩ .start :: all.flatMap fun e => e.item ++ e.comma

/-- The trees begin with the value that a method belongs to. -/
def startsWithReceiver (trees : List TokenTree) : Bool :=
  let trees := if startsWith ['&'] trees then trees.drop 1 else trees
  let trees := if startsWithLifetime trees then trees.drop 1 else trees
  let trees := if startsWithWord "mut" trees then trees.drop 1 else trees
  startsWithWord "self" trees && !startsWith [':', ':'] (trees.drop 1)

/-- A parameter of a function. -/
def functionParameter : Reader Written := do
  let front ← attributes parts
  let type : Reader Written := do
    if ← seesMark "..." then mark "..." else parts (.type true)
  if ← sees startsWithReceiver then
    return front ++ (← inOrder [mark? "&", given (sees startsWithLifetime) lifetime, word? "mut",
      word "self", given (seesMark ":") (inOrder [mark ":", type])])
  else if ← seesMark "..." then return front ++ (← mark "...")
  else return front ++ (← inOrder [parts (.pattern false), mark ":", type])

/-- The words in front of a function. -/
def functionWords : Reader Written :=
  inOrder [word? "default", word? "const", word? "async", word? "unsafe",
    given (seesWord "extern") (inOrder [word "extern", given (sees startsWithLiteral) literal])]

/-- A function. -/
def function : Reader Written := do
  let body : Reader Written := do
    if ← seesMark ";" then mark ";" else parts .block
  inOrder [functionWords, word "fn", name, declaredParameters parts,
    group .parenthesis (commaList atEnd (functionParameter parts)), result parts true,
    declaredPredicates parts, body]

/-- A constant or a variable that lives throughout. -/
def constantItem : Reader Written := do
  let front ← if ← seesWord "const" then word "const" else inOrder [word "static", word? "mut"]
  return front ++ (← inOrder [anyIdent, mark ":", parts (.type true),
    given (seesMark "=") (inOrder [mark "=", parts (.expression true)]), mark ";"])

/-- Everything up to a semicolon, or up to a group in braces if it may end a declaration. -/
def rest (braces : Bool) : Reader Written := do
  let all ← whileSeen
    (sees fun trees => !startsWith [';'] trees && !(braces && startsWithGroup .brace trees)) anyTree
  return all ++ (← anyTree)

/-- The front of a declaration that has a name and parameters. -/
def namedItem : Reader Written :=
  inOrder [word? "unsafe", word? "auto", anyIdent, name, declaredParameters parts,
    given (seesMark ":") (inOrder [mark ":", parts .bounds]), declaredPredicates parts]

/-- Methods of a type. -/
def implementation : Reader Written :=
  inOrder [word? "default", word? "unsafe", word "impl", declaredParameters parts, word? "const",
    mark? "!", parts (.type true), given (seesWord "for") (inOrder [word "for", parts (.type true)]),
    declaredPredicates parts, anyGroup]

/-- The trees begin with a function. -/
def startsWithFunctionItem (trees : List TokenTree) : Bool :=
  let words := ["default", "const", "async", "unsafe", "extern"]
  let trees := trees.dropWhile fun t => words.any (fun w => t.isWord w) || startsWithLiteral [t]
  startsWithWord "fn" trees

/-- The trees begin with one of these words, which the others may stand in front of. -/
def startsWithOneOf (words others : List String) (trees : List TokenTree) : Bool :=
  let behind := trees.dropWhile fun t => others.any fun w => t.isWord w
  words.any fun w => startsWithWord w behind

/-- A declaration in a block, after its attributes. -/
def item : Reader Written := do
  let front ← visibility
  let after ← if ← sees startsWithFunctionItem then function parts
    else if (← seesWord "const") || (← seesWord "static") then constantItem parts
    else if ← sees (startsWithOneOf ["impl"] ["default", "unsafe"]) then implementation parts
    else if ← sees (startsWithOneOf ["struct", "enum", "union", "trait", "type"]
      ["unsafe", "auto"]) then inOrder [namedItem parts, rest (!(← seesWord "type"))]
    else rest (!((← seesWord "use") || (← sees fun trees =>
      startsWithWord "extern" trees && startsWithWord "crate" (trees.drop 1))))
  return front ++ after

/-- A declaration comes next. -/
def startsWithItem (trees : List TokenTree) : Bool :=
  let first (w : String) : Bool := startsWithWord w trees
  let second := trees.drop 1
  let third := trees.drop 2
  let next (words : List String) : Bool := words.any fun w => startsWithWord w second
  ["pub", "extern", "use", "fn", "mod", "type", "struct", "enum", "trait", "impl", "macro"].any
      first ||
    first "crate" && !startsWith [':', ':'] second ||
    first "static" && (next ["mut"] || startsWithName second) ||
    first "const" && !(startsWithGroup .brace second || next ["static", "move"] ||
      next ["async"] &&
        !(["unsafe", "extern", "fn"].any fun w => startsWithWord w third) ||
      startsWith ['|'] second) ||
    first "unsafe" && !startsWithGroup .brace second ||
    first "async" && next ["unsafe", "extern", "fn"] ||
    first "union" && startsWithName second ||
    first "auto" && next ["trait"] ||
    first "default" && next ["unsafe", "impl"]

/-- The trees after a path without arguments. -/
def afterPlainPath (trees : List TokenTree) : List TokenTree :=
  match plainPath trees with
  | some (_, rest) => rest
  | none => []

/-- A macro that declares a name comes next. -/
def startsWithNamedMacro (trees : List TokenTree) : Bool :=
  let after := afterPlainPath trees
  startsWith ['!'] after && startsWithIdent (after.drop 1)

/-- A macro with its argument in braces comes next, and nothing is done with it. -/
def startsWithMacroStatement (trees : List TokenTree) : Bool :=
  let after := afterPlainPath trees
  let behind := after.drop 2
  startsWith ['!'] after && startsWithGroup .brace (after.drop 1) &&
    !(startsWith ['.'] behind && !startsWith ['.', '.'] behind || startsWith ['?'] behind)

/-! ## Statements -/

/-- A statement. -/
def statement : Reader Written := do
  if ← seesMark ";" then mark ";"
  else
    let front ← attributes parts
    let after ←
      if ← seesWord "let" then binding parts
      else if (← sees startsWithItem) || (← sees startsWithNamedMacro) then item parts
      else if ← sees startsWithMacroStatement then
        inOrder [plainPath, macroArgument, mark? ";"]
      else inOrder [readLeading parts, mark? ";"]
    return front ++ after

/-- Statements in braces. -/
def readBlock : Reader Written :=
  group .brace (inOrder [innerAttributes parts, toEnd (statement parts)])

end Railroad.Phrase
