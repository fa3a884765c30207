import Railroad.Phrase.Bound

/-!
# Types

* A type is one of the forms below, told apart by the first tree of it.
* A path or a type in parentheses may be the first of several bounds.
-/

namespace Railroad.Phrase

variable (parts : Parts)

/-- More bounds behind the first one, if a plus sign comes next and `sums` allows it. -/
def moreBounds (sums : Bool) : Reader Written :=
  given (return sums && (← seesMark "+")) (inOrder [mark "+", parts .bounds])

/-- The trees begin with marks for a macro, which an inequality is not. -/
def startsWithBang (trees : List TokenTree) : Bool :=
  startsWith ['!'] trees && !startsWith ['!', '='] trees

/-- The argument of a macro, which is written as it was read. -/
def macroArgument : Reader Written :=
  inOrder [mark "!", anyGroup]

/-- A type that a path begins. -/
def pathType (sums : Bool) : Reader Written := do
  let path ← typePath parts
  if ← sees startsWithBang then return path ++ (← macroArgument)
  else return path ++ (← moreBounds parts sums)

/-- A type in parentheses, several types in parentheses, or bounds of which the first is in
parentheses. -/
def parenthesized (sums : Bool) : Reader Written := do
  let element : Reader Written := do
    if ← seesMark "?" then parts .bounds else parts (.type true)
  let first ← group .parenthesis (commaList atEnd element)
  return first ++ (← moreBounds parts sums)

/-- A type in brackets, and how often it is repeated if that is fixed. -/
def bracketed : Reader Written :=
  group .bracket (inOrder [parts (.type true),
    given (seesMark ";") (inOrder [mark ";", parts (.expression true)])])

/-- A name and a colon come next. -/
def startsWithNamed (trees : List TokenTree) : Bool :=
  startsWithIdent trees && startsWith [':'] (trees.drop 1) && !startsWith [':', ':'] (trees.drop 1)

/-- An argument of a function type. One that may be changed is written as it was read. -/
def functionArgument : Reader Written := do
  let front ← attributes parts
  let name := given (sees startsWithNamed) (inOrder [anyIdent, mark ":"])
  if ← seesWord "mut" then
    return front ++ (← verbatim (inOrder [word "mut", name, parts (.type true)]))
  else
    let name ← name
    if ← seesMark "..." then return front ++ name ++ (← mark "...")
    else return front ++ name ++ (← parts (.type true))

/-- A function type. -/
def functionType : Reader Written :=
  inOrder [word? "unsafe",
    given (seesWord "extern") (inOrder [word "extern", given (sees startsWithLiteral) literal]),
    word "fn", group .parenthesis (commaList atEnd (functionArgument parts)), result parts false]

/-- A pointer type. -/
def pointerType : Reader Written := do
  let star ← mark "*"
  let access ← if ← seesWord "const" then word "const" else word "mut"
  return star ++ access ++ (← parts (.type false))

/-- A reference type. -/
def referenceType : Reader Written :=
  inOrder [mark "&", given (sees startsWithLifetime) lifetime, word? "mut", parts (.type false)]

/-- A function type comes next. -/
def startsWithFunction (trees : List TokenTree) : Bool :=
  startsWithWord "fn" trees || startsWithWord "unsafe" trees || startsWithWord "extern" trees

/-- A type after its binder. -/
def typeAfterBinder (sums : Bool) : Reader Written := do
  if ← sees (startsWithGroup .parenthesis) then parenthesized parts sums
  else if ← sees startsWithFunction then functionType parts
  else if ← seesWord "dyn" then
    if ← sees fun trees => startsWith ['*'] (trees.drop 1) then
      verbatim (inOrder [word "dyn", mark "*", boundsOrOne parts sums])
    else inOrder [word "dyn", boundsOrOne parts sums]
  else if ← seesWord "impl" then inOrder [word "impl", boundsOrOne parts sums]
  else if ← sees (startsWithGroup .bracket) then bracketed parts
  else if ← seesMark "*" then pointerType parts
  else if ← seesMark "&" then referenceType parts
  else if ← seesMark "!" then mark "!"
  else if ← seesWord "_" then word "_"
  else if ← sees startsWithLifetime then readBounds parts
  else pathType parts sums

/-- A type. -/
def readType (sums : Bool) : Reader Written :=
  inOrder [binder? parts, typeAfterBinder parts sums]

end Railroad.Phrase
