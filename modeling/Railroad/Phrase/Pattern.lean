import Railroad.Phrase.Attribute
import Railroad.Phrase.Path
import Railroad.Phrase.Place
import Railroad.Phrase.Type

/-!
# Patterns

* A pattern is one of the forms below, told apart by the first two trees of it. Where alternatives
  are allowed, there may be several with bars between them, and a bar in front.
* A constant in braces and the pattern of a boxed value are written as they were read.
-/

namespace Railroad.Phrase

variable (parts : Parts)

/-- A path begins with this word even if nothing follows it. -/
def startsWithPlace (trees : List TokenTree) : Bool :=
  startsWithWord "Self" trees || startsWithWord "super" trees || startsWithWord "crate" trees

/-- A path comes next. -/
def startsWithPath (trees : List TokenTree) : Bool :=
  startsWithName trees || startsWith [':', ':'] trees || startsWith ['<'] trees ||
    startsWithPlace trees || startsWithWord "self" trees

/-- A path comes next rather than a name for the whole value. -/
def startsWithPathPattern (trees : List TokenTree) : Bool :=
  let second := trees.drop 1
  startsWithName trees && (startsWith [':', ':'] second || startsWith ['!'] second ||
      startsWithGroup .brace second || startsWithGroup .parenthesis second ||
      startsWith ['.', '.'] second) ||
    startsWithWord "self" trees && startsWith [':', ':'] second ||
    startsWith [':', ':'] trees || startsWith ['<'] trees || startsWithPlace trees

/-- The marks of a range. Three points mean the same as two points and an equals sign, and are
written like these. -/
def rangeMarks : Reader Written := do
  if ← seesMark "..=" then mark "..="
  else if ← seesMark "..." then
    let points ← mark "..."
    return points.mapIdx fun i t => if i = 2 then .mark '=' false t.position else t
  else mark ".."

/-- A constant in braces. -/
def constantBlock : Reader Written :=
  inOrder [word "const", parts .block]

/-- The end of a range, if there is one. -/
def rangeBound : Reader Written := do
  if ← sees startsWithLiteral then literal
  else if ← seesWord "const" then constantBlock parts
  else given (return (← sees startsWithPath) && !(← seesWord "if")) (valuePath parts)

/-- A range that begins with what has been read, if the marks of one come next. -/
def moreRange : Reader Written :=
  given (seesMark "..") (inOrder [rangeMarks, rangeBound parts])

/-- A field in a pattern: its name or place with a pattern, or a name for what it holds. -/
def fieldPattern : Reader Written := do
  let front ← attributes parts
  if ← seesMark ".." then return front ++ (← mark "..")
  if ← seesWord "box" then
    return front ++ (← verbatim (inOrder [word "box", word? "ref", word? "mut", name]))
  let ways ← inOrder [word? "ref", word? "mut"]
  let own ← member
  let value ← given (return ways.isEmpty && (← seesMark ":"))
    (inOrder [mark ":", parts (.pattern true)])
  return front ++ ways ++ own ++ value

/-- A pattern that a path begins. -/
def pathPattern : Reader Written := do
  let path ← valuePath parts
  if ← sees startsWithBang then return path ++ (← macroArgument)
  else if ← sees (startsWithGroup .brace) then
    return path ++ (← group .brace (commaList atEnd (fieldPattern parts)))
  else if ← sees (startsWithGroup .parenthesis) then
    return path ++ (← group .parenthesis (commaList atEnd (parts (.pattern true))))
  else return path ++ (← moreRange parts)

/-- A name for the whole value, which may have to match a pattern, too. -/
def namePattern : Reader Written := do
  let ways ← inOrder [word? "ref", word? "mut"]
  let own ← if ← seesWord "self" then anyIdent else name
  let inner ← given (seesMark "@") (inOrder [mark "@", parts (.pattern false)])
  return ways ++ own ++ inner

/-- A pattern without alternatives. -/
def singlePattern : Reader Written := do
  if ← sees startsWithPathPattern then pathPattern parts
  else if ← seesWord "_" then word "_"
  else if ← seesWord "box" then verbatim (inOrder [word "box", parts (.pattern false)])
  else if ← sees startsWithLiteral then inOrder [literal, moreRange parts]
  else if ← seesWord "const" then verbatim (constantBlock parts)
  else if ← seesMark "&" then inOrder [mark "&", word? "mut", parts (.pattern false)]
  else if ← sees (startsWithGroup .parenthesis) then
    group .parenthesis (commaList atEnd (parts (.pattern true)))
  else if ← sees (startsWithGroup .bracket) then
    group .bracket (commaList atEnd (parts (.pattern true)))
  else if ← seesMark ".." then inOrder [rangeMarks, rangeBound parts]
  else namePattern parts

/-- A pattern. -/
def readPattern (alternatives : Bool) : Reader Written := do
  if alternatives then
    inOrder [mark? "|", singlePattern parts,
      whileSeen (return (← seesMark "|") && !(← seesMark "||") && !(← seesMark "|="))
        (inOrder [mark "|", singlePattern parts])]
  else singlePattern parts

end Railroad.Phrase
