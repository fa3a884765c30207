import Railroad.Phrase.Basic

/-!
# Attributes

An attribute in front of something, or at the beginning of a block. What an attribute holds between
delimiters is written as it was read, and a value after an equals sign is an expression.
-/

namespace Railroad.Phrase

variable (parts : Parts)

/-- A word that a path without arguments may consist of. -/
def plainWord : Reader Written
  | .ident i p :: rest =>
    if isName i || ["super", "self", "Self", "crate"].contains i.name then
      some ([.ident i p], rest)
    else none
  | _ => none

/-- A path without arguments. -/
def plainPath : Reader Written :=
  inOrder [mark? "::", plainWord,
    whileSeen (seesMark "::") (inOrder [mark "::", plainWord])]

/-- What stands between the brackets of an attribute. -/
def attributeContent : Reader Written := do
  let path ← if ← seesWord "unsafe" then word "unsafe" else plainPath
  let value ← if ← seesMark "=" then inOrder [mark "=", parts (.expression true)]
    else given (return !(← atEnd)) anyGroup
  return path ++ value

/-- The trees begin with an attribute. -/
def startsWithAttribute : List TokenTree → Bool
  | .mark '#' _ _ :: rest => startsWithGroup .bracket rest
  | _ => false

/-- The trees begin with an attribute of what they stand in. -/
def startsWithInnerAttribute : List TokenTree → Bool
  | .mark '#' _ _ :: .mark '!' _ _ :: rest => startsWithGroup .bracket rest
  | _ => false

/-- The attributes in front of something. -/
def attributes : Reader Written :=
  whileSeen (sees startsWithAttribute)
    (inOrder [mark "#", group .bracket (attributeContent parts)])

/-- The attributes at the beginning of a block. -/
def innerAttributes : Reader Written :=
  whileSeen (sees startsWithInnerAttribute)
    (inOrder [mark "#", mark "!", group .bracket (attributeContent parts)])

end Railroad.Phrase
