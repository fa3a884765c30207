import Railroad.Phrase.Parameter

/-!
# Bounds

What a type or a lifetime has to satisfy: lifetimes, traits and the parameters that may be used.

* A trait that is to hold in constant expressions is written as it was read.
-/

namespace Railroad.Phrase

variable (parts : Parts)

/-- The parameters that hold for what follows them. -/
def binder : Reader Written := do
  let introduced : Reader Written := return (← parameter parts).written.written
  inOrder [word "for", mark "<", commaList (seesMark ">") introduced, mark ">"]

/-- The parameters that hold for what follows them, if there are any. -/
def binder? : Reader Written :=
  given (seesWord "for") (binder parts)

/-- The trees say that a trait is to hold in constant expressions. -/
def startsWithConstness (trees : List TokenTree) : Bool :=
  startsWithGroup .bracket trees || startsWithWord "const" trees || startsWith ['~'] trees

/-- A trait. -/
def trait : Reader Written := do
  let before ← get
  let front ← binder? parts
  let constant ← sees startsWithConstness
  let _ ← given (return constant) (inOrder [given (return !(← seesWord "const")) anyTree,
    word? "const"])
  let rest ← inOrder [mark? "?", binder? parts, boundPath parts]
  let after ← get
  return if constant then before.take (before.length - after.length) else front ++ rest

/-- A parameter that may be used. -/
def captured : Reader Ranked := do
  if ← sees startsWithLifetime then return ⟨true, ← lifetime⟩ else return ⟨false, ← anyIdent⟩

/-- The parameters that may be used, lifetimes first. -/
def captures : Reader Written := do
  let opening ← inOrder [word "use", mark "<"]
  let all ← entries (seesMark ">") captured
  return opening ++ lifetimesFirst all ++ (← mark ">")

/-- One bound. -/
def bound : Reader Written := do
  if ← sees startsWithLifetime then lifetime
  else if ← seesWord "use" then captures
  else if ← sees (startsWithGroup .parenthesis) then group .parenthesis (trait parts)
  else trait parts

/-- A bound comes next. -/
def startsWithBound (trees : List TokenTree) : Bool :=
  startsWithIdent trees || startsWith [':', ':'] trees || startsWith ['?'] trees ||
    startsWithLifetime trees || startsWithGroup .parenthesis trees || startsWithConstness trees

/-- At most so many bounds with plus signs between them. A plus sign may follow the last one. -/
def boundsUpTo : (limit : Nat) → Reader Written
  | 0 => return []
  | limit + 1 => do
    if ← sees startsWithBound then
      let first ← bound parts
      if ← seesMark "+" then
        let plus ← mark "+"
        return first ++ plus ++ (← boundsUpTo limit)
      else return first
    else return []

/-- Bounds with plus signs between them, or none. -/
def readBounds : Reader Written := do
  boundsUpTo parts (← get).length

/-- Bounds, of which there may be several only if `sums` allows it. -/
def boundsOrOne (sums : Bool) : Reader Written :=
  if sums then readBounds parts else bound parts

end Railroad.Phrase
