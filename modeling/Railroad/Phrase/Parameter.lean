import Railroad.Declaration.Basic
import Railroad.Phrase.Attribute
import Railroad.Phrase.Path

/-!
# Parameters

What stands between angle brackets after a declared name: lifetimes, types and constants.

* `parameter` reads one of them. Defaults and bounds are written with it, but no colon is written
  in front of no bounds.
-/

namespace Railroad.Phrase

variable (parts : Parts)

/-- Bounds on a lifetime. -/
def lifetimeBounds : Reader Written :=
  whileSeen (sees startsWithLifetime) (inOrder [lifetime, mark? "+"])

/-- A parameter, and how it is written with its bounds and default. -/
structure Declared where
  parameter : Parameter
  written : Ranked

/-- The bounds after a colon, if it comes next. -/
def colonBounds (reader : Reader Written) : Reader Written := do
  let colon ← mark? ":"
  if colon.isEmpty then return [] else reader

/-- Bounds with a colon in front of them. No bounds need no colon. -/
def withColon (bounds : Written) : Written :=
  if bounds.isEmpty then [] else .mark ':' false .start :: bounds

/-- A parameter. -/
def parameter : Reader Declared := do
  let front ← attributes parts
  match ← get with
  | .lifetime own p :: rest =>
    set rest
    let bounds ← colonBounds lifetimeBounds
    return ⟨.lifetime front own bounds,
      ⟨true, front ++ .lifetime own p :: withColon bounds⟩⟩
  | .ident ⟨false, "const"⟩ p :: .ident own q :: rest =>
    set rest
    let colon ← mark ":"
    let type ← parts (.type true)
    let value ← given (seesMark "=") (inOrder [mark "=", constant parts])
    return ⟨.const front own type,
      ⟨false, front ++ .ident ⟨false, "const"⟩ p :: .ident own q :: colon ++ type ++ value⟩⟩
  | .ident own p :: rest =>
    set rest
    let bounds ← colonBounds (parts .bounds)
    let value ← given (seesMark "=") (inOrder [mark "=", parts (.type true)])
    return ⟨.type front own bounds,
      ⟨false, front ++ .ident own p :: withColon bounds ++ value⟩⟩
  | _ => failure

/-- The parameters between angle brackets, if there are any. -/
def parameters : Reader (List (Entry Declared)) := do
  if ← seesMark "<" then
    let _ ← mark "<"
    let all ← entries (seesMark ">") (parameter parts)
    let _ ← mark ">"
    return all
  else return []

/-- The items of a sequence, and whether a comma follows the last one. -/
def Entry.toCommaList {α : Type} (all : List (Entry α)) : CommaList α :=
  ⟨all.map (·.item), (all.getLast?.map fun e => !e.comma.isEmpty).getD false⟩

end Railroad.Phrase
