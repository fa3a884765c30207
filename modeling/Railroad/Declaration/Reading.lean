import Railroad.Declaration.Basic
import Railroad.Declaration.Fault
import Railroad.Phrase.Reading

/-!
# Reading declarations

How a `DeriveInput` is parsed. A declaration is read from the token trees of its source from left to
right.

* `Attribute.readAll`, `Fields.readNamed`, `Fields.readTuple` and `Variant.readAll` read its parts.
* `Declaration.read` reads the whole of a source text.

Types, bounds and predicates are kept as they are written out by the readers of phrases.
-/

namespace Railroad

open Declaration (Fault)
open Phrase (Reader)

/-! ## Attributes -/

namespace Attribute

/-- What follows the path of an attribute. -/
def readArgument : List TokenTree → Argument
  | .group _ content _ closing :: _ => .list content closing
  | .mark '=' _ equals :: _ => .assigned equals
  | _ => .absent

/-- The trees after a path of which the first word has been read, and whether there is no more of
the path than that word. -/
def readPath : List TokenTree → Bool × List TokenTree
  | .mark ':' _ _ :: .mark ':' _ _ :: .ident _ _ :: rest => (false, (readPath rest).2)
  | rest => (true, rest)

/-- An attribute that begins at `hash` and has these trees between its brackets. -/
def read (hash : Position) : List TokenTree → Attribute
  | .ident i path :: rest =>
    let (single, after) := readPath rest
    ⟨hash, if single then some i else none, path, readArgument after⟩
  | .mark ':' _ _ :: .mark ':' _ _ :: .ident _ path :: rest =>
    ⟨hash, none, path, readArgument (readPath rest).2⟩
  | _ => ⟨hash, none, hash, .absent⟩

/-- The attributes at the beginning, and the trees after them. -/
def cutAll : List TokenTree → List Attribute × List TokenTree
  | .mark '#' _ hash :: .group .bracket inner _ _ :: rest =>
    let (attributes, after) := cutAll rest
    (read hash inner :: attributes, after)
  | rest => ([], rest)

/-- The attributes at the beginning. -/
def readAll : Reader (List Attribute) := fun trees =>
  some (cutAll trees)

end Attribute

/-! ## Fields and variants -/

/-- A name at the beginning. -/
def readName : Reader Ident
  | .ident i _ :: rest => if Phrase.isName i then some (i, rest) else none
  | _ => none

/-- The name of a field at the beginning. A field may be without a name and has a low line then. -/
def readFieldName : Reader Ident
  | .ident ⟨false, "_"⟩ _ :: rest => some (⟨false, "_"⟩, rest)
  | trees => readName trees

/-- What a reader makes of the whole inside of a group. -/
def readInside {α : Type} (reader : Reader α) (inner : List TokenTree) : Option α :=
  match reader inner with
  | some (a, []) => some a
  | _ => none

/-- Items with commas between them. -/
def readItems {α : Type} (reader : Reader α) : Reader (List α) := do
  let all ← Phrase.entries Phrase.atEnd reader
  return all.map (·.item)

namespace Fields

/-- Fields of their own come next in place of a type. -/
def startsWithInnerFields (trees : List TokenTree) : Bool :=
  (Phrase.startsWithWord "struct" trees || Phrase.startsWithWord "union" trees) &&
    Phrase.startsWithGroup .brace (trees.drop 1)

/-- The type of a field. A field without a name may have fields of its own instead, which are
written as they were read. -/
def readFieldType (name : Ident) : Reader (List TokenTree) := do
  if name = ⟨false, "_"⟩ && (← Phrase.sees startsWithInnerFields) then
    Phrase.inOrder [Phrase.anyIdent, Phrase.anyGroup]
  else Phrase.read (.type true)

/-- A field with a name. -/
def readNamedField : Reader (Ident × Field) := do
  let attributes ← Attribute.readAll
  let _ ← Phrase.visibility
  let name ← readFieldName
  let _ ← Phrase.mark ":"
  let type ← readFieldType name
  return (name, ⟨attributes, type⟩)

/-- A field without a name. -/
def readTupleField : Reader Field := do
  let attributes ← Attribute.readAll
  let _ ← Phrase.visibility
  let type ← Phrase.read (.type true)
  return ⟨attributes, type⟩

/-- Fields with names. -/
def readNamed (inner : List TokenTree) : Option Fields :=
  (readInside (readItems readNamedField) inner).map .named

/-- Fields without names. -/
def readTuple (inner : List TokenTree) : Option Fields :=
  (readInside (readItems readTupleField) inner).map .tuple

/-- The fields of a variant, if it has any. -/
def read : Reader Fields
  | .group .brace inner _ _ :: rest => (readNamed inner).map fun fields => (fields, rest)
  | .group .parenthesis inner _ _ :: rest => (readTuple inner).map fun fields => (fields, rest)
  | rest => some (.unit, rest)

end Fields

namespace Variant

/-- A variant. An expression after an equals sign says which number stands for it. -/
def read : Reader Variant := do
  let attributes ← Attribute.readAll
  let _ ← Phrase.visibility
  let name ← readName
  let fields ← Fields.read
  let _ ← Phrase.given (Phrase.seesMark "=")
    (Phrase.inOrder [Phrase.mark "=", Phrase.read (.expression true)])
  return ⟨attributes, name, fields⟩

/-- The variants of an enum. -/
def readAll (inner : List TokenTree) : Option (List Variant) :=
  readInside (readItems read) inner

end Variant

/-! ## The declaration -/

namespace Declaration

/-- The fault of finding what `trees` begin with where one of the alternatives is expected. -/
def Fault.found (alternatives : List String) : List TokenTree → Fault
  | [] => .ended alternatives
  | t :: _ => .expected alternatives t.position

/-- What is read from trees, or the fault that they cannot be read. -/
def readable {α : Type} (trees : List TokenTree) : Option α → Except Fault α
  | some a => .ok a
  | none => .error (.found [] trees)

/-- The name that is declared, and the trees after it. -/
def readDeclaredName (trees : List TokenTree) : Except Fault (Ident × List TokenTree) :=
  match trees with
  | .ident i place :: rest => if Phrase.isName i then .ok (i, rest) else .error (.keyword i.name place)
  | rest => .error (.found ["identifier"] rest)

/-- The parameters, and the trees after them. -/
def readParameters (trees : List TokenTree) :
    Except Fault (CommaList Parameter × List TokenTree) := do
  let (all, rest) ← readable trees (Phrase.withPhrases Phrase.parameters trees)
  let list := Phrase.Entry.toCommaList all
  return (⟨list.items.map (·.parameter), list.trailing⟩, rest)

/-- No predicates. -/
def noPredicates : CommaList (List TokenTree) := ⟨[], false⟩

/-- The predicates, if there are any, and the trees after them. -/
def readPredicates (trees : List TokenTree) :
    Except Fault (Option (CommaList (List TokenTree)) × List TokenTree) := do
  if Phrase.startsWithWord "where" trees then
    let (all, rest) ← readable trees (Phrase.withPhrases Phrase.predicates trees)
    return (some (Phrase.Entry.toCommaList all), rest)
  else return (none, trees)

/-- Nothing may follow a declaration. -/
def finished : List TokenTree → Except Fault Unit
  | [] => .ok ()
  | t :: _ => .error (.unexpected t.position)

/-- The predicates and fields of a struct, after its parameters. -/
def readStruct (trees : List TokenTree) : Except Fault (CommaList (List TokenTree) × Fields) := do
  match ← readPredicates trees with
  | (some predicates, .group .brace inner _ _ :: rest) =>
    finished rest
    return (predicates, ← readable inner (Fields.readNamed inner))
  | (some predicates, .mark ';' _ _ :: rest) =>
    finished rest
    return (predicates, .unit)
  | (some _, rest) => throw (.found ["curly braces", "`;`"] rest)
  | (none, .group .brace inner _ _ :: rest) =>
    finished rest
    return (noPredicates, ← readable inner (Fields.readNamed inner))
  | (none, .group .parenthesis inner _ _ :: rest) =>
    match ← readPredicates rest with
    | (predicates, .mark ';' _ _ :: rest) =>
      finished rest
      return (predicates.getD noPredicates, ← readable inner (Fields.readTuple inner))
    | (some _, rest) => throw (.found ["`;`"] rest)
    | (none, rest) => throw (.found ["`where`", "`;`"] rest)
  | (none, .mark ';' _ _ :: rest) =>
    finished rest
    return (noPredicates, .unit)
  | (none, rest) => throw (.found ["`where`", "parentheses", "curly braces", "`;`"] rest)

/-- The predicates and the group of an enum or union, after its parameters. -/
def readBraces (trees : List TokenTree) :
    Except Fault (CommaList (List TokenTree) × List TokenTree) := do
  match ← readPredicates trees with
  | (predicates, .group .brace inner _ _ :: rest) =>
    finished rest
    return (predicates.getD noPredicates, inner)
  | (_, rest) => throw (.found ["curly braces"] rest)

/-- The trees after a visibility, if there is one. -/
def afterVisibility (trees : List TokenTree) : List TokenTree :=
  match Phrase.visibility trees with
  | some (_, rest) => rest
  | none => trees

/-- The declaration that token trees are. -/
def ofTrees (trees : List TokenTree) : Except Fault Declaration := do
  let (attributes, rest) := Attribute.cutAll trees
  match afterVisibility rest with
  | .ident ⟨false, "struct"⟩ _ :: rest => do
    let (name, rest) ← readDeclaredName rest
    let (parameters, rest) ← readParameters rest
    let (predicates, fields) ← readStruct rest
    return ⟨attributes, name, parameters, predicates, .struct fields⟩
  | .ident ⟨false, "enum"⟩ _ :: rest => do
    let (name, rest) ← readDeclaredName rest
    let (parameters, rest) ← readParameters rest
    let (predicates, inner) ← readBraces rest
    let variants ← readable inner (Variant.readAll inner)
    return ⟨attributes, name, parameters, predicates, .enum variants⟩
  | .ident ⟨false, "union"⟩ keyword :: rest => do
    let (name, rest) ← readDeclaredName rest
    let (parameters, rest) ← readParameters rest
    let (predicates, _) ← readBraces rest
    return ⟨attributes, name, parameters, predicates, .union keyword⟩
  | rest => throw (.found ["`struct`", "`enum`", "`union`"] rest)

/-- The declaration that a source text is. -/
def read (source : String) : Except Fault Declaration := do
  match Lexeme.scan source with
  | .error fault => throw (.unreadable fault.place)
  | .ok lexemes =>
    match TokenTree.ofLexemes? lexemes with
    | .error fault => throw (.unreadable fault.place)
    | .ok trees => ofTrees trees

end Declaration

end Railroad
