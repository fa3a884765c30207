import Railroad.Deriving.Method

/-!
# Derived implementations

Model of `expand`. The implementation of drawing for a declared type: its method, and the types that
have to be drawable for the method to make sense.

* `boundTypes` are these types: those of drawn fields that mention a type parameter (`mentions`),
  each once.
* `expand` derives an implementation from a declaration, or says why there is none.

A predicate is read again before it is added (`parse_quote`), and `expand` breaks off where it
cannot be read. Of the types that a field can have, only fields in place of a type are none that a
predicate can begin with; `holdsFields` tells these.
-/

namespace Railroad.Deriving

/-- The derived implementation of drawing for a declared type. -/
structure Implementation where
  name : Ident
  parameters : CommaList Parameter
  /-- The predicates of the declaration. -/
  predicates : CommaList (List TokenTree)
  /-- The types that have to be drawable, too. -/
  bounds : List (List TokenTree)
  method : Method

/-- One of the names occurs in a type at any depth. -/
def mentions (names : List Ident) (type : List TokenTree) : Bool :=
  (TokenTree.identsAll type).any fun i => names.contains i

/-- The types that mention one of the names, each once, without those in `seen`. Types are the same
if they are laid out alike. -/
def boundsFrom (names : List Ident) (seen : List (List (String × Bool))) :
    List (List TokenTree) → List (List TokenTree)
  | [] => []
  | type :: rest =>
    let key := TokenTree.layouts type
    if key ∉ seen ∧ mentions names type then type :: boundsFrom names (key :: seen) rest
    else boundsFrom names seen rest

/-- The types that have to be drawable for given ones to be drawn. -/
def boundTypes (names : List Ident) (types : List (List TokenTree)) : List (List TokenTree) :=
  boundsFrom names [] types

/-- The implementation of a plan for a declared type. -/
def Implementation.of (d : Declaration) (plan : Plan) : Implementation where
  name := d.name
  parameters := d.parameters
  predicates := d.predicates
  bounds := boundTypes d.typeParameters plan.drawnTypes
  method := .of plan

/-! ## Deriving -/

/-- Fields of its own stand in place of the type, as a field without a name may have them. They are
written like a type, but no predicate can begin with them. -/
def holdsFields (type : List TokenTree) : Bool :=
  [["struct", "\x7b"], ["union", "\x7b"]].contains ((TokenTree.spellings type).take 2)

/-- Why no implementation comes of a declaration. -/
inductive Failure where
  /-- What is wrong is reported. -/
  | rejected (r : Rejection)
  /-- The predicate that this type can be drawn cannot be read. The derivation breaks off, without a
  report. -/
  | noPredicate (type : List TokenTree)

namespace Failure

/-- What the user is shown first. -/
def first : Failure → Diagnosis
  | .rejected r => r.first
  | .noPredicate _ => ⟨.brokenOff, .start⟩

/-- Everything that the user is shown. -/
def diagnoses : Failure → List Diagnosis
  | .rejected r => r.diagnoses
  | .noPredicate _ => [⟨.brokenOff, .start⟩]

end Failure

/-- The implementation derived from a declaration. The plan is made before any predicate is. -/
def expand (d : Declaration) : Except Failure Implementation := do
  let plan ← (Plan.of d).mapError .rejected
  let implementation := Implementation.of d plan
  match implementation.bounds.find? holdsFields with
  | some type => throw (.noPredicate type)
  | none => return implementation

end Railroad.Deriving
