import Railroad.Deriving.Method
import Railroad.Grammar.Basic
import Railroad.Source.LiteralValue

/-!
# What derived methods draw

What the method that `expand` writes does when it is called. A derived method is carried out on a
value of the declared type, whose fields hold things that can be drawn. Names mean what the nearest
pattern around them makes of them, and outside patterns the options are what the method has
received.

* `Method.draw` gives the drawing of a value. It gives nothing if the method makes no sense for the
  value: no arm matches, a name means nothing, or a name that should mean the options means a field.

Every name in a pattern is taken to be bound by it. A pattern does not bind a name that is that of a
constant or of a variant without fields, which a declaration does not tell.
-/

namespace Railroad.Deriving

/-- What the fields of a value hold. -/
inductive Contents (α : Type) where
  | unit
  | named (fields : List (Ident × α))
  | tuple (fields : List α)

/-- A value of a declared type. -/
structure Value (α : Type) where
  /-- The variant of the value, if it is one of an enum. -/
  variant : Option Ident
  contents : Contents α

/-- What a name means inside a body. -/
inductive Meaning (α : Type) where
  /-- What a field of the value holds. -/
  | field (content : α)
  /-- The options that the method has received. -/
  | options

/-- The names that have a meaning, the nearest first. -/
abbrev Scope (α : Type) := List (Ident × Meaning α)

variable {α σ : Type}

/-- Two words name the same thing if they differ in nothing but the mark of a raw word. -/
def sameName (i j : Ident) : Bool :=
  i.name == j.name

/-- What belongs to a name. -/
def named? {β : Type} (name : Ident) : List (Ident × β) → Option β
  | [] => none
  | (other, b) :: rest => if sameName name other then some b else named? name rest

/-- The meaning of names outside all patterns. -/
def Scope.method : Scope α :=
  [(optionsName, .options)]

/-- What a member of a value holds. -/
def Contents.member? : Member → Contents α → Option α
  | .named name, .named fields => named? name fields
  | .index place, .tuple fields => fields[place]?
  | _, _ => none

/-- What an access reaches. -/
def Access.reach (contents : Contents α) (scope : Scope α) : Access → Option α
  | .member m => contents.member? m
  | .bound name =>
    match named? name scope with
    | some (.field content) => some content
    | _ => none

/-- The drawing that a call makes of a field. -/
def Access.draw (drawing : α → Drawing σ) (contents : Contents α) (scope : Scope α)
    (access : Access) : Option (Drawing σ) := do
  let content ← access.reach contents scope
  match ← named? optionsName scope with
  | .options => return drawing content
  | .field _ => none

/-- Drawings one after the other, with the same options. -/
def inOrder : List (Drawing σ) → Options → StateM σ (List Diagram)
  | [], _ => pure []
  | first :: rest, o => do
    let d ← first o
    let ds ← inOrder rest o
    return d :: ds

theorem inOrder_eq_mapM (drawings : List (Drawing σ)) (o : Options) :
    inOrder drawings o = drawings.mapM fun drawing => drawing o := by
  induction drawings with
  | nil => rfl
  | cons first rest ih => simp [inOrder, ih]

/-- The drawing that a body makes. -/
def Body.draw (drawing : α → Drawing σ) (contents : Contents α) (scope : Scope α) :
    Body → Option (Drawing σ)
  | .token kind text => do
    let text ← text.value?
    return fun _ => pure (.token ⟨kind, text⟩)
  | .nothing => some fun _ => pure .nothing
  | .one field => field.draw drawing contents scope
  | .sequence fields => do
    let drawings ← fields.mapM (Access.draw drawing contents scope)
    return fun o => Diagram.sequence <$> inOrder drawings o
  | .choice fields => do
    let drawings ← fields.mapM (Access.draw drawing contents scope)
    return fun o => Diagram.choice <$> inOrder drawings o

/-- The fields that bindings give a name to. -/
def bindNamed (fields : List (Ident × α)) : List Ident → Option (Scope α)
  | [] => some []
  | name :: rest => do
    let content ← named? name fields
    let scope ← bindNamed fields rest
    return (name, .field content) :: scope

/-- The fields that slots give a name to, one slot for each field. -/
def bindSlots : List (Option Ident) → List α → Option (Scope α)
  | [], [] => some []
  | none :: slots, _ :: fields => bindSlots slots fields
  | some name :: slots, content :: fields => do
    let scope ← bindSlots slots fields
    return (name, .field content) :: scope
  | _, _ => none

/-- The variant that a pattern is for. -/
def Pattern.variant : Pattern → Ident
  | .unit variant => variant
  | .named variant _ => variant
  | .tuple variant _ => variant
  | .anyTuple variant => variant

/-- The names that a pattern gives to fields. -/
def Pattern.bind : Pattern → Contents α → Option (Scope α)
  | .unit _, .unit => some []
  | .named _ bindings, .named fields => bindNamed fields bindings
  | .tuple _ slots, .tuple fields => bindSlots slots fields
  | .anyTuple _, .tuple _ => some []
  | _, _ => none

/-- The arm is for values of a variant. -/
def Arm.isFor (variant : Ident) (arm : Arm) : Bool :=
  sameName arm.pattern.variant variant

/-- The drawing that a method makes of a value. -/
def Method.draw (drawing : α → Drawing σ) (value : Value α) : Method → Option (Drawing σ)
  | .direct body => body.draw drawing value.contents .method
  | .cases arms => do
    let variant ← value.variant
    let arm ← arms.find? (·.isFor variant)
    let bindings ← arm.pattern.bind value.contents
    arm.body.draw drawing value.contents (bindings ++ .method)
  | .impossible => none

end Railroad.Deriving
