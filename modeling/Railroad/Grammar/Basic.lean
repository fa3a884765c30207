import Railroad.Diagram.Basic
import Railroad.Options.Basic

/-!
# Grammar objects

Model of `Railroadable` and of the implementations that delegate to what a holder holds. A grammar
object draws itself (`create_railroad`): given options it makes a diagram, and on the way it may
change a state that all objects share, such as a count of calls. Objects are built from leaves,
whose drawing is supplied from outside, by holders, lists, combinators and adjustments of the
options.

* `Grammar.draw` draws an object. Parts are drawn from left to right, of a loop the body before the
  delimiter.
* `drawAll_eq_mapM`: a list of objects is drawn element by element.
-/

namespace Railroad

/-- A drawing: given options, a diagram made while a state changes. -/
abbrev Drawing (σ : Type) := Options → StateM σ Diagram

/-- The ways of holding another object. All of them draw the object held. -/
inductive Holder where
  /-- A borrowed reference. -/
  | reference
  /-- A box with one owner. -/
  | box
  /-- A holder shared within one thread. -/
  | shared
  /-- A holder shared between threads. -/
  | sharedAcrossThreads
  /-- A holder that hides the type. -/
  | erased
  deriving DecidableEq

/-- The ways of keeping objects in a row. -/
inductive Row where
  /-- A list that owns its elements. -/
  | owned
  /-- A view of the elements of a list. -/
  | view
  deriving DecidableEq

/-- A grammar object with leaves of type `L`. -/
inductive Grammar (L : Type) where
  /-- An object that draws itself without further parts. -/
  | leaf (l : L)
  /-- Draws the object held. -/
  | held (holder : Holder) (x : Grammar L)
  /-- Draws the object that is there. -/
  | present (x : Grammar L)
  /-- Draws nothing, since no object is there. -/
  | absent
  /-- Draws a sequence of the elements. -/
  | row (row : Row) (xs : List (Grammar L))
  /-- Draws a choice of the alternatives. -/
  | first (xs : List (Grammar L))
  /-- Draws `x` or nothing. -/
  | optional (x : Grammar L)
  /-- Draws a repetition of `x`. -/
  | oneOrMore (x : Grammar L)
  /-- Draws nothing or a repetition of `x`. -/
  | zeroOrMore (x : Grammar L)
  /-- Draws a repetition of `x` with `delimiter` in between. -/
  | separated (x delimiter : Grammar L)
  /-- Draws `x` with one option set. -/
  | adjusted (name : String) (value : OptionValue) (x : Grammar L)
  /-- Draws a sequence of `x` as often as an option says. -/
  | repeated (name : String) (x : Grammar L)

namespace Grammar

variable {L σ : Type}

/-- How often an option asks for something: once unless it says otherwise, and at most fifty
times. -/
def repetitions (name : String) (o : Options) : Nat :=
  min 50 ((o.getInt name).getD 1).toInt.toNat

/-- Carries out an action `n` times and collects the results. -/
def times {α : Type} (action : StateM σ α) : Nat → StateM σ (List α)
  | 0 => pure []
  | n + 1 => do
    let a ← action
    let rest ← times action n
    return a :: rest

mutual

/-- Draws a grammar object whose leaves are drawn by `leaf`. -/
def draw (leaf : L → Drawing σ) : Grammar L → Drawing σ
  | .leaf l, o => leaf l o
  | .held _ x, o => draw leaf x o
  | .present x, o => draw leaf x o
  | .absent, _ => pure .nothing
  | .row _ xs, o => do
    let parts ← drawAll leaf xs o
    return .sequence parts
  | .first xs, o => do
    let branches ← drawAll leaf xs o
    return .choice branches
  | .optional x, o => do
    let d ← draw leaf x o
    return d.optional
  | .oneOrMore x, o => do
    let d ← draw leaf x o
    return d.oneOrMore
  | .zeroOrMore x, o => do
    let d ← draw leaf x o
    return d.zeroOrMore
  | .separated x delimiter, o => do
    let body ← draw leaf x o
    let between ← draw leaf delimiter o
    return body.separated between
  | .adjusted name value x, o => draw leaf x (o.set name value)
  | .repeated name x, o => do
    let parts ← times (draw leaf x o) (repetitions name o)
    return .sequence parts

/-- Draws one object after the other. -/
def drawAll (leaf : L → Drawing σ) : List (Grammar L) → Options → StateM σ (List Diagram)
  | [], _ => pure []
  | x :: rest, o => do
    let d ← draw leaf x o
    let ds ← drawAll leaf rest o
    return d :: ds

end

theorem drawAll_eq_mapM (leaf : L → Drawing σ) (xs : List (Grammar L)) (o : Options) :
    drawAll leaf xs o = xs.mapM fun x => draw leaf x o := by
  induction xs with
  | nil => rfl
  | cons x rest ih => simp [drawAll, ih]

end Grammar

end Railroad
