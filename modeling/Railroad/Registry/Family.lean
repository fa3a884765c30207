import Railroad.Registry.Basic

/-!
# Families of registries

Runs of `new`, `register`, `with`, `clone` and the questions on several registries: registries under
names, on which a program works step by step. A registry that has not been mentioned before is
empty.

* `Family.run` carries out one step on one registry of the family.
* `Family.runAll` carries out a list of steps.
-/

namespace Railroad

/-- Registries under names. -/
abbrev Family {σ : Type} (S : TypeSystem σ) := List (String × Registry S)

namespace Family

variable {σ : Type} {S : TypeSystem σ}

/-- The registry under a name. -/
def get (name : String) : Family S → Registry S
  | [] => .empty
  | (other, r) :: rest => if name = other then r else get name rest

/-- The family with `r` under a name. -/
def put (name : String) (r : Registry S) : Family S → Family S
  | [] => [(name, r)]
  | (other, present) :: rest =>
    if name = other then (name, r) :: rest else (other, present) :: put name r rest

/-- The family in which a name has been mentioned. -/
def mention (name : String) (family : Family S) : Family S :=
  put name (get name family) family

/-- The number of types in each registry that has been mentioned. -/
def sizes (family : Family S) : List (String × Nat) :=
  family.map fun e => (e.1, e.2.size)

/-- What can be done with one registry. -/
inductive Step (S : TypeSystem σ) where
  /-- Starts again with no types. -/
  | reset
  /-- Registers a type. -/
  | register (t : S.Ty) (drawable : S.Drawable t)
  /-- Asks whether a type is registered. -/
  | contains (t : S.Ty)
  /-- Asks whether the type of a value is registered. -/
  | supports (v : S.Erased)
  /-- Asks whether no type is registered. -/
  | isEmpty
  /-- Lays the registry out for inspection. -/
  | inspect
  /-- Draws a value of hidden type. -/
  | draw (v : S.Erased) (o : Options)
  /-- Draws a value of a given type. -/
  | drawAs {t : S.Ty} (value : S.Value t) (o : Options)
  /-- Puts a copy of the registry under another name. -/
  | copyTo (name : String)

/-- The answer to a step. -/
inductive Reply where
  | done
  | truth (value : Bool)
  | text (value : String)
  | drawn (outcome : Except Refusal Diagram)

/-- Carries out one step on the registry under `name`. -/
def run [Registry.Recorder σ] (name : String) (step : Step S) (family : Family S) :
    StateM σ (Reply × Family S) :=
  let r := get name family
  match step with
  | .reset => return (.done, put name .empty family)
  | .register t h => do
    let registered ← r.register t h
    return (.done, put name registered family)
  | .contains t => return (.truth (r.contains t), mention name family)
  | .supports v => return (.truth (r.supports v), mention name family)
  | .isEmpty => return (.truth r.isEmpty, mention name family)
  | .inspect => return (.text r.outline.line, mention name family)
  | .draw v o => do
    let outcome ← r.draw v o
    return (.drawn outcome, mention name family)
  | .drawAs value o => do
    let outcome ← r.drawAs value o
    return (.drawn outcome, mention name family)
  | .copyTo target => return (.done, put target r (mention name family))

/-- Carries out steps on the registries they name. -/
def runAll [Registry.Recorder σ] : List (String × Step S) → Family S → StateM σ (List Reply × Family S)
  | [], family => return ([], family)
  | (name, step) :: rest, family => do
    let (reply, after) ← run name step family
    let (replies, last) ← runAll rest after
    return (reply :: replies, last)

end Family

end Railroad
