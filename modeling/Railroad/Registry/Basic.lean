import Railroad.Grammar.Basic
import Railroad.Registry.Event
import Railroad.Text.ByteOrder

/-!
# Registries

Model of `Registry`. A registry draws values whose type is known only when the program runs. It
knows the types that have been registered, and for each of them how its values are drawn; all other
values are refused.

* `Registry.register` makes a type known (`register`, `with`). A type registered twice is known
  once. What is noted for a type is an `Entry`, whose `describe` is a closure over the type.
* `Registry.draw` draws a value of hidden type (`create_railroad`), `Registry.drawAs` a value of a
  given type (`create_railroad_of`). The two differ in how a refusal names the type, and share
  `delegate`.
-/

namespace Railroad

/-- The types whose values a registry may be asked to draw. -/
structure TypeSystem (σ : Type) where
  /-- The types. -/
  Ty : Type
  /-- Types can be told apart. -/
  decEq : DecidableEq Ty
  /-- The name of a type. -/
  name : Ty → String
  /-- What is shown of a type when its name is not known. -/
  identity : Ty → String
  /-- The values of a type. -/
  Value : Ty → Type
  /-- How the values of a type are drawn, if they can be. -/
  drawing : (t : Ty) → Option (Value t → Drawing σ)

namespace TypeSystem

variable {σ : Type}

instance (S : TypeSystem σ) : DecidableEq S.Ty := S.decEq

/-- A value whose type is hidden. -/
abbrev Erased (S : TypeSystem σ) := (t : S.Ty) × S.Value t

/-- The values of a type can be drawn. -/
def Drawable (S : TypeSystem σ) (t : S.Ty) : Prop :=
  (S.drawing t).isSome

instance (S : TypeSystem σ) (t : S.Ty) : Decidable (S.Drawable t) :=
  inferInstanceAs (Decidable ((S.drawing t).isSome = true))

end TypeSystem

namespace Registry

variable {σ : Type}

/-- What a registry knows of a type. -/
structure Entry (S : TypeSystem σ) where
  /-- The name of the type. -/
  typeName : String
  /-- How a value is drawn, if it is of the type. -/
  describe : S.Erased → Options → Option (StateM σ Diagram)

/-- A value of hidden type seen as a value of `t`, if it is one. -/
def downcast {S : TypeSystem σ} (t : S.Ty) (v : S.Erased) : Option (S.Value t) :=
  if h : v.1 = t then some (h ▸ v.2) else none

/-- What there is to know of a type that can be drawn. -/
def Entry.of (S : TypeSystem σ) (t : S.Ty) (h : S.Drawable t) : Entry S where
  typeName := S.name t
  describe := fun v o => (downcast t v).map fun value => (S.drawing t).get h value o

/-- The entries with `entry` for the type `t`. -/
def put {S : TypeSystem σ} (t : S.Ty) (entry : Entry S) :
    List (S.Ty × Entry S) → List (S.Ty × Entry S)
  | [] => [(t, entry)]
  | (u, present) :: rest =>
    if t = u then (t, entry) :: rest else (u, present) :: put t entry rest

/-- The entry for the type `t`. -/
def find? {S : TypeSystem σ} (t : S.Ty) : List (S.Ty × Entry S) → Option (Entry S)
  | [] => none
  | (u, entry) :: rest => if t = u then some entry else find? t rest

/-- No type has two entries. -/
def Distinct {S : TypeSystem σ} (entries : List (S.Ty × Entry S)) : Prop :=
  entries.Pairwise fun a b => a.1 ≠ b.1

theorem mem_put {S : TypeSystem σ} {t : S.Ty} {entry : Entry S}
    {entries : List (S.Ty × Entry S)} {e : S.Ty × Entry S} (h : e ∈ put t entry entries) :
    e = (t, entry) ∨ e ∈ entries := by
  induction entries with
  | nil => exact .inl (List.mem_singleton.1 h)
  | cons head rest ih =>
    unfold put at h
    split at h
    · exact (List.mem_cons.1 h).imp_right (List.mem_cons_of_mem _)
    · rcases List.mem_cons.1 h with rfl | h
      · exact .inr List.mem_cons_self
      · exact (ih h).imp_right (List.mem_cons_of_mem _)

theorem distinct_put {S : TypeSystem σ} (t : S.Ty) (entry : Entry S)
    {entries : List (S.Ty × Entry S)} (h : Distinct entries) :
    Distinct (put t entry entries) := by
  induction entries with
  | nil => exact List.pairwise_singleton _ _
  | cons head rest ih =>
    obtain ⟨hhead, hrest⟩ := List.pairwise_cons.1 h
    unfold put
    split
    · next heq => exact List.pairwise_cons.2 ⟨fun e he => heq ▸ hhead e he, hrest⟩
    · next hne =>
      refine List.pairwise_cons.2 ⟨fun e he => ?_, ih hrest⟩
      rcases mem_put he with rfl | he
      · exact fun heq => hne heq.symm
      · exact hhead e he

end Registry

/-- The types that can be drawn when met at run time. -/
structure Registry {σ : Type} (S : TypeSystem σ) where
  /-- Each registered type with what is known of it. -/
  entries : List (S.Ty × Registry.Entry S)
  /-- No type is registered twice. -/
  distinct : Registry.Distinct entries

namespace Registry

variable {σ : Type} {S : TypeSystem σ}

/-- The registry that knows no types. -/
def empty : Registry S := ⟨[], .nil⟩

/-- Makes a report. -/
def report [Recorder σ] (event : Event) : StateM σ Unit :=
  modify (Recorder.record event)

/-- The registry in which the type `t` is known too. -/
def known (r : Registry S) (t : S.Ty) (h : S.Drawable t) : Registry S :=
  ⟨put t (.of S t h) r.entries, distinct_put t (.of S t h) r.distinct⟩

/-- Registers a type, with a report whether or not it is known already. -/
def register [Recorder σ] (r : Registry S) (t : S.Ty) (h : S.Drawable t) :
    StateM σ (Registry S) := do
  report (.registering (S.name t))
  return r.known t h

/-- The type is registered. -/
def contains (r : Registry S) (t : S.Ty) : Bool :=
  (find? t r.entries).isSome

/-- The type of a value is registered. -/
def supports (r : Registry S) (v : S.Erased) : Bool :=
  r.contains v.1

/-- The number of registered types. -/
def size (r : Registry S) : Nat :=
  r.entries.length

/-- No type is registered. -/
def isEmpty (r : Registry S) : Bool :=
  r.entries.isEmpty

/-- Draws a value as a registered type draws it, after a report. -/
def delegate [Recorder σ] (entry : Entry S) (v : S.Erased) (o : Options) :
    StateM σ (Except Refusal Diagram) := do
  report (.delegating entry.typeName)
  match entry.describe v o with
  | some drawing => return .ok (← drawing)
  | none => return .error (.notDrawable entry.typeName)

/-- Draws a value of hidden type. -/
def draw [Recorder σ] (r : Registry S) (v : S.Erased) (o : Options) :
    StateM σ (Except Refusal Diagram) :=
  match find? v.1 r.entries with
  | some entry => delegate entry v o
  | none => do
    report (.rejectedIdentity (S.identity v.1))
    return .error (.unregistered (S.identity v.1))

/-- Draws a value of a given type. -/
def drawAs [Recorder σ] (r : Registry S) {t : S.Ty} (value : S.Value t) (o : Options) :
    StateM σ (Except Refusal Diagram) :=
  match find? t r.entries with
  | some entry => delegate entry ⟨t, value⟩ o
  | none => do
    report (.rejectedType (S.name t))
    return .error (.notDrawable (S.name t))

/-- The names of the registered types, in no particular order. -/
def typeNames (r : Registry S) : List String :=
  r.entries.map fun e => e.2.typeName

/-- The registry laid out for inspection: the names of its types in byte order. -/
def outline (r : Registry S) : Outline :=
  .record "Registry" ["types"] [.list ((Text.sort r.typeNames).map .quoted)]

end Registry

end Railroad
