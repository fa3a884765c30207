import Railroad.Options.Value
import Railroad.Text.ByteOrder

/-!
# Drawing options

Model of `Options`. Options give values to names. They are kept as a list of entries in strictly
ascending byte order of the names, so a set of written values has one representation only.

* `Options.insert` writes a value and hands back the one it replaces; `Options.set` only writes.
* `Options.get_insert_self` and `Options.get_insert_of_ne`: a write is seen under its own name and
  under no other.
-/

namespace Railroad

/-- A name with its value. -/
abbrev OptionEntry := String × OptionValue

namespace OptionEntry

/-- The entries with `value` under `name`, and the value that was there. -/
def write (name : String) (value : OptionValue) :
    List OptionEntry → Option OptionValue × List OptionEntry
  | [] => (none, [(name, value)])
  | (other, present) :: rest =>
    if name = other then (some present, (name, value) :: rest)
    else if Text.Before name other then (none, (name, value) :: (other, present) :: rest)
    else
      let written := write name value rest
      (written.1, (other, present) :: written.2)

/-- The value under `name`. -/
def read (name : String) : List OptionEntry → Option OptionValue
  | [] => none
  | (other, value) :: rest => if name = other then some value else read name rest

/-- Every entry comes strictly before those after it. -/
def Ascending (entries : List OptionEntry) : Prop :=
  entries.Pairwise fun a b => Text.Before a.1 b.1

theorem mem_write {name : String} {value : OptionValue} {entries : List OptionEntry}
    {e : OptionEntry} (h : e ∈ (write name value entries).2) : e.1 = name ∨ e ∈ entries := by
  induction entries with
  | nil => simp_all [write]
  | cons head rest ih =>
    unfold write at h
    grind

theorem ascending_write (name : String) (value : OptionValue) {entries : List OptionEntry}
    (h : Ascending entries) : Ascending (write name value entries).2 := by
  induction entries with
  | nil => exact List.pairwise_singleton _ _
  | cons head rest ih =>
    obtain ⟨other, present⟩ := head
    obtain ⟨hhead, hrest⟩ := List.pairwise_cons.1 h
    unfold write
    split
    · next heq => exact List.pairwise_cons.2 ⟨fun e he => heq ▸ hhead e he, hrest⟩
    · next hne =>
      split
      · next hlt =>
        refine List.pairwise_cons.2 ⟨fun e he => ?_, h⟩
        rcases List.mem_cons.1 he with rfl | he
        · exact hlt
        · exact hlt.trans (hhead e he)
      · next hnlt =>
        refine List.pairwise_cons.2 ⟨fun e he => ?_, ih hrest⟩
        rcases mem_write he with heq | he
        · rcases Text.before_trichotomy name other with h | h | h
          · exact absurd h hnlt
          · exact absurd h hne
          · exact heq ▸ h
        · exact hhead e he

theorem read_write_self (name : String) (value : OptionValue) (entries : List OptionEntry) :
    read name (write name value entries).2 = some value := by
  induction entries with
  | nil => simp [write, read]
  | cons head rest ih =>
    unfold write
    split
    · simp [read]
    · next hne => split <;> simp [read, hne, ih]

theorem read_write_of_ne {name other : String} (h : other ≠ name) (value : OptionValue)
    (entries : List OptionEntry) : read other (write name value entries).2 = read other entries := by
  induction entries with
  | nil => simp [write, read, h]
  | cons head rest ih =>
    unfold write
    split
    · next heq => subst heq; simp [read, h]
    · split <;> simp [read, h, ih]

end OptionEntry

/-- The options of a drawing. -/
structure Options where
  /-- Names with their values. -/
  entries : List OptionEntry
  /-- Names are in strictly ascending byte order. -/
  ascending : OptionEntry.Ascending entries
  deriving DecidableEq

namespace Options

/-- No options. -/
def empty : Options := ⟨[], .nil⟩

instance : Inhabited Options := ⟨empty⟩

/-- The options with `value` under `name`, and the value that was there. -/
def insert (o : Options) (name : String) (value : OptionValue) : Option OptionValue × Options :=
  let written := OptionEntry.write name value o.entries
  (written.1, ⟨written.2, OptionEntry.ascending_write name value o.ascending⟩)

/-- The options with `value` under `name`. -/
def set (o : Options) (name : String) (value : OptionValue) : Options :=
  (o.insert name value).2

/-- Options from entries, of which a later one wins over an earlier one. -/
def ofList (entries : List OptionEntry) : Options :=
  entries.foldl (fun o e => o.set e.1 e.2) empty

/-- Names with their values, in ascending byte order of the names. -/
def toList (o : Options) : List OptionEntry :=
  o.entries

/-- The value under `name`. -/
def get (o : Options) (name : String) : Option OptionValue :=
  OptionEntry.read name o.entries

/-- The truth value under `name`. -/
def getBool (o : Options) (name : String) : Option Bool :=
  (o.get name).bind (·.bool?)

/-- The integer under `name`. -/
def getInt (o : Options) (name : String) : Option Int64 :=
  (o.get name).bind (·.int?)

/-- The text under `name`. -/
def getText (o : Options) (name : String) : Option String :=
  (o.get name).bind (·.text?)

/-- There is a value under `name`. -/
def contains (o : Options) (name : String) : Bool :=
  o.entries.any fun e => e.1 == name

/-- The number of names. -/
def size (o : Options) : Nat :=
  o.entries.length

/-- There are no names. -/
def isEmpty (o : Options) : Bool :=
  o.entries.isEmpty

/-- The options laid out for inspection. -/
def outline (o : Options) : Outline :=
  .record "Options" ["entries"]
    [.table (o.entries.map (·.1)) (o.entries.map fun e => e.2.outline)]

@[simp] theorem get_insert_self (o : Options) (name : String) (value : OptionValue) :
    (o.insert name value).2.get name = some value :=
  OptionEntry.read_write_self name value o.entries

theorem get_insert_of_ne {name other : String} (h : other ≠ name) (o : Options)
    (value : OptionValue) : (o.insert name value).2.get other = o.get other :=
  OptionEntry.read_write_of_ne h value o.entries

@[simp] theorem get_empty (name : String) : empty.get name = none := rfl

@[simp] theorem get_set_self (o : Options) (name : String) (value : OptionValue) :
    (o.set name value).get name = some value :=
  get_insert_self o name value

theorem get_set_of_ne {name other : String} (h : other ≠ name) (o : Options)
    (value : OptionValue) : (o.set name value).get other = o.get other :=
  get_insert_of_ne h o value

end Options

end Railroad
