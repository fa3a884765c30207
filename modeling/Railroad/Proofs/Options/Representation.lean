import Mathlib.Data.List.Induction
import Mathlib.Data.List.Nodup
import Railroad.Options.History

/-!
# Options as a mapping

Options are determined by the value under each name: their entries stand in strictly ascending
order of the names, so there is one list of entries for every mapping, whatever writes have led to
it.

* `mem_toList_iff`: the entries listed are the values to be read, each under its name.
* `ext_get`: options with the same value under every name are equal.
* `get_ofList`: of entries that are loaded, the last one under a name is read there.
* `one_representation`: equality of options, and what follows for the order of writes.
-/

namespace Railroad

namespace OptionEntry

theorem Ascending.nodup_names {entries : List OptionEntry} (h : Ascending entries) :
    (entries.map Prod.fst).Nodup :=
  List.pairwise_map.mpr (h.imp Text.Before.ne)

/-- Reading finds the first entry under a name. -/
theorem read_eq_lookup (name : String) (entries : List OptionEntry) :
    read name entries = entries.lookup name := by
  induction entries with
  | nil => rfl
  | cons head rest ih =>
    rw [read, List.lookup_cons, ih]
    by_cases h : name = head.1
    · simp [h]
    · simp [h, beq_eq_false_iff_ne.mpr h]

/-- Where no name stands twice, every entry can be read. -/
theorem read_eq_some_iff {entries : List OptionEntry} (h : (entries.map Prod.fst).Nodup)
    {name : String} {value : OptionValue} :
    read name entries = some value ↔ (name, value) ∈ entries := by
  induction entries with
  | nil => simp [read]
  | cons head rest ih =>
    obtain ⟨other, present⟩ := head
    rw [List.map_cons, List.nodup_cons] at h
    rw [read, List.mem_cons, Prod.mk.injEq]
    by_cases hname : name = other
    · subst hname
      have hrest : (name, value) ∉ rest := fun hmem => h.1 (List.mem_map.mpr ⟨_, hmem, rfl⟩)
      simp [hrest, eq_comm]
    · simp [hname, ih h.2]

theorem read_eq_none {entries : List OptionEntry} {name : String}
    (h : ∀ e ∈ entries, name ≠ e.1) : read name entries = none := by
  induction entries with
  | nil => rfl
  | cons head rest ih =>
    rw [read, if_neg (h head List.mem_cons_self)]
    exact ih fun e he => h e (List.mem_cons_of_mem head he)

/-- **A write hands back** what was to be read under its name. -/
theorem fst_write {entries : List OptionEntry} (h : Ascending entries) (name : String)
    (value : OptionValue) : (write name value entries).1 = read name entries := by
  induction entries with
  | nil => rfl
  | cons head rest ih =>
    obtain ⟨other, present⟩ := head
    obtain ⟨hhead, hrest⟩ := List.pairwise_cons.mp h
    rw [write, read]
    split
    · rfl
    · split
      -- all names that follow are greater still
      · next hbefore => exact (read_eq_none fun e he => (hbefore.trans (hhead e he)).ne).symm
      · exact ih hrest

end OptionEntry

namespace Options

variable {a b o : Options} {name other : String} {value : OptionValue}

/-! ## Entries and values -/

theorem nodup_names (o : Options) : (o.toList.map Prod.fst).Nodup :=
  o.ascending.nodup_names

/-- **The entries listed** are the values to be read. -/
theorem mem_toList_iff : (name, value) ∈ o.toList ↔ o.get name = some value :=
  (OptionEntry.read_eq_some_iff o.nodup_names).symm

theorem eq_iff_toList : a = b ↔ a.toList = b.toList := by
  constructor
  · rintro rfl
    rfl
  · intro h
    cases a
    cases b
    cases h
    rfl

/-- Two lists in strictly ascending order of the same entries are one list. -/
theorem eq_of_perm (h : a.toList.Perm b.toList) : a = b :=
  eq_iff_toList.mpr <| List.Perm.eq_of_pairwise
    (fun _ _ _ _ hbefore hafter => absurd hafter hbefore.asymm) a.ascending b.ascending h

/-- **Options with the same value under every name** are equal. -/
theorem ext_get (h : ∀ name, a.get name = b.get name) : a = b := by
  refine eq_of_perm ?_
  rw [List.perm_ext_iff_of_nodup (List.Nodup.of_map _ a.nodup_names)
    (List.Nodup.of_map _ b.nodup_names)]
  rintro ⟨name, value⟩
  rw [mem_toList_iff, mem_toList_iff, h name]

theorem fst_insert (o : Options) (name : String) (value : OptionValue) :
    (o.insert name value).1 = o.get name :=
  OptionEntry.fst_write o.ascending name value

/-! ## Loading entries -/

/-- The value that stands last under a name. -/
def lastValue? (entries : List OptionEntry) (name : String) : Option OptionValue :=
  entries.reverse.lookup name

@[simp] theorem ofList_nil : ofList [] = empty := rfl

theorem ofList_append_singleton (entries : List OptionEntry) (e : OptionEntry) :
    ofList (entries ++ [e]) = (ofList entries).set e.1 e.2 :=
  List.foldl_append

/-- **Of entries that are loaded**, the last one under a name is read there. -/
theorem get_ofList (entries : List OptionEntry) (name : String) :
    (ofList entries).get name = lastValue? entries name := by
  induction entries using List.reverseRecOn with
  | nil => rfl
  | append_singleton entries e ih =>
    rw [ofList_append_singleton, lastValue?, List.reverse_append, List.reverse_singleton,
      List.singleton_append, List.lookup_cons]
    by_cases h : name = e.1
    · simp [h]
    · rw [get_set_of_ne h, ih, beq_eq_false_iff_ne.mpr h]
      rfl

/-- Loading the entries of options in any order leads back to them. -/
theorem ofList_of_perm {entries : List OptionEntry} (h : entries.Perm o.toList) :
    ofList entries = o := by
  have hperm : entries.reverse.Perm o.toList := entries.reverse_perm.trans h
  have hnodup : (entries.reverse.map Prod.fst).Nodup :=
    (hperm.map Prod.fst).nodup_iff.mpr o.nodup_names
  refine ext_get fun name => Option.ext fun value => ?_
  rw [get_ofList, lastValue?, ← OptionEntry.read_eq_lookup, OptionEntry.read_eq_some_iff hnodup,
    hperm.mem_iff, mem_toList_iff]

/-! ## Laws of writing -/

theorem get_set (o : Options) (name other : String) (value : OptionValue) :
    (o.set name value).get other = if other = name then some value else o.get other := by
  split
  · next h => rw [h, get_set_self]
  · next h => exact get_set_of_ne h o value

/-- Writes under different names can be exchanged. -/
theorem set_set_comm (h : name ≠ other) (o : Options) (v w : OptionValue) :
    (o.set name v).set other w = (o.set other w).set name v := by
  refine ext_get fun asked => ?_
  simp only [get_set]
  grind

/-- A write hides an earlier one under its name. -/
theorem set_set_self (o : Options) (name : String) (v w : OptionValue) :
    (o.set name v).set name w = o.set name w := by
  refine ext_get fun asked => ?_
  simp only [get_set]
  grind

/-- Writing what is there already changes nothing. -/
theorem set_of_get (h : o.get name = some value) : o.set name value = o := by
  refine ext_get fun asked => ?_
  rw [get_set]
  split
  · next heq => rw [heq, h]
  · rfl

/-- **Options have one representation for each mapping.** Options are equal if and only if they have
the same value under every name, which is if and only if their entries are listed alike, and loading
these entries in any order leads back to the options. Hence writes under different names can be
exchanged, of two writes under one name only the later matters, and writing what is there already
changes nothing. -/
theorem one_representation :
    (∀ a b : Options, a = b ↔ ∀ name, a.get name = b.get name) ∧
    (∀ a b : Options, a = b ↔ a.toList = b.toList) ∧
    (∀ (o : Options) (entries : List OptionEntry), entries.Perm o.toList → ofList entries = o) ∧
    (∀ (o : Options) (name other : String) (v w : OptionValue), name ≠ other →
      (o.set name v).set other w = (o.set other w).set name v) ∧
    (∀ (o : Options) (name : String) (v w : OptionValue),
      (o.set name v).set name w = o.set name w) ∧
    ∀ (o : Options) (name : String) (value : OptionValue),
      o.get name = some value → o.set name value = o := by
  refine ⟨fun a b => ⟨?_, ext_get⟩, fun a b => eq_iff_toList, fun o entries h => ofList_of_perm h,
    fun o name other v w h => set_set_comm h o v w, set_set_self, fun o name value h => set_of_get h⟩
  rintro rfl name
  rfl

/-- Options written out of order, one name twice. -/
def scrambled : Options :=
  ofList [("width", .int 80), ("title", .text "list"), ("width", .bool true)]

theorem one_representation_scrambled :
    let entries := [("width", OptionValue.bool true), ("title", .text "list")]
    (entries.Perm scrambled.toList ∧ ofList entries = scrambled) ∧
    ("width" ≠ "title" ∧
      (scrambled.set "width" (.int 1)).set "title" (.int 2) =
        (scrambled.set "title" (.int 2)).set "width" (.int 1)) ∧
    (scrambled.get "title" = some (.text "list") ∧
      scrambled.set "title" (.text "list") = scrambled) := by
  intro entries
  obtain ⟨-, -, hload, hswap, -, hagain⟩ := one_representation
  have hperm : entries.Perm scrambled.toList := by decide
  have hne : "width" ≠ "title" := by decide
  have hget : scrambled.get "title" = some (.text "list") := by decide
  exact ⟨⟨hperm, hload _ _ hperm⟩, ⟨hne, hswap _ _ _ _ _ hne⟩, ⟨hget, hagain _ _ _ hget⟩⟩

end Options

end Railroad
