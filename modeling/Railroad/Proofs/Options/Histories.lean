import Mathlib.Data.Finset.Card
import Railroad.Proofs.Options.Representation

/-!
# Options after a history of writes

Options hold what was written to them, the last write under each name hiding those before. A whole
history comes to loading the entries written since options last began anew, so all that can be asked
of options after a history is answered by these entries.

* `written`: the entries written in a history. `replay_eq`: loading them replays the history.
* `AnswersAs`: options answer every question as the last writes among some entries do.
  `answersAs_ofList`: options answer as the entries they were loaded from.
* `last_write_wins`: the answers after a history, and what a further write does to them.
-/

namespace Railroad

namespace OptionValue

@[simp] theorem bool?_eq_some_iff {value : OptionValue} {b : Bool} :
    value.bool? = some b ↔ value = .bool b := by
  cases value <;> simp [bool?]

@[simp] theorem int?_eq_some_iff {value : OptionValue} {n : Int64} :
    value.int? = some n ↔ value = .int n := by
  cases value <;> simp [int?]

@[simp] theorem text?_eq_some_iff {value : OptionValue} {s : String} :
    value.text? = some s ↔ value = .text s := by
  cases value <;> simp [text?]

end OptionValue

namespace Options

/-! ## Histories as entries -/

/-- The entries written so far, after a further write. -/
def Write.addTo (entries : List OptionEntry) : Write → List OptionEntry
  | .clear => []
  | .load loaded => loaded
  | .insert name value | .set name value => entries ++ [(name, value)]

/-- The entries written since options last began anew, in the order in which they were written. -/
def written (history : List Write) : List OptionEntry :=
  history.foldl Write.addTo []

/-- One write to options that were loaded from entries. -/
theorem apply_ofList (entries : List OptionEntry) (w : Write) :
    ((ofList entries).apply w).2 = ofList (w.addTo entries) := by
  cases w with
  | clear => rfl
  | load loaded => rfl
  | insert name value => exact (ofList_append_singleton entries (name, value)).symm
  | set name value => exact (ofList_append_singleton entries (name, value)).symm

/-- **Replaying a history** is loading the entries written in it. -/
theorem replay_eq (history : List Write) : replay history = ofList (written history) := by
  show history.foldl (fun o w => (o.apply w).2) (ofList []) = ofList (history.foldl Write.addTo [])
  exact List.foldl_hom ofList apply_ofList

theorem replay_append_singleton (history : List Write) (w : Write) :
    replay (history ++ [w]) = ((replay history).apply w).2 :=
  List.foldl_append

/-! ## Answers -/

/-- The options answer every question as the values written last among the entries do. -/
structure AnswersAs (o : Options) (entries : List OptionEntry) : Prop where
  get_eq : ∀ name, o.get name = lastValue? entries name
  contains_iff : ∀ name, o.contains name = true ↔ (o.get name).isSome = true
  /-- As many names as different ones were written. -/
  size_eq : o.size = (entries.map Prod.fst).toFinset.card
  isEmpty_iff : o.isEmpty = true ↔ o.size = 0
  getBool_iff : ∀ name b, o.getBool name = some b ↔ lastValue? entries name = some (.bool b)
  getInt_iff : ∀ name n, o.getInt name = some n ↔ lastValue? entries name = some (.int n)
  getText_iff : ∀ name s, o.getText name = some s ↔ lastValue? entries name = some (.text s)
  /-- A value is of one type only. -/
  one_type : ∀ name,
    [(o.getBool name).isSome, (o.getInt name).isSome, (o.getText name).isSome].count true ≤ 1
  /-- Every name is listed once, with its value. -/
  listed : ∀ name value,
    o.toList.count (name, value) = if o.get name = some value then 1 else 0
  /-- The names are listed in strictly ascending byte order. -/
  ascending : o.toList.Pairwise fun a b => Text.bytes a.1 < Text.bytes b.1

theorem contains_iff_mem {o : Options} {name : String} :
    o.contains name = true ↔ name ∈ o.toList.map Prod.fst := by
  rw [contains, List.any_eq_true, List.mem_map]
  simp only [beq_iff_eq]
  rfl

theorem contains_iff_isSome {o : Options} {name : String} :
    o.contains name = true ↔ (o.get name).isSome = true := by
  rw [contains_iff_mem, List.mem_map, Option.isSome_iff_exists]
  constructor
  · rintro ⟨⟨_, value⟩, hmem, rfl⟩
    exact ⟨value, mem_toList_iff.mp hmem⟩
  · rintro ⟨value, hget⟩
    exact ⟨(name, value), mem_toList_iff.mpr hget, rfl⟩

/-- The names of loaded entries. -/
theorem mem_names_ofList {entries : List OptionEntry} {name : String} :
    name ∈ (ofList entries).toList.map Prod.fst ↔ name ∈ entries.map Prod.fst := by
  rw [← contains_iff_mem, contains_iff_isSome, get_ofList, lastValue?, List.lookup_isSome_iff]
  simp only [List.mem_reverse, List.mem_map, beq_iff_eq]
  simp only [eq_comm]

theorem size_ofList (entries : List OptionEntry) :
    (ofList entries).size = (entries.map Prod.fst).toFinset.card := by
  have hnames : (entries.map Prod.fst).toFinset =
      ((ofList entries).toList.map Prod.fst).toFinset := by
    ext name
    rw [List.mem_toFinset, List.mem_toFinset, mem_names_ofList]
  rw [hnames, List.toFinset_card_of_nodup (nodup_names _), List.length_map]
  rfl

theorem count_toList (o : Options) (name : String) (value : OptionValue) :
    o.toList.count (name, value) = if o.get name = some value then 1 else 0 := by
  rw [(List.Nodup.of_map _ o.nodup_names).count]
  simp only [mem_toList_iff]

/-- **Options answer as the entries they were loaded from.** -/
theorem answersAs_ofList (entries : List OptionEntry) : (ofList entries).AnswersAs entries where
  get_eq := get_ofList entries
  contains_iff name := contains_iff_isSome
  size_eq := size_ofList entries
  isEmpty_iff := List.isEmpty_iff_length_eq_zero
  getBool_iff name b := by
    rw [getBool, get_ofList, Option.bind_eq_some_iff]
    simp [lastValue?]
  getInt_iff name n := by
    rw [getInt, get_ofList, Option.bind_eq_some_iff]
    simp [lastValue?]
  getText_iff name s := by
    rw [getText, get_ofList, Option.bind_eq_some_iff]
    simp [lastValue?]
  one_type name := by
    rw [getBool, getInt, getText]
    rcases (ofList entries).get name with _ | (b | n | s) <;>
      simp [OptionValue.bool?, OptionValue.int?, OptionValue.text?]
  listed name value := count_toList _ name value
  ascending := (ofList entries).ascending

/-- **The last write wins.** After a history of writes options answer every question as the entries
written since they last began anew, of which the last one under a name counts. A further write hands
back the value that was to be read before, and is seen under its own name, by the reader of its own
type only, and under no other. -/
theorem last_write_wins (history : List Write) :
    (replay history).AnswersAs (written history) ∧
    ∀ name value,
      let before := replay history
      let after := replay (history ++ [.insert name value])
      before.apply (.insert name value) = (before.get name, after) ∧
      after.get name = some value ∧
      after.getBool name = value.bool? ∧
      after.getInt name = value.int? ∧
      after.getText name = value.text? ∧
      ∀ other, other ≠ name → after.get other = before.get other := by
  refine ⟨?_, fun name value => ?_⟩
  · rw [replay_eq]
    exact answersAs_ofList (written history)
  · intro before after
    have hafter : after = (before.insert name value).2 := replay_append_singleton history _
    have hget : after.get name = some value := by rw [hafter, get_insert_self]
    refine ⟨?_, hget, ?_, ?_, ?_, fun other hother => ?_⟩
    · rw [hafter, ← fst_insert]
      rfl
    · rw [getBool, hget]
      rfl
    · rw [getInt, hget]
      rfl
    · rw [getText, hget]
      rfl
    · rw [hafter, get_insert_of_ne hother]

/-- A value overwritten by one of another type, after a fresh start. -/
def overwriting : List Write :=
  [.set "width" (.int 80), .load [("title", .text "list"), ("mode", .bool true)],
    .insert "title" (.int 1), .set "é" (.text "")]

theorem last_write_wins_overwriting :
    let after := replay (overwriting ++ [.insert "mode" (.text "wide")])
    "title" ≠ "mode" ∧
      (replay overwriting).apply (.insert "mode" (.text "wide")) = (some (.bool true), after) ∧
      after.getBool "mode" = none ∧
      after.get "title" = some (.int 1) := by
  intro after
  have hne : "title" ≠ "mode" := by decide
  obtain ⟨hbefore, hinsert⟩ := last_write_wins overwriting
  obtain ⟨hreplaced, -, hbool, -, -, hother⟩ := hinsert "mode" (.text "wide")
  have hmode : (replay overwriting).get "mode" = some (.bool true) := by
    rw [hbefore.get_eq]
    decide
  have htitle : (replay overwriting).get "title" = some (.int 1) := by
    rw [hbefore.get_eq]
    decide
  rw [hmode] at hreplaced
  exact ⟨hne, hreplaced, hbool, (hother "title" hne).trans htitle⟩

end Options

end Railroad
