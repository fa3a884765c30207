import Mathlib.Logic.Function.Basic
import Railroad.Proofs.Registry.Contents
import Railroad.Registry.Family
import Railroad.Registry.Logged
import Railroad.Registry.NamedType

/-!
# Families of registries as families of sets

A family of registries is seen as a function from names to registries, and each step as a change of
that function. In the same way the types registered under each name are a function from names to
sets of types, which each step changes.

* `view_run`, `view_runAll`: steps change the view of a family, whatever the state of the drawings.
* `types_after`, `sound_after`: after any steps every registry is sound, and its types are those of
  `Family.registered`.
* `effects_filter`: steps elsewhere leave a registry alone.
* `mem_registrations`: registrations add their types, in whatever order.
* `family_of_sets`: nothing can be observed of a registry but the set of types registered in it.
-/

namespace Railroad.Family

variable {σ : Type} {S : TypeSystem σ}

/-! ## Registries under names -/

/-- The registry under each name. -/
def view (family : Family S) : String → Registry S :=
  fun name => get name family

theorem view_put (name : String) (r : Registry S) (family : Family S) :
    view (put name r family) = Function.update (view family) name r := by
  funext other
  rw [Function.update_apply]
  induction family with
  | nil => rfl
  | cons head rest ih =>
    obtain ⟨first, present⟩ := head
    show get other (if name = first then _ else _) = _
    split
    · next heq =>
      subst heq
      show (if other = name then r else get other rest) =
        if other = name then r else if other = name then present else get other rest
      split <;> rfl
    · next hne =>
      show (if other = first then present else get other (put name r rest)) =
        if other = name then r else if other = first then present else get other rest
      split
      · next heq => rw [if_neg (heq ▸ Ne.symm hne)]
      · exact ih

theorem view_mention (name : String) (family : Family S) :
    view (mention name family) = view family := by
  rw [mention, view_put]
  exact Function.update_eq_self name (view family)

/-! ## Steps -/

/-- What a step on the registry under `name` makes of the registries. -/
def Step.effect (name : String) (registries : String → Registry S) : Step S → String → Registry S
  | .reset => Function.update registries name .empty
  | .register t h => Function.update registries name ((registries name).known t h)
  | .copyTo target => Function.update registries target (registries name)
  | _ => registries

/-- What a step on the registry under `name` makes of the registered types. -/
def Step.onTypes (name : String) (types : String → Finset S.Ty) : Step S → String → Finset S.Ty
  | .reset => Function.update types name ∅
  | .register t _ => Function.update types name (insert t (types name))
  | .copyTo target => Function.update types target (types name)
  | _ => types

/-- The name under which a step on the registry under `name` puts a registry, if it does. -/
def Step.writes (name : String) : Step S → Option String
  | .reset => some name
  | .register _ _ => some name
  | .copyTo target => some target
  | _ => none

/-- **What a step does to the registries.** The state of the drawings is of no account. -/
theorem view_run [Registry.Recorder σ] (name : String) (step : Step S) (family : Family S)
    (s : σ) : view ((run name step family).run s).1.2 = step.effect name (view family) := by
  cases step with
  | reset => exact view_put name .empty family
  | register t h => exact view_put name _ family
  | copyTo target =>
    refine (view_put target (get name family) _).trans ?_
    rw [view_mention]
    rfl
  | contains | supports | isEmpty | inspect | draw | drawAs => exact view_mention name family

/-- The effect of a step on the types in the registries. -/
theorem types_effect (name : String) (registries : String → Registry S) (step : Step S) :
    (fun n => (step.effect name registries n).types) =
      step.onTypes name fun n => (registries n).types := by
  have hupdate (target : String) (r : Registry S) :
      (fun n => (Function.update registries target r n).types) =
        Function.update (fun n => (registries n).types) target r.types :=
    Function.comp_update Registry.types registries target r
  cases step with
  | reset => exact hupdate name .empty
  | register t h =>
    refine (hupdate name _).trans ?_
    rw [Registry.types_known]
    rfl
  | copyTo target => exact hupdate target (registries name)
  | contains | supports | isEmpty | inspect | draw | drawAs => rfl

theorem sound_effect {registries : String → Registry S} (h : ∀ n, (registries n).Sound)
    (name : String) (step : Step S) (n : String) : (step.effect name registries n).Sound := by
  have hupdate (target : String) {r : Registry S} (hr : r.Sound) :
      (Function.update registries target r n).Sound := by
    rw [Function.update_apply]
    split
    · exact hr
    · exact h n
  cases step with
  | reset => exact hupdate name Registry.sound_empty
  | register t ht => exact hupdate name ((h name).known t ht)
  | copyTo target => exact hupdate target (h name)
  | contains | supports | isEmpty | inspect | draw | drawAs => exact h n

theorem effect_of_not_writes {name other : String} {step : Step S}
    (h : step.writes name ≠ some other) (registries : String → Registry S) :
    step.effect name registries other = registries other := by
  have hne {target : String} (ht : some target ≠ some other) : other ≠ target :=
    fun heq => ht (congrArg some heq.symm)
  cases step with
  | reset => exact Function.update_of_ne (hne h) _ _
  | register => exact Function.update_of_ne (hne h) _ _
  | copyTo => exact Function.update_of_ne (hne h) _ _
  | contains | supports | isEmpty | inspect | draw | drawAs => rfl

/-- A step on a registry looks at no other registry. -/
theorem effect_congr {name : String} {registries registries' : String → Registry S}
    (h : registries name = registries' name) (step : Step S) :
    step.effect name registries name = step.effect name registries' name := by
  cases step with
  | reset => rw [Step.effect, Step.effect, Function.update_self, Function.update_self]
  | register t ht =>
    rw [Step.effect, Step.effect, Function.update_self, Function.update_self, h]
  | copyTo target =>
    rw [Step.effect, Step.effect, Function.update_apply, Function.update_apply, h]
  | contains | supports | isEmpty | inspect | draw | drawAs => exact h

/-! ## Runs -/

/-- What steps make of the registries. -/
def effects (steps : List (String × Step S)) (registries : String → Registry S) :
    String → Registry S :=
  steps.foldl (fun registries e => e.2.effect e.1 registries) registries

/-- What steps make of the registered types. -/
def typesAfter (steps : List (String × Step S)) (types : String → Finset S.Ty) :
    String → Finset S.Ty :=
  steps.foldl (fun types e => e.2.onTypes e.1 types) types

/-- **The types registered under each name** by a list of steps: a reset leaves none, a registration
adds one, and a copy has those that its source has at that moment. -/
def registered (steps : List (String × Step S)) : String → Finset S.Ty :=
  typesAfter steps fun _ => ∅

/-- The family after a list of steps, begun with no registries. -/
def after [Registry.Recorder σ] (steps : List (String × Step S)) (start : σ) : Family S :=
  ((runAll steps []).run start).1.2

theorem view_runAll [Registry.Recorder σ] (steps : List (String × Step S)) (family : Family S)
    (s : σ) : view ((runAll steps family).run s).1.2 = effects steps (view family) := by
  induction steps generalizing family s with
  | nil => rfl
  | cons e rest ih =>
    show view ((runAll rest ((run e.1 e.2 family).run s).1.2).run _).1.2 = _
    rw [ih, view_run]
    rfl

theorem view_after [Registry.Recorder σ] (steps : List (String × Step S)) (start : σ) :
    view (after steps start) = effects steps fun _ => .empty :=
  view_runAll steps [] start

theorem types_effects (steps : List (String × Step S)) (registries : String → Registry S) :
    (fun n => (effects steps registries n).types) =
      typesAfter steps fun n => (registries n).types := by
  induction steps generalizing registries with
  | nil => rfl
  | cons e rest ih =>
    show (fun n => (effects rest (e.2.effect e.1 registries) n).types) = _
    rw [ih, types_effect]
    rfl

theorem sound_effects (steps : List (String × Step S)) {registries : String → Registry S}
    (h : ∀ n, (registries n).Sound) : ∀ n, (effects steps registries n).Sound := by
  induction steps generalizing registries with
  | nil => exact h
  | cons e rest ih => exact ih (sound_effect h e.1 e.2)

/-- **The types of a registry** are those registered in it. -/
theorem types_after [Registry.Recorder σ] (steps : List (String × Step S)) (start : σ)
    (name : String) : (get name (after steps start)).types = registered steps name := by
  show (view (after steps start) name).types = _
  rw [view_after]
  exact congrFun (types_effects steps fun _ => .empty) name

theorem sound_after [Registry.Recorder σ] (steps : List (String × Step S)) (start : σ)
    (name : String) : (get name (after steps start)).Sound := by
  show (view (after steps start) name).Sound
  rw [view_after]
  exact sound_effects steps (fun _ => Registry.sound_empty) name

theorem typesAfter_append (xs ys : List (String × Step S)) (types : String → Finset S.Ty) :
    typesAfter (xs ++ ys) types = typesAfter ys (typesAfter xs types) :=
  List.foldl_append

theorem effects_append (xs ys : List (String × Step S)) (registries : String → Registry S) :
    effects (xs ++ ys) registries = effects ys (effects xs registries) :=
  List.foldl_append

/-! ## Independence -/

/-- **Steps elsewhere leave a registry alone**: of steps that put nothing under its name, those on
other registries can be left out. -/
theorem effects_filter {other : String} {steps : List (String × Step S)}
    (h : ∀ e ∈ steps, e.1 ≠ other → e.2.writes e.1 ≠ some other)
    {registries registries' : String → Registry S}
    (hother : registries other = registries' other) :
    effects steps registries other =
      effects (steps.filter fun e => e.1 = other) registries' other := by
  induction steps generalizing registries registries' with
  | nil => exact hother
  | cons e rest ih =>
    have hrest : ∀ e ∈ rest, e.1 ≠ other → e.2.writes e.1 ≠ some other :=
      fun e he => h e (List.mem_cons_of_mem _ he)
    by_cases hname : e.1 = other
    · rw [List.filter_cons_of_pos (by simpa using hname)]
      subst hname
      exact ih hrest (effect_congr hother e.2)
    · rw [List.filter_cons_of_neg (by simpa using hname)]
      have helse := effect_of_not_writes (h e List.mem_cons_self hname) registries
      exact ih hrest (helse.trans hother)

/-! ## Registrations -/

/-- Registrations of types in the registry under `name`. -/
def registrations (name : String) (ts : List { t : S.Ty // S.Drawable t }) :
    List (String × Step S) :=
  ts.map fun t => (name, .register t.1 t.2)

/-- **Registrations add their types**, in whatever order. -/
theorem mem_registrations (name : String) (ts : List { t : S.Ty // S.Drawable t })
    (types : String → Finset S.Ty) (other : String) (u : S.Ty) :
    u ∈ typesAfter (registrations name ts) types other ↔
      u ∈ types other ∨ other = name ∧ ∃ t ∈ ts, t.1 = u := by
  induction ts generalizing types with
  | nil => simp [registrations, typesAfter]
  | cons t rest ih =>
    show u ∈ typesAfter (registrations name rest)
      (Function.update types name (insert t.1 (types name))) other ↔ _
    rw [ih, Function.update_apply]
    by_cases hname : other = name
    · subst hname
      simp [or_assoc, or_left_comm, eq_comm]
    · simp [hname]

/-- Registrations of the same types, in whatever order and however often, come to the same. -/
theorem typesAfter_registrations_congr (name : String)
    {ts ts' : List { t : S.Ty // S.Drawable t }} (h : ∀ t, t ∈ ts ↔ t ∈ ts')
    (types : String → Finset S.Ty) :
    typesAfter (registrations name ts) types = typesAfter (registrations name ts') types := by
  funext other
  ext u
  rw [mem_registrations, mem_registrations]
  simp only [h]

/-- Registering a type again changes nothing. -/
theorem onTypes_register_of_mem {name : String} {types : String → Finset S.Ty} {t : S.Ty}
    (ht : t ∈ types name) (h : S.Drawable t) : (Step.register t h).onTypes name types = types := by
  rw [Step.onTypes, Finset.insert_eq_of_mem ht]
  exact Function.update_eq_self name types

/-! ## Families of sets -/

section Observations

variable [Registry.Recorder σ]

theorem alike_of_registered_eq {steps steps' : List (String × Step S)} {name name' : String}
    (h : registered steps name = registered steps' name') (start start' : σ) :
    (get name (after steps start)).Alike (get name' (after steps' start')) :=
  (sound_after steps start name).alike_of_types_eq (sound_after steps' start' name')
    (by rw [types_after, types_after, h])

/-- **A family of registries behaves as a family of sets.** After any steps every registry answers
as the set of types registered in it, and registries with the same set, of whatever families, are
alike. So it does not matter, then or after further steps, whether a type is registered again, nor
in which order and how often types are registered; and steps on other registries that put nothing
under the name of a registry, among whatever steps on the registry itself, leave it as it would be
without them. -/
theorem family_of_sets (steps : List (String × Step S)) (start : σ) :
    -- every registry answers as its set
    (∀ name, (get name (after steps start)).AnswersAs (registered steps name)) ∧
    -- the set decides
    (∀ steps' start' name name', registered steps name = registered steps' name' →
      (get name (after steps start)).Alike (get name' (after steps' start'))) ∧
    -- a type registered again
    (∀ name t h, t ∈ registered steps name → ∀ later start' other,
      (get other (after (steps ++ (name, .register t h) :: later) start)).Alike
        (get other (after (steps ++ later) start'))) ∧
    -- the same types in another order
    (∀ name ts ts', (∀ t, t ∈ ts ↔ t ∈ ts') → ∀ later start' other,
      (get other (after (steps ++ registrations name ts ++ later) start)).Alike
        (get other (after (steps ++ registrations name ts' ++ later) start'))) ∧
    -- steps elsewhere
    (∀ other later, (∀ e ∈ later, e.1 ≠ other → e.2.writes e.1 ≠ some other) → ∀ start',
      get other (after (steps ++ later) start) =
        get other (after (steps ++ later.filter fun e => e.1 = other) start')) := by
  refine ⟨fun name => ?_, fun steps' start' name name' h => alike_of_registered_eq h start start',
    fun name t h ht later start' other => ?_, fun name ts ts' hts later start' other => ?_,
    fun other later hlater start' => ?_⟩
  · rw [← types_after steps start name]
    exact Registry.answersAs_types _
  · refine alike_of_registered_eq (congrFun ?_ other) start start'
    rw [registered, typesAfter_append, registered, typesAfter_append]
    exact congrArg (typesAfter later) (onTypes_register_of_mem ht h)
  · refine alike_of_registered_eq (congrFun ?_ other) start start'
    rw [registered, typesAfter_append, typesAfter_append, registered, typesAfter_append,
      typesAfter_append, typesAfter_registrations_congr name hts]
  · show view (after (steps ++ later) start) other = view (after (steps ++ _) start') other
    rw [view_after, view_after, effects_append, effects_append]
    exact effects_filter hlater rfl

end Observations

/-- Values that count how often they are drawn, with a log beside the count. -/
abbrev countingTypes : TypeSystem (Nat × List Registry.Event) :=
  (NamedType.system Nat "TypeId(..)").logged

/-- The type of values that count. -/
abbrev countingType : countingTypes.Ty := NamedType.drawable "Counting"

theorem drawable_countingType : countingTypes.Drawable countingType := rfl

/-- A value that counts. -/
def countingValue : countingTypes.Value countingType := Grammar.leaf Leaf.counting

/-- A registration and a copy. -/
def copySteps : List (String × Step countingTypes) :=
  [("main", .register countingType drawable_countingType), ("main", .copyTo "copy")]

/-- Steps on both registries after the copy. -/
def laterSteps : List (String × Step countingTypes) :=
  [("main", .reset), ("copy", .drawAs countingValue .empty), ("main", .copyTo "third")]

theorem family_of_sets_copySteps :
    let r (steps : List (String × Step countingTypes)) (name : String) :=
      get name (after steps (0, []))
    let drawable := drawable_countingType
    (registered copySteps "main" = registered copySteps "copy" ∧
      (r copySteps "main").Alike (r copySteps "copy")) ∧
    (countingType ∈ registered copySteps "main" ∧
      (r (copySteps ++ ("main", .register countingType drawable) :: laterSteps) "third").Alike
        (r (copySteps ++ laterSteps) "third")) ∧
    (r (copySteps ++ registrations "copy" [⟨_, drawable⟩, ⟨_, drawable⟩] ++ laterSteps)
      "copy").Alike
        (r (copySteps ++ registrations "copy" [⟨_, drawable⟩] ++ laterSteps) "copy") ∧
    ((∀ e ∈ laterSteps, e.1 ≠ "copy" → e.2.writes e.1 ≠ some "copy") ∧
      r (copySteps ++ laterSteps) "copy" =
        r (copySteps ++ [("copy", .drawAs countingValue .empty)]) "copy") := by
  intro r drawable
  obtain ⟨-, hsets, hagain, horder, helse⟩ := family_of_sets copySteps (0, [])
  have hsame : registered copySteps "main" = registered copySteps "copy" := by decide
  have hmem : countingType ∈ registered copySteps "main" := by decide
  have hlater : ∀ e ∈ laterSteps, e.1 ≠ "copy" → e.2.writes e.1 ≠ some "copy" := by
    simp [laterSteps, Step.writes]
  exact ⟨⟨hsame, hsets _ _ _ _ hsame⟩, ⟨hmem, hagain "main" countingType drawable hmem _ _ _⟩,
    horder _ _ _ (by simp) _ _ _, hlater, helse _ _ hlater _⟩

end Railroad.Family
