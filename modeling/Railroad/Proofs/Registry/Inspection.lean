import Railroad.Proofs.Registry.Families

/-!
# Registries laid out for inspection

An inspection goes through the entries of a registry in an order of which nothing is known, and puts
the names that it meets into byte order. What it shows depends on the set of types alone.

* `Sound.coe_typeNames`: the names noted in a registry are those of its types, one for each type.
* `inspection_is_canonical`: registries with the same types are shown alike, however they came to
  them.
-/

namespace Railroad

namespace Registry

variable {σ : Type} {S : TypeSystem σ}

/-- The layout of a registry that shows the given names. -/
def namesOutline (names : List String) : Outline :=
  .record "Registry" ["types"] [.list (names.map .quoted)]

theorem line_namesOutline (names : List String) :
    (namesOutline names).line =
      "Registry \x7b types: [" ++ String.intercalate ", " (names.map Text.quote) ++ "] \x7d" := by
  have hquotes : Outline.lines (names.map .quoted) = names.map Text.quote := by
    rw [Outline.lines_eq_map, List.map_map]
    rfl
  have hline : (namesOutline names).line = "Registry \x7b " ++
      ("types: " ++ ("[" ++ String.intercalate ", " (Outline.lines (names.map .quoted)) ++ "]"))
        ++ " \x7d" := rfl
  rw [hline, hquotes]
  simp only [String.append_assoc]
  rfl

theorem outline_eq (r : Registry S) : r.outline = namesOutline (Text.sort r.typeNames) := rfl

/-- **The names noted in a sound registry** are the names of its types, one for each type. -/
theorem Sound.coe_typeNames {r : Registry S} (hr : Sound r) :
    (r.typeNames : Multiset String) = r.types.val.map S.name := by
  have hval : r.types.val = (r.entries.map Prod.fst : List S.Ty) := by
    rw [types, List.toFinset_val, r.nodup_keys.dedup]
  rw [hr.typeNames_eq, hval, Multiset.map_coe]

end Registry

namespace Family

variable {σ : Type} {S : TypeSystem σ} [Registry.Recorder σ]

open Registry (namesOutline)

/-- **Inspections are canonical.** For registries in which the same types are registered, after
whatever steps, there is one list of names: in byte order, with the name of each type as often as
there are types of that name, and so of the same length as either registry is large. It is what an
inspection shows, in whatever order it goes through the entries and in whatever way it puts the
names into order. -/
theorem inspection_is_canonical {steps steps' : List (String × Step S)} {name name' : String}
    (h : registered steps name = registered steps' name') (start start' : σ) :
    let r := get name (after steps start)
    let r' := get name' (after steps' start')
    ∃ names : List String,
      Text.InOrder names ∧
      (names : Multiset String) = (registered steps name).val.map S.name ∧
      names.length = r.size ∧ names.length = r'.size ∧
      (∀ q : Registry S, q.entries.Perm r.entries ∨ q.entries.Perm r'.entries →
        q.outline = namesOutline names ∧
        ∀ shown : List String, shown.Perm q.typeNames → Text.InOrder shown → shown = names) ∧
      (namesOutline names).line =
        "Registry \x7b types: [" ++ String.intercalate ", " (names.map Text.quote) ++ "] \x7d" := by
  intro r r'
  have hr : r.Sound := sound_after steps start name
  have hr' : r'.Sound := sound_after steps' start' name'
  have htypes : r.types = registered steps name := types_after steps start name
  have htypes' : r'.types = registered steps name := (types_after steps' start' name').trans h.symm
  have hsame : r.typeNames.Perm r'.typeNames := by
    rw [← Multiset.coe_eq_coe, hr.coe_typeNames, hr'.coe_typeNames, htypes, htypes']
  have hlength (q : Registry S) : q.typeNames.length = q.size := List.length_map _
  refine ⟨Text.sort r.typeNames, Text.sort_inOrder _, ?_, ?_, ?_, fun q hq => ?_,
    Registry.line_namesOutline _⟩
  · rw [Multiset.coe_eq_coe.mpr (Text.sort_perm _), hr.coe_typeNames, htypes]
  · rw [(Text.sort_perm _).length_eq, hlength]
  · rw [(Text.sort_perm _).length_eq, hsame.length_eq, hlength]
  · have hnames : q.typeNames.Perm r.typeNames := by
      rcases hq with hq | hq
      · exact hq.map _
      · exact (hq.map _).trans hsame.symm
    refine ⟨?_, fun shown hshown hordered => ?_⟩
    · rw [Registry.outline_eq, Text.sort_eq_of_perm hnames]
    · exact Text.eq_of_perm_of_inOrder ((hshown.trans hnames).trans (Text.sort_perm _).symm)
        hordered (Text.sort_inOrder _)

/-- Two types with one name, and a third with another. -/
def namesakes : TypeSystem (Nat × List Registry.Event) where
  Ty := Fin 3
  decEq := inferInstance
  name := fun t => if t = 2 then "Alone" else "Twin"
  identity := fun _ => "TypeId(..)"
  Value := fun _ => Unit
  drawing := fun _ => some fun _ _ => pure .nothing

/-- All three types, one of them twice. -/
def directSteps : List (String × Step namesakes) :=
  [("main", .register (0 : Fin 3) rfl), ("main", .register (2 : Fin 3) rfl),
    ("main", .register (1 : Fin 3) rfl), ("main", .register (0 : Fin 3) rfl)]

/-- The same types in another order, with a reset before and a copy after them. -/
def roundaboutSteps : List (String × Step namesakes) :=
  [("draft", .register (1 : Fin 3) rfl), ("draft", .reset), ("draft", .register (2 : Fin 3) rfl),
    ("draft", .register (1 : Fin 3) rfl), ("draft", .register (0 : Fin 3) rfl),
    ("draft", .copyTo "copy"), ("draft", .reset)]

theorem inspection_is_canonical_namesakes :
    registered directSteps "main" = registered roundaboutSteps "copy" ∧
      (get "main" (after directSteps (0, []))).outline = namesOutline ["Alone", "Twin", "Twin"] ∧
      (get "copy" (after roundaboutSteps (0, []))).outline =
        namesOutline ["Alone", "Twin", "Twin"] := by
  have hsame : registered directSteps "main" = registered roundaboutSteps "copy" := by decide
  obtain ⟨names, -, -, -, -, hshown, -⟩ := inspection_is_canonical hsame (0, []) (0, [])
  obtain ⟨hmain, honly⟩ := hshown _ (.inl (.refl _))
  obtain ⟨hcopy, -⟩ := hshown _ (.inr (.refl _))
  have hnames : ["Alone", "Twin", "Twin"] = names := honly _ (by decide) (by decide)
  rw [hnames]
  exact ⟨hsame, hmain, hcopy⟩

end Family

end Railroad
