import Mathlib.Data.Finset.Card
import Railroad.Registry.Basic

/-!
# What a registry contains

A registry is determined, for all that can be observed of it, by the set of its types.

* `Registry.types`: the set of registered types; `types_known` says what a registration does to it,
  and `answersAs_types` reads the answers to all questions off it.
* `Sound`: what a registry has noted for a type is what there is to know of that type.
* `Sound.dispatchesAs`: a sound registry draws the values of its types, and no others.
* `Alike`: nothing tells two registries apart; `Sound.alike_of_types_eq`: it is enough that their
  types are the same.
-/

namespace Railroad

/-- How the values of a type that can be drawn are drawn. -/
def TypeSystem.own {σ : Type} (S : TypeSystem σ) (t : S.Ty) (h : S.Drawable t) :
    S.Value t → Drawing σ :=
  (S.drawing t).get h

namespace Registry

variable {σ : Type} {S : TypeSystem σ}

/-! ## Entries -/

theorem mem_of_find? {t : S.Ty} {entries : List (S.Ty × Entry S)} {entry : Entry S}
    (h : find? t entries = some entry) : (t, entry) ∈ entries := by
  induction entries with
  | nil => cases h
  | cons head rest ih =>
    unfold find? at h
    split at h
    · next heq =>
      cases h
      exact heq ▸ List.mem_cons_self
    · exact List.mem_cons_of_mem _ (ih h)

theorem isSome_find?_iff {t : S.Ty} {entries : List (S.Ty × Entry S)} :
    (find? t entries).isSome ↔ t ∈ entries.map Prod.fst := by
  induction entries with
  | nil => simp [find?]
  | cons head rest ih =>
    unfold find?
    rw [List.map_cons, List.mem_cons]
    split
    · next heq => simp [heq]
    · next hne => simpa [hne] using ih

/-- A registration puts a new type at the end and leaves a known type in its place. -/
theorem map_fst_put (t : S.Ty) (entry : Entry S) (entries : List (S.Ty × Entry S)) :
    (put t entry entries).map Prod.fst =
      if t ∈ entries.map Prod.fst then entries.map Prod.fst
      else entries.map Prod.fst ++ [t] := by
  induction entries with
  | nil => rfl
  | cons head rest ih =>
    unfold put
    split
    · next heq => simp [heq]
    · next hne =>
      rw [List.map_cons, ih]
      simp only [List.map_cons, List.mem_cons, hne, false_or]
      split <;> rfl

/-! ## The set of types -/

/-- The registered types. -/
def types (r : Registry S) : Finset S.Ty :=
  (r.entries.map Prod.fst).toFinset

theorem nodup_keys (r : Registry S) : (r.entries.map Prod.fst).Nodup :=
  List.pairwise_map.mpr r.distinct

@[simp] theorem types_empty : (empty : Registry S).types = ∅ := rfl

@[simp] theorem types_known (r : Registry S) (t : S.Ty) (h : S.Drawable t) :
    (r.known t h).types = insert t r.types := by
  have hkeys : (r.known t h).entries.map Prod.fst = _ := map_fst_put t (.of S t h) r.entries
  ext u
  rw [types, hkeys, types, Finset.mem_insert]
  split
  · next hmem =>
    rw [List.mem_toFinset]
    exact ⟨.inr, fun hu => hu.elim (fun heq => heq ▸ hmem) id⟩
  · rw [List.mem_toFinset, List.mem_toFinset, List.mem_append, List.mem_singleton, or_comm]

/-- The registry answers every question as the set of types does. -/
structure AnswersAs (r : Registry S) (types : Finset S.Ty) : Prop where
  contains_iff : ∀ t, r.contains t = true ↔ t ∈ types
  supports_iff : ∀ v, r.supports v = true ↔ v.1 ∈ types
  size_eq : r.size = types.card
  isEmpty_iff : r.isEmpty = true ↔ types = ∅

theorem contains_iff (r : Registry S) (t : S.Ty) : r.contains t = true ↔ t ∈ r.types := by
  rw [types, List.mem_toFinset]
  exact isSome_find?_iff

/-- **A registry answers as the set of its types.** -/
theorem answersAs_types (r : Registry S) : r.AnswersAs r.types where
  contains_iff := r.contains_iff
  supports_iff v := r.contains_iff v.1
  size_eq := by
    rw [types, List.toFinset_card_of_nodup r.nodup_keys, List.length_map]
    rfl
  isEmpty_iff := by
    rw [types, List.toFinset_eq_empty_iff, List.map_eq_nil_iff]
    exact List.isEmpty_iff

/-! ## Sound registries -/

/-- What is noted for each type is what there is to know of that very type. -/
def Sound (r : Registry S) : Prop :=
  ∀ e ∈ r.entries, ∃ h : S.Drawable e.1, e.2 = .of S e.1 h

theorem sound_empty : Sound (empty : Registry S) :=
  fun _ he => absurd he List.not_mem_nil

theorem Sound.known {r : Registry S} (hr : Sound r) (t : S.Ty) (h : S.Drawable t) :
    Sound (r.known t h) := by
  intro e he
  rcases mem_put he with rfl | he
  · exact ⟨h, rfl⟩
  · exact hr e he

theorem Sound.eq_of_find? {r : Registry S} (hr : Sound r) {t : S.Ty} {entry : Entry S}
    (hfind : find? t r.entries = some entry) : ∃ h : S.Drawable t, entry = .of S t h :=
  hr (t, entry) (mem_of_find? hfind)

theorem Sound.find?_of_mem {r : Registry S} (hr : Sound r) {t : S.Ty} (ht : t ∈ r.types) :
    ∃ h : S.Drawable t, find? t r.entries = some (.of S t h) := by
  rw [← contains_iff, contains, Option.isSome_iff_exists] at ht
  obtain ⟨entry, hfind⟩ := ht
  obtain ⟨h, rfl⟩ := hr.eq_of_find? hfind
  exact ⟨h, hfind⟩

theorem find?_of_notMem {r : Registry S} {t : S.Ty} (ht : t ∉ r.types) :
    find? t r.entries = none := by
  rw [← contains_iff, contains, Bool.not_eq_true, Option.isSome_eq_false_iff] at ht
  exact Option.isNone_iff_eq_none.mp ht

/-- A value of a type is described by what there is to know of that type. -/
theorem describe_of (t : S.Ty) (h : S.Drawable t) (value : S.Value t) (o : Options) :
    (Entry.of S t h).describe ⟨t, value⟩ o = some (S.own t h value o) := by
  show ((downcast t ⟨t, value⟩).map fun value => (S.drawing t).get h value o) = _
  rw [downcast, dif_pos rfl]
  rfl

/-! ## Dispatch -/

section Dispatch

variable [Recorder σ] {r : Registry S} {t : S.Ty}

/-- The drawing of a value by its own type, after a report. -/
def delegated (t : S.Ty) (h : S.Drawable t) (value : S.Value t) (o : Options) :
    StateM σ (Except Refusal Diagram) := do
  report (.delegating (S.name t))
  return .ok (← S.own t h value o)

theorem delegate_of (h : S.Drawable t) (value : S.Value t) (o : Options) :
    delegate (.of S t h) ⟨t, value⟩ o = delegated t h value o := by
  unfold delegate delegated
  rw [describe_of]
  rfl

/-- **A value of a registered type is drawn by its own type**, whether or not its type is hidden. -/
theorem Sound.draw_of_mem (hr : Sound r) (ht : t ∈ r.types) :
    ∃ h : S.Drawable t, ∀ value o, r.draw ⟨t, value⟩ o = delegated t h value o ∧
      r.drawAs value o = delegated t h value o := by
  obtain ⟨h, hfind⟩ := hr.find?_of_mem ht
  refine ⟨h, fun value o => ⟨?_, ?_⟩⟩
  · rw [draw, hfind]
    exact delegate_of h value o
  · rw [drawAs, hfind]
    exact delegate_of h value o

/-- A value of hidden type is refused with the identity of its type. -/
theorem draw_of_notMem (ht : t ∉ r.types) (value : S.Value t) (o : Options) :
    r.draw ⟨t, value⟩ o = do
      report (.rejectedIdentity (S.identity t))
      return .error (.notDrawable ("unregistered type id " ++ S.identity t
        ++ " (call Registry::create_railroad_of to see the type name)")) := by
  rw [draw, find?_of_notMem ht]
  rfl

/-- A value of a given type is refused with the name of its type. -/
theorem drawAs_of_notMem (ht : t ∉ r.types) (value : S.Value t) (o : Options) :
    r.drawAs value o = do
      report (.rejectedType (S.name t))
      return .error (.notDrawable (S.name t)) := by
  rw [drawAs, find?_of_notMem ht]

/-- Values of the given types are drawn by their own types, and all other values are refused,
whether or not the type of a value is hidden. -/
structure DispatchesAs (r : Registry S) (types : Finset S.Ty) : Prop where
  /-- A value of one of the types is drawn once, right after one report. -/
  drawn : ∀ t ∈ types, ∃ h : S.Drawable t, ∀ value o s,
    let own := (S.own t h value o).run (Recorder.record (.delegating (S.name t)) s)
    (r.draw ⟨t, value⟩ o).run s = (.ok own.1, own.2) ∧
      (r.drawAs value o).run s = (.ok own.1, own.2)
  /-- A value of another type is refused after one report, and is not drawn. The refusal has the
  name of the type, or what is said in its place where the type is hidden. -/
  refused : ∀ t ∉ types, ∀ value o s,
    (r.draw ⟨t, value⟩ o).run s = (.error (.notDrawable ("unregistered type id " ++ S.identity t
        ++ " (call Registry::create_railroad_of to see the type name)")),
      Recorder.record (.rejectedIdentity (S.identity t)) s) ∧
    (r.drawAs value o).run s = (.error (.notDrawable (S.name t)),
      Recorder.record (.rejectedType (S.name t)) s)
  /-- What is noted for the type of a value describes that value. -/
  described : ∀ (v : S.Erased) entry o, find? v.1 r.entries = some entry →
    (entry.describe v o).isSome

/-- **A sound registry dispatches as the set of its types.** -/
theorem Sound.dispatchesAs (hr : Sound r) : r.DispatchesAs r.types where
  drawn t ht := by
    obtain ⟨h, hd⟩ := hr.draw_of_mem ht
    refine ⟨h, fun value o s => ?_⟩
    rw [(hd value o).1, (hd value o).2]
    exact ⟨rfl, rfl⟩
  refused t ht value o s := by
    rw [draw_of_notMem ht, drawAs_of_notMem ht]
    exact ⟨rfl, rfl⟩
  described v entry o hfind := by
    obtain ⟨h, rfl⟩ := hr.eq_of_find? hfind
    exact Option.isSome_of_eq_some (describe_of v.1 h v.2 o)

end Dispatch

/-! ## Registries that nothing tells apart -/

/-- The types of a sound registry under their names, in any order. -/
theorem Sound.typeNames_eq {r : Registry S} (hr : Sound r) :
    r.typeNames = (r.entries.map Prod.fst).map S.name := by
  rw [typeNames, List.map_map]
  refine List.map_congr_left fun e he => ?_
  obtain ⟨h, heq⟩ := hr e he
  rw [heq]
  rfl

/-- No question and no drawing tells the registries apart. -/
structure Alike [Recorder σ] (r r' : Registry S) : Prop where
  contains : ∀ t, r.contains t = r'.contains t
  supports : ∀ v, r.supports v = r'.supports v
  size : r.size = r'.size
  isEmpty : r.isEmpty = r'.isEmpty
  outline : r.outline = r'.outline
  draw : ∀ v o, r.draw v o = r'.draw v o
  drawAs : ∀ (t : S.Ty) (value : S.Value t) o, r.drawAs value o = r'.drawAs value o

/-- **Registries with the same types are alike.** -/
theorem Sound.alike_of_types_eq [Recorder σ] {r r' : Registry S} (hr : Sound r) (hr' : Sound r')
    (h : r.types = r'.types) : Alike r r' := by
  have ha : r.AnswersAs r'.types := h ▸ r.answersAs_types
  have ha' : r'.AnswersAs r'.types := r'.answersAs_types
  have hperm : (r.entries.map Prod.fst).Perm (r'.entries.map Prod.fst) :=
    List.perm_of_nodup_nodup_toFinset_eq r.nodup_keys r'.nodup_keys h
  have hdraw (t : S.Ty) (value : S.Value t) (o : Options) :
      r.draw ⟨t, value⟩ o = r'.draw ⟨t, value⟩ o ∧ r.drawAs value o = r'.drawAs value o := by
    by_cases ht : t ∈ r.types
    · obtain ⟨_, hd⟩ := hr.draw_of_mem ht
      obtain ⟨_, hd'⟩ := hr'.draw_of_mem (h ▸ ht)
      rw [(hd value o).1, (hd value o).2, (hd' value o).1, (hd' value o).2]
      exact ⟨rfl, rfl⟩
    · have ht' : t ∉ r'.types := h ▸ ht
      rw [draw_of_notMem ht, drawAs_of_notMem ht, draw_of_notMem ht', drawAs_of_notMem ht']
      exact ⟨rfl, rfl⟩
  exact {
    contains := fun t => Bool.eq_iff_iff.mpr ((ha.contains_iff t).trans (ha'.contains_iff t).symm)
    supports := fun v => Bool.eq_iff_iff.mpr ((ha.supports_iff v).trans (ha'.supports_iff v).symm)
    size := ha.size_eq.trans ha'.size_eq.symm
    isEmpty := Bool.eq_iff_iff.mpr (ha.isEmpty_iff.trans ha'.isEmpty_iff.symm)
    outline := by
      rw [Registry.outline, Registry.outline, hr.typeNames_eq, hr'.typeNames_eq,
        Text.sort_eq_of_perm (hperm.map S.name)]
    draw := fun v o => (hdraw v.1 v.2 o).1
    drawAs := fun t value o => (hdraw t value o).2 }

end Registry

end Railroad
