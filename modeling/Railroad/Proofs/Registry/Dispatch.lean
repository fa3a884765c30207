import Railroad.Proofs.Registry.Families

/-!
# Dispatch

Drawing a value through a registry, whether its type is hidden or given, is drawing it by its own
type if that type is registered, and a refusal otherwise.

* `TypeSystem.Heeds`: drawings heed only a part of the state which reports leave alone, the state of
  the calls. `heeds_logged`: a log beside the state is no part of it.
* `dispatch_is_exact`: dispatch in any family of registries.
-/

namespace Railroad

variable {σ κ : Type} {S : TypeSystem σ}

/-- Drawings heed only what `calls` shows of the state, and reports leave that alone. -/
structure TypeSystem.Heeds [Registry.Recorder σ] (S : TypeSystem σ) (calls : σ → κ) : Prop where
  record_eq : ∀ event s, calls (Registry.Recorder.record event s) = calls s
  own_eq : ∀ t h value o s s', calls s = calls s' →
    ((S.own t h value o).run s).1 = ((S.own t h value o).run s').1 ∧
      calls ((S.own t h value o).run s).2 = calls ((S.own t h value o).run s').2

theorem drawable_of_logged {S : TypeSystem κ} {t : S.Ty} (h : S.logged.Drawable t) :
    S.Drawable t :=
  Option.isSome_map.symm.trans h

theorem own_logged {S : TypeSystem κ} {t : S.logged.Ty} (h : S.logged.Drawable t) :
    S.logged.own t h = fun value => Drawing.logged (S.own t (drawable_of_logged h) value) :=
  Option.get_map

/-- A log beside the state of the calls is heeded by no drawing. -/
theorem heeds_logged (S : TypeSystem κ) : S.logged.Heeds Prod.fst where
  record_eq _ _ := rfl
  own_eq t h value o s s' hs := by
    rw [own_logged]
    show ((S.own t _ value o).run s.1).1 = ((S.own t _ value o).run s'.1).1 ∧
      ((S.own t _ value o).run s.1).2 = ((S.own t _ value o).run s'.1).2
    rw [hs]
    exact ⟨rfl, rfl⟩

namespace Family

open Registry (Recorder)

variable [Recorder σ]

/-- **Dispatch is exact.** After any steps on any number of registries, values of the types
registered in a registry are drawn by their own types: once, right after the report, and with the
same result whether or not the type is hidden. All other values are refused and not drawn. What is
noted for a registered type always describes its values, and no dispatch changes a registry. As far
as the state of the calls goes, which reports leave alone, a dispatch is the value's own drawing. -/
theorem dispatch_is_exact (steps : List (String × Step S)) (start : σ) (name : String) :
    let family := after steps start
    let r := get name family
    let types := registered steps name
    r.AnswersAs types ∧ r.DispatchesAs types ∧
    (∀ t (value : S.Value t) o s other,
      get other ((run name (.draw ⟨t, value⟩ o) family).run s).1.2 = get other family ∧
      get other ((run name (.drawAs value o) family).run s).1.2 = get other family) ∧
    ∀ {κ : Type} (calls : σ → κ), S.Heeds calls → ∀ t ∈ types, ∀ (h : S.Drawable t) value o s,
      let own := (S.own t h value o).run s
      ((r.draw ⟨t, value⟩ o).run s).1 = .ok own.1 ∧
        calls ((r.draw ⟨t, value⟩ o).run s).2 = calls own.2 ∧
        ((r.drawAs value o).run s).1 = .ok own.1 ∧
        calls ((r.drawAs value o).run s).2 = calls own.2 := by
  intro family r types
  have htypes : r.types = types := types_after steps start name
  have hdispatch : r.DispatchesAs types := htypes ▸ (sound_after steps start name).dispatchesAs
  refine ⟨htypes ▸ r.answersAs_types, hdispatch, fun t value o s other => ?_, ?_⟩
  · exact ⟨congrFun (view_run name (.draw ⟨t, value⟩ o) family s) other,
      congrFun (view_run name (.drawAs value o) family s) other⟩
  · intro κ calls hcalls t ht h value o s
    obtain ⟨_, hdrawn⟩ := hdispatch.drawn t ht
    have hown := hcalls.own_eq t h value o _ s (hcalls.record_eq (.delegating (S.name t)) s)
    rw [(hdrawn value o s).1, (hdrawn value o s).2]
    exact ⟨congrArg _ hown.1, hown.2, congrArg _ hown.1, hown.2⟩

/-- A registration, a copy, and a reset of the source of the copy. -/
def copiedSteps : List (String × Step countingTypes) :=
  [("main", .register countingType drawable_countingType), ("main", .copyTo "copy"),
    ("main", .reset)]

theorem dispatch_is_exact_copiedSteps :
    let copy := get "copy" (after copiedSteps (0, []))
    let main := get "main" (after copiedSteps (0, []))
    countingType ∈ registered copiedSteps "copy" ∧
    countingType ∉ registered copiedSteps "main" ∧
    countingTypes.Heeds Prod.fst ∧
    (copy.draw ⟨countingType, countingValue⟩ .empty).run (0, []) =
      (.ok (.token (.description "call 1")), 1, [.delegating "Counting"]) ∧
    ((copy.drawAs countingValue .empty).run (1, [])).1 = .ok (.token (.description "call 2")) ∧
    (main.draw ⟨countingType, countingValue⟩ .empty).run (0, []) =
      (.error (.notDrawable ("unregistered type id TypeId(..) "
        ++ "(call Registry::create_railroad_of to see the type name)")), 0,
        [.rejectedIdentity "TypeId(..)"]) ∧
    (main.drawAs countingValue .empty).run (0, []) =
      (.error (.notDrawable "Counting"), 0, [.rejectedType "Counting"]) ∧
    ∃ entry, Registry.find? countingType copy.entries = some entry ∧
      (entry.describe ⟨countingType, countingValue⟩ .empty).isSome := by
  have hcopy : countingType ∈ registered copiedSteps "copy" := by decide
  have hmain : countingType ∉ registered copiedSteps "main" := by decide
  obtain ⟨-, hdispatch, -, hcalls⟩ := dispatch_is_exact copiedSteps (0, []) "copy"
  obtain ⟨-, hrefuse, -⟩ := dispatch_is_exact copiedSteps (0, []) "main"
  obtain ⟨h, hown⟩ := hdispatch.drawn countingType hcopy
  obtain ⟨-, -, hsecond, -⟩ :=
    hcalls Prod.fst (heeds_logged _) countingType hcopy h countingValue .empty (1, [])
  exact ⟨hcopy, hmain, heeds_logged _, (hown countingValue .empty (0, [])).1, hsecond,
    (hrefuse.refused countingType hmain countingValue .empty (0, [])).1,
    (hrefuse.refused countingType hmain countingValue .empty (0, [])).2,
    _, rfl, hdispatch.described ⟨countingType, countingValue⟩ _ .empty rfl⟩

end Family

end Railroad
