/-!
# Checks that stop at the first fault

A chain of checks that reports the first fault it meets comes to a *verdict*: `verdict fault a` is
the fault if there is one and `a` otherwise. Chains of checks whose faults do not depend on what
earlier checks have found are verdicts again:

* `verdict_bind`: one check after another, `mapM_eq_verdict` and `forM_eq_verdict`: the same check
  on one element of a list after another. The fault is that of the first element that has one.
* `exists_verdict_eq_ok_iff`, `verdict_eq_error_iff`: how a verdict comes out.
-/

namespace Railroad

variable {ε ε' α β : Type}

/-- `a`, unless there is a fault. -/
def verdict : Option ε → α → Except ε α
  | some e, _ => .error e
  | none, a => .ok a

theorem verdict_eq_ok_iff {fault : Option ε} {a b : α} :
    verdict fault a = .ok b ↔ fault = none ∧ a = b := by
  cases fault <;> simp [verdict]

theorem exists_verdict_eq_ok_iff {fault : Option ε} {a : α} :
    (∃ b, verdict fault a = .ok b) ↔ fault = none := by
  simp [verdict_eq_ok_iff]

theorem verdict_eq_error_iff {fault : Option ε} {a : α} {e : ε} :
    verdict fault a = .error e ↔ fault = some e := by
  cases fault <;> simp [verdict]

theorem mapError_verdict (f : ε → ε') (fault : Option ε) (a : α) :
    (verdict fault a).mapError f = verdict (fault.map f) a := by
  cases fault <;> rfl

theorem verdict_congr {fault : Option ε} {a b : α} (h : fault = none → a = b) :
    verdict fault a = verdict fault b := by
  cases fault with
  | some e => rfl
  | none => exact congrArg _ (h rfl)

/-- One check after another: the fault of the first counts, then that of the second. -/
theorem verdict_bind {first second : Option ε} {a : α} {b : β} {f : α → Except ε β}
    (h : f a = verdict second b) : verdict first a >>= f = verdict (first.or second) b := by
  cases first with
  | some e => rfl
  | none =>
    show f a = _
    rw [h, Option.none_or]

/-- The results of a check that cannot fail any more. -/
theorem verdict_map (fault : Option ε) (a : α) (f : α → β) :
    (verdict fault a >>= fun a => pure (f a)) = verdict fault (f a) := by
  cases fault <;> rfl

/-- **The same check on every element.** The first element with a fault decides. -/
theorem mapM_eq_verdict {f : α → Except ε β} {fault : α → Option ε} {g : α → β}
    (h : ∀ a, f a = verdict (fault a) (g a)) (as : List α) :
    as.mapM f = verdict (as.findSome? fault) (as.map g) := by
  induction as with
  | nil => rfl
  | cons a rest ih =>
    rw [List.mapM_cons, h, List.findSome?_cons, List.map_cons]
    cases fault a with
    | some e => rfl
    | none =>
      show (rest.mapM f >>= fun bs => pure (g a :: bs)) = _
      rw [ih, verdict_map]

/-- The same check on every element, when only its fault is of interest. -/
theorem forM_eq_verdict {f : α → Except ε Unit} {fault : α → Option ε}
    (h : ∀ a, f a = verdict (fault a) ()) (as : List α) :
    as.forM f = verdict (as.findSome? fault) () := by
  induction as with
  | nil => rfl
  | cons a rest ih =>
    show (f a >>= fun _ => rest.forM f) = _
    rw [h, List.findSome?_cons]
    cases fault a with
    | some e => rfl
    | none =>
      show rest.forM f = _
      rw [ih]

/-- A check that carries a state along, when the fault does not depend on the state. -/
theorem foldlM_eq_verdict {f : β → α → Except ε β} {fault : α → Option ε} {g : β → α → β}
    (h : ∀ b a, f b a = verdict (fault a) (g b a)) (as : List α) (b : β) :
    as.foldlM f b = verdict (as.findSome? fault) (as.foldl g b) := by
  induction as generalizing b with
  | nil => rfl
  | cons a rest ih =>
    rw [List.foldlM_cons, h, List.findSome?_cons, List.foldl_cons]
    cases fault a with
    | some e => rfl
    | none =>
      show rest.foldlM f (g b a) = _
      rw [ih]

/-- A check of all elements of several lists is one check after another. -/
theorem foldlM_flatMap_eq (f : β → α → Except ε β) {γ : Type} (g : γ → List α) (cs : List γ)
    (b : β) : (cs.flatMap g).foldlM f b = cs.foldlM (fun b c => (g c).foldlM f b) b := by
  induction cs generalizing b with
  | nil => rfl
  | cons c rest ih =>
    rw [List.flatMap_cons, List.foldlM_append, List.foldlM_cons]
    exact congrArg _ (funext ih)

/-- The fault that a check reports. -/
def fault? : Except ε α → Option ε
  | .error e => some e
  | .ok _ => none

theorem fault?_eq_some_iff {x : Except ε α} {e : ε} : fault? x = some e ↔ x = .error e := by
  cases x <;> simp [fault?]

/-- A check without a result is the verdict of the fault that it reports. -/
theorem eq_verdict_fault? (x : Except ε Unit) : x = verdict (fault? x) () := by
  cases x <;> rfl

theorem findSome?_flatMap (f : β → Option ε) (g : α → List β) (as : List α) :
    (as.flatMap g).findSome? f = as.findSome? fun a => (g a).findSome? f := by
  induction as with
  | nil => rfl
  | cons a rest ih =>
    rw [List.flatMap_cons, List.findSome?_append, ih, List.findSome?_cons]
    cases (g a).findSome? f <;> rfl

end Railroad
