/-!
# The byte order of text

Model of the order that `BTreeMap` keeps its keys in and `sort_unstable` puts names in. Keys and
names are listed in ascending order of their UTF-8 bytes, compared one after the other with a proper
beginning first.

* `Text.Before s t`: `s` comes strictly before `t`. It is a strict total order (`not_before_self`,
  `Before.trans`, `before_trichotomy`), because text is determined by its bytes (`bytes_inj`).
* `Text.sort`: a list in this order, repetitions kept. A list can be put into this order in one way
  only (`eq_of_perm_of_inOrder`).
-/

namespace Railroad.Text

/-- The UTF-8 bytes of a text. -/
def bytes (s : String) : List UInt8 :=
  s.toByteArray.data.toList

theorem bytes_inj {s t : String} : bytes s = bytes t ↔ s = t := by
  constructor
  · intro h
    exact String.toByteArray_inj.1 (ByteArray.ext (Array.toList_inj.1 h))
  · rintro rfl
    rfl

/-- `s` comes strictly before `t` in byte order. -/
def Before (s t : String) : Prop :=
  bytes s < bytes t

instance (s t : String) : Decidable (Before s t) :=
  inferInstanceAs (Decidable (bytes s < bytes t))

theorem not_before_self (s : String) : ¬ Before s s :=
  List.lt_irrefl (bytes s)

theorem Before.trans {s t u : String} (h : Before s t) (k : Before t u) : Before s u := by
  unfold Before at *
  exact List.lt_trans h k

theorem Before.ne {s t : String} (h : Before s t) : s ≠ t := by
  rintro rfl
  exact not_before_self s h

theorem Before.asymm {s t : String} (h : Before s t) : ¬ Before t s :=
  fun k => not_before_self s (h.trans k)

/-- Of two different texts one comes before the other. -/
theorem before_trichotomy (s t : String) : Before s t ∨ s = t ∨ Before t s := by
  by_cases h : Before s t
  · exact .inl h
  · by_cases k : Before t s
    · exact .inr (.inr k)
    · unfold Before at h k
      exact .inr (.inl (bytes_inj.1 (List.le_antisymm k h)))

/-- The texts stand in byte order, equal ones side by side. -/
def InOrder (texts : List String) : Prop :=
  texts.Pairwise fun s t => ¬ Before t s

instance (texts : List String) : Decidable (InOrder texts) :=
  inferInstanceAs (Decidable (texts.Pairwise fun s t => ¬ Before t s))

/-- A list of texts in byte order. Equal texts stay side by side. -/
def sort (texts : List String) : List String :=
  texts.mergeSort fun s t => decide (¬ Before t s)

theorem sort_perm (texts : List String) : (sort texts).Perm texts :=
  List.mergeSort_perm texts _

theorem sort_inOrder (texts : List String) : InOrder (sort texts) := by
  refine (List.pairwise_mergeSort (fun s t u hst htu => ?_) (fun s t => ?_) texts).imp fun hst => ?_
  · simp only [decide_eq_true_eq] at hst htu ⊢
    intro hus
    rcases before_trichotomy s t with h | rfl | h
    · exact htu (hus.trans h)
    · exact htu hus
    · exact hst h
  · simp only [Bool.or_eq_true, decide_eq_true_eq]
    by_cases h : Before t s
    · exact .inr h.asymm
    · exact .inl h
  · simpa using hst

/-- Texts can be put into byte order in one way only. -/
theorem eq_of_perm_of_inOrder {xs ys : List String} (h : xs.Perm ys) (hx : InOrder xs)
    (hy : InOrder ys) : xs = ys := by
  refine List.Perm.eq_of_pairwise (fun s t _ _ hst hts => ?_) hx hy h
  rcases before_trichotomy s t with h | h | h
  · exact absurd h hts
  · exact h
  · exact absurd h hst

/-- Lists of the same texts, in whatever order, are sorted into one list. -/
theorem sort_eq_of_perm {xs ys : List String} (h : xs.Perm ys) : sort xs = sort ys :=
  eq_of_perm_of_inOrder ((sort_perm xs).trans (h.trans (sort_perm ys).symm)) (sort_inOrder xs)
    (sort_inOrder ys)

end Railroad.Text
