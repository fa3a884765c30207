import Railroad.Deriving.Shape

/-!
# The grammar of the attribute

How the attribute that governs drawings is called, what its items are and which keys there are,
said once and without the readers. Each part comes with the lemma that the reader in `parse_shape`
and `is_skipped`, or the parser that these two call, agrees.

* `isRailroad`, `tokenKeys`: the name of the attribute, and the keys of tokens (`token_kind`).
* `Item.Listed`: the items of a list. `listed_iff`: they are those that are read.
* `Item.Begins`: the path that an item begins with, `Item.PathFault`: what is wrong where there is
  none. `begins_or_pathFault`: there is one or the other. `Begins.path_eq` and
  `PathFault.path_eq`: what is read is the path, or its fault.
-/

namespace Railroad.Deriving

/-! ## Names -/

/-- The attribute is called `railroad`. -/
def isRailroad (a : Attribute) : Bool :=
  a.name = some ⟨false, "railroad"⟩

theorem governs_eq_isRailroad : governs = isRailroad := rfl

/-- An attribute that is called `railroad`. -/
def railroadAttribute (argument : Attribute.Argument) : Attribute :=
  ⟨.start, some ⟨false, "railroad"⟩, .start, argument⟩

/-- An attribute that is called `railroad` and has one word for an item. -/
def railroadWord (word : String) : Attribute :=
  railroadAttribute (.list [.ident ⟨false, word⟩ .start] .start)

/-- The keys of tokens, each with the kind of its token. -/
def tokenKeys : List (String × TokenKind) :=
  [("production", .production), ("text", .text), ("anycase", .anyCase),
    ("description", .description)]

theorem tokenKind?_eq_some_iff {key : String} {kind : TokenKind} :
    Shape.tokenKind? key = some kind ↔ (key, kind) ∈ tokenKeys := by
  unfold Shape.tokenKind? tokenKeys
  split <;> simp_all [eq_comm]

theorem lookup_tokenKeys_iff {key : String} {kind : TokenKind} :
    tokenKeys.lookup key = some kind ↔ (key, kind) ∈ tokenKeys := by
  have hlookup : tokenKeys.lookup key = Shape.tokenKind? key := by
    unfold tokenKeys Shape.tokenKind?
    split
    case h_5 hp ht ha hd =>
      simp only [List.lookup_cons, beq_false_of_ne hp, beq_false_of_ne ht, beq_false_of_ne ha,
        beq_false_of_ne hd, List.lookup_nil]
    all_goals rfl
  rw [hlookup, tokenKind?_eq_some_iff]

theorem tokenKind?_eq_none_iff {key : String} :
    Shape.tokenKind? key = none ↔ ∀ kind, (key, kind) ∉ tokenKeys := by
  simp only [Option.eq_none_iff_forall_ne_some, ne_eq, tokenKind?_eq_some_iff]

theorem ne_of_mem_tokenKeys {key : String} {kind : TokenKind} (h : (key, kind) ∈ tokenKeys) :
    key ≠ "" ∧ key ≠ "choice" := by
  constructor <;> rintro rfl <;> simp [tokenKeys] at h

namespace Item

/-! ## Items between commas -/

/-- There is no comma among the trees. -/
def NoComma (trees : List TokenTree) : Prop :=
  ∀ t ∈ trees, t.isMark ',' = false

/-- The trees are items with a comma after each, which may be missing after the last one. The
closing delimiter stands at `closing`. -/
inductive Listed (closing : Position) : List TokenTree → List Item → Prop
  | done : Listed closing [] []
  | last {trees} (hne : trees ≠ []) (h : NoComma trees) :
      Listed closing trees [⟨trees, closing, true⟩]
  | comma {trees joint place rest list} (h : NoComma trees) (hr : Listed closing rest list) :
      Listed closing (trees ++ .mark ',' joint place :: rest) (⟨trees, place, false⟩ :: list)

section Lists

variable {closing place : Position} {trees rest : List TokenTree} {list : List Item}

theorem split_ne_nil (closing : Position) (trees : List TokenTree) : split closing trees ≠ [] := by
  unfold split
  split
  · exact List.cons_ne_nil _ _
  · exact List.cons_ne_nil _ _
  · split <;> exact List.cons_ne_nil _ _

theorem split_cons {t : TokenTree} (ht : t.isMark ',' = false) {item : Item}
    (h : split closing rest = item :: list) :
    split closing (t :: rest) = { item with trees := t :: item.trees } :: list := by
  rw [split, h]
  rintro joint place rfl
  cases ht

theorem split_of_noComma (h : NoComma trees) :
    split closing trees = [⟨trees, closing, true⟩] := by
  induction trees with
  | nil => rfl
  | cons t rest ih =>
    obtain ⟨ht, hr⟩ := List.forall_mem_cons.mp h
    exact split_cons ht (ih hr)

theorem split_append_comma (h : NoComma trees) (joint : Bool) :
    split closing (trees ++ .mark ',' joint place :: rest) =
      ⟨trees, place, false⟩ :: split closing rest := by
  induction trees with
  | nil => rfl
  | cons t trees ih =>
    obtain ⟨ht, hr⟩ := List.forall_mem_cons.mp h
    exact split_cons ht (ih hr)

theorem dropEmptyLast_cons (item : Item) (h : list ≠ []) :
    dropEmptyLast (item :: list) = item :: dropEmptyLast list := by
  rw [dropEmptyLast]
  intro _ _ _ hnil
  exact h hnil

theorem Listed.split_eq (h : Listed closing trees list) :
    dropEmptyLast (split closing trees) = list := by
  induction h with
  | done => rfl
  | @last trees hne h =>
    rw [split_of_noComma h]
    cases trees with
    | nil => exact absurd rfl hne
    | cons t rest => rfl
  | comma h _ ih => rw [split_append_comma h, dropEmptyLast_cons _ (split_ne_nil _ _), ih]

/-- One more tree in front of the first item. -/
theorem Listed.cons {t : TokenTree} (ht : t.isMark ',' = false) (h : Listed closing rest list) :
    ∃ list', Listed closing (t :: rest) list' := by
  have hcons {trees : List TokenTree} (h : NoComma trees) : NoComma (t :: trees) :=
    List.forall_mem_cons.mpr ⟨ht, h⟩
  cases h with
  | done => exact ⟨_, .last (List.cons_ne_nil t []) (hcons nofun)⟩
  | last _ h => exact ⟨_, .last (List.cons_ne_nil t rest) (hcons h)⟩
  | comma h hr => exact ⟨_, .comma (hcons h) hr⟩

theorem exists_listed (closing : Position) (trees : List TokenTree) :
    ∃ list, Listed closing trees list := by
  induction trees with
  | nil => exact ⟨[], .done⟩
  | cons t rest ih =>
    obtain ⟨list, h⟩ := ih
    cases ht : t.isMark ',' with
    | false => exact h.cons ht
    | true =>
      cases t with
      | mark c joint place =>
        obtain rfl : c = ',' := of_decide_eq_true ht
        have hnone : NoComma [] := nofun
        exact ⟨_, .comma hnone h⟩
      | _ => cases ht

/-- **The items that are read** are those between the commas. -/
theorem listed_iff : Listed closing trees list ↔ dropEmptyLast (split closing trees) = list := by
  refine ⟨Listed.split_eq, ?_⟩
  rintro rfl
  obtain ⟨list, h⟩ := exists_listed closing trees
  rwa [h.split_eq]

end Lists

/-! ## Paths -/

/-- The trees are two colons, which follow each other at once, and then `rest`. -/
def Colons (trees rest : List TokenTree) : Prop :=
  ∃ p joint q, trees = .mark ':' true p :: .mark ':' joint q :: rest

/-- The trees begin with a word. -/
def Worded (trees : List TokenTree) : Prop :=
  ∃ i p rest, trees = .ident i p :: rest

/-- The trees begin with words, each after two colons, and `left` follows; `longer` tells whether
there is any word. -/
inductive Tail : List TokenTree → Bool → List TokenTree → Prop
  | done {trees} (h : ∀ rest, ¬ Colons trees rest) : Tail trees false trees
  | word {trees i p rest longer left} (h : Colons trees (.ident i p :: rest))
      (ht : Tail rest longer left) : Tail trees true left

/-- The trees begin with words, each after two colons, and then two colons without a word, after
which `left` follows. -/
inductive CutTail : List TokenTree → List TokenTree → Prop
  | cut {trees left} (h : Colons trees left) (hw : ¬ Worded left) : CutTail trees left
  | word {trees i p rest left} (h : Colons trees (.ident i p :: rest)) (ht : CutTail rest left) :
      CutTail trees left

/-- The trees are those after two colons that may stand in front; `led` tells whether they do. -/
inductive Led : List TokenTree → Bool → List TokenTree → Prop
  | colons {trees rest} (h : Colons trees rest) : Led trees true rest
  | plain {trees} (h : ∀ rest, ¬ Colons trees rest) : Led trees false trees

/-- The trees begin with a literal, which may be a number after a minus sign. -/
inductive LiteralFirst : List TokenTree → Prop
  | literal (l : Literal) (p : Position) (rest : List TokenTree) :
      LiteralFirst (.literal l p :: rest)
  | negative {l : Literal} (hl : l.form = .number) (joint : Bool) (p q : Position)
      (rest : List TokenTree) : LiteralFirst (.mark '-' joint p :: .literal l q :: rest)

/-- The item begins with a path that counts as the word `key`, and the trees `left` follow. A path
that is more than a word counts as none. -/
inductive Begins (item : Item) : String → Position → List TokenTree → Prop
  | word {i place left} (h : item.trees = .ident i place :: left)
      (hc : ∀ rest, ¬ Colons left rest) : Begins item i.spelling place left
  | longer {led i place rest longer left} (hl : Led item.trees led (.ident i place :: rest))
      (ht : Tail rest longer left) (h : (led || longer) = true) : Begins item "" place left

/-- What is wrong with an item that does not begin with a path. -/
inductive PathFault (item : Item) : Rejection → Prop
  /-- The path ends in two colons. -/
  | noWord {led i place rest left} (hl : Led item.trees led (.ident i place :: rest))
      (ht : CutTail rest left) :
      PathFault item (item.reject left (.noWord (item.ends left)))
  /-- The list ends. -/
  | noItem {led left} (hl : Led item.trees led left) (he : item.ends left = true) :
      PathFault item (item.reject left .noItem)
  /-- There is a literal. -/
  | literalItem {led left} (hl : Led item.trees led left) (hf : LiteralFirst left) :
      PathFault item (item.reject left .literalItem)
  /-- There is something else, or a comma. -/
  | otherItem {led left} (hl : Led item.trees led left) (he : item.ends left = false)
      (hf : ¬ LiteralFirst left) (hw : ¬ Worded left) :
      PathFault item (item.reject left .otherItem)

section Paths

variable {item : Item} {key : String} {place : Position} {trees rest left : List TokenTree}

theorem beginsWithLiteral_iff : beginsWithLiteral trees = true ↔ LiteralFirst trees := by
  constructor
  · intro h
    unfold beginsWithLiteral at h
    split at h
    · exact .literal _ _ _
    · exact .negative (of_decide_eq_true h) _ _ _ _
    · cases h
  · intro h
    cases h with
    | literal l p rest => rfl
    | negative hl joint p q rest => exact decide_eq_true hl

theorem pathTail_of_not_colons (h : ∀ rest, ¬ Colons trees rest) :
    item.pathTail trees = .ok (false, trees) := by
  unfold pathTail
  split
  · exact absurd ⟨_, _, _, rfl⟩ (h _)
  · exact absurd ⟨_, _, _, rfl⟩ (h _)
  · rfl

theorem Tail.pathTail_eq {longer : Bool} (h : Tail trees longer left) :
    item.pathTail trees = .ok (longer, left) := by
  induction h with
  | done h => exact pathTail_of_not_colons h
  | word h _ ih =>
    obtain ⟨p, joint, q, rfl⟩ := h
    rw [pathTail, ih]
    rfl

theorem CutTail.pathTail_eq (h : CutTail trees left) :
    item.pathTail trees = .error (item.reject left (.noWord (item.ends left))) := by
  induction h with
  | cut h hw =>
    obtain ⟨p, joint, q, rfl⟩ := h
    rw [pathTail]
    rintro i p rest rfl
    exact hw ⟨i, p, rest, rfl⟩
  | word h _ ih =>
    obtain ⟨p, joint, q, rfl⟩ := h
    rw [pathTail, ih]
    rfl

/-- After the first word, words follow until there are no more, or until one is missing. -/
theorem tail_or_cutTail (trees : List TokenTree) :
    (∃ longer left, Tail trees longer left) ∨ ∃ left, CutTail trees left := by
  by_cases h : ∃ rest, Colons trees rest
  · obtain ⟨rest, hc⟩ := h
    by_cases hw : Worded rest
    · obtain ⟨i, p, after, rfl⟩ := hw
      have hlt : after.length < trees.length := by
        obtain ⟨_, _, _, rfl⟩ := hc
        simp only [List.length_cons]
        omega
      rcases tail_or_cutTail after with ⟨longer, left, ht⟩ | ⟨left, ht⟩
      · exact Or.inl ⟨true, left, .word hc ht⟩
      · exact Or.inr ⟨left, .word hc ht⟩
    · exact Or.inr ⟨rest, .cut hc hw⟩
  · exact Or.inl ⟨false, trees, .done fun rest hc => h ⟨rest, hc⟩⟩
termination_by trees.length

theorem exists_led (trees : List TokenTree) : ∃ led rest, Led trees led rest := by
  by_cases h : ∃ rest, Colons trees rest
  · obtain ⟨rest, hc⟩ := h
    exact ⟨true, rest, .colons hc⟩
  · exact ⟨false, trees, .plain fun rest hc => h ⟨rest, hc⟩⟩

theorem Led.path_eq {led : Bool} (h : Led item.trees led rest) :
    item.path = item.pathAfter led rest := by
  unfold Item.path
  cases h with
  | colons h =>
    obtain ⟨p, joint, q, ht⟩ := h
    rw [ht]
    rfl
  | plain h =>
    split
    · rename_i ht
      exact absurd ⟨_, _, _, ht⟩ (h _)
    · rfl

theorem pathAfter_of_not_worded (led : Bool) (hw : ¬ Worded left) :
    item.pathAfter led left =
      if item.ends left then .error (item.reject left .noItem)
      else if beginsWithLiteral left then .error (item.reject left .literalItem)
      else .error (item.reject left .otherItem) := by
  unfold pathAfter
  split
  · exact absurd ⟨_, _, _, rfl⟩ hw
  · rfl

/-- **A path that is there is read.** -/
theorem Begins.path_eq (h : item.Begins key place left) :
    ∃ path, item.path = .ok (path, left) ∧ path.key = key ∧ path.place = place := by
  cases h with
  | @word i place left h hc =>
    have hl : Led item.trees false item.trees := by
      refine .plain fun rest hcolons => ?_
      obtain ⟨p, joint, q, ht⟩ := hcolons
      rw [h] at ht
      cases ht
    refine ⟨⟨i, place, true⟩, ?_, rfl, rfl⟩
    rw [hl.path_eq, h, pathAfter, pathTail_of_not_colons hc]
    rfl
  | @longer led i place rest longer left hl ht h =>
    refine ⟨⟨i, place, !led && !longer⟩, ?_, ?_, rfl⟩
    · rw [hl.path_eq, pathAfter, ht.pathTail_eq]
      rfl
    · rw [Path.key, ← Bool.not_or, h]
      rfl

/-- **Where no path is, that is reported.** -/
theorem PathFault.path_eq {r : Rejection} (h : item.PathFault r) : item.path = .error r := by
  cases h with
  | noWord hl ht =>
    rw [hl.path_eq, pathAfter, ht.pathTail_eq]
    rfl
  | @noItem led left hl he =>
    have hw : ¬ Worded left := by
      rintro ⟨i, p, rest, rfl⟩
      simp [ends] at he
    rw [hl.path_eq, pathAfter_of_not_worded led hw, if_pos he]
  | @literalItem led left hl hf =>
    have hw : ¬ Worded left := by
      rintro ⟨i, p, rest, rfl⟩
      cases hf
    have he : item.ends left = false := by
      cases hf <;> simp [ends]
    rw [hl.path_eq, pathAfter_of_not_worded led hw, he, beginsWithLiteral_iff.mpr hf]
    rfl
  | @otherItem led left hl he hf hw =>
    rw [hl.path_eq, pathAfter_of_not_worded led hw, he,
      Bool.eq_false_iff.mpr (mt beginsWithLiteral_iff.mp hf)]
    rfl

/-- An item begins with a path or has a fault. -/
theorem begins_or_pathFault (item : Item) :
    (∃ key place left, item.Begins key place left) ∨ ∃ r, item.PathFault r := by
  obtain ⟨led, rest, hl⟩ := exists_led item.trees
  by_cases hw : Worded rest
  · obtain ⟨i, place, after, rfl⟩ := hw
    rcases tail_or_cutTail after with ⟨longer, left, ht⟩ | ⟨left, ht⟩
    · cases hm : led || longer with
      | true => exact Or.inl ⟨_, place, left, .longer hl ht hm⟩
      | false =>
        obtain ⟨rfl, rfl⟩ := Bool.or_eq_false_iff.mp hm
        cases ht with
        | done hc =>
          generalize hts : item.trees = trees at hl
          cases hl with
          | plain _ => exact Or.inl ⟨_, place, _, .word hts hc⟩
    · exact Or.inr ⟨_, .noWord hl ht⟩
  · cases he : item.ends rest with
    | true => exact Or.inr ⟨_, .noItem hl he⟩
    | false =>
      by_cases hf : LiteralFirst rest
      · exact Or.inr ⟨_, .literalItem hl hf⟩
      · exact Or.inr ⟨_, .otherItem hl he hf hw⟩

end Paths

end Item

end Railroad.Deriving
