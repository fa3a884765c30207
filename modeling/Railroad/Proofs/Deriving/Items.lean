import Railroad.Proofs.Deriving.AttributeGrammar
import Railroad.Proofs.Verdict

/-!
# Items: what they give and what is wrong with them

The grammar of a single item, and the table of the faults that an item can have. Both speak of the
trees of the item; that the readers agree with them is what is proved.

* `Item.shape?` and `Item.isBare` say how an item has to be written: a bare `choice`, a key with
  an equals sign and a text, or a bare `skip`.
* `ReadFault`, `ShapeFault` and `SkipFault` are the faults, one constructor each.
* `take_eq_error_iff`, `takeSkip_eq_error_iff`: an item is refused for its fault and nothing else.
* `shapeFault_none_iff`, `skipFault_iff`: an item has a fault iff it is not written as it should be.
-/

namespace Railroad

/-- The literal is a text. -/
def Literal.isText (l : Literal) : Bool :=
  match l.form with
  | .text => true
  | .rawText _ => true
  | _ => false

namespace Deriving

namespace Item

/-- The item is one word, written like this. -/
def isBare (word : String) (item : Item) : Bool :=
  match item.trees with
  | [.ident i _] => i.spelling = word
  | _ => false

/-- The shape that an item gives if it is written as it should be. -/
def shape? (item : Item) : Option Shape :=
  match item.trees with
  | [.ident i _] => if i.spelling = "choice" then some .choice else none
  | [.ident i _, .mark '=' _ _, .literal l _] =>
    if l.isText then (tokenKeys.lookup i.spelling).map (.token · l) else none
  | _ => none

variable {item : Item} {key : String} {place : Position} {left : List TokenTree}

theorem Begins.trees_eq (h : item.Begins key place left) (hk : key ≠ "") :
    ∃ i : Ident, i.spelling = key ∧ item.trees = .ident i place :: left := by
  cases h with
  | word h _ => exact ⟨_, rfl, h⟩
  | longer _ _ _ => exact absurd rfl hk

/-- An item that is one word begins with it. -/
theorem begins_of_bare {i : Ident} (h : item.trees = [.ident i place]) :
    item.Begins i.spelling place [] :=
  .word h nofun

/-- An item that is a word in front of an equals sign begins with the word. -/
theorem begins_of_assigned {i : Ident} {joint : Bool} {p : Position}
    (h : item.trees = .ident i place :: .mark '=' joint p :: left) :
    item.Begins i.spelling place (.mark '=' joint p :: left) := by
  refine .word h fun rest hc => ?_
  obtain ⟨_, _, _, hc⟩ := hc
  cases hc

theorem isBare_iff {word : String} :
    item.isBare word = true ↔ ∃ i place, Ident.spelling i = word ∧ item.trees = [.ident i place] := by
  unfold isBare
  split
  · rename_i i place h
    constructor
    · intro hw
      exact ⟨i, place, by simpa using hw, h⟩
    · rintro ⟨j, _, hj, ht⟩
      obtain ⟨rfl, -⟩ : i = j ∧ _ := by simpa [h] using ht
      simpa using hj
  · rename_i hne
    constructor
    · intro hw
      cases hw
    · rintro ⟨i, place, -, ht⟩
      exact absurd ht (hne i place)

theorem isBare_iff_begins {word : String} (hw : word ≠ "") :
    item.isBare word = true ↔ ∃ place, item.Begins word place [] := by
  rw [isBare_iff]
  constructor
  · rintro ⟨i, place, rfl, ht⟩
    exact ⟨place, begins_of_bare ht⟩
  · rintro ⟨place, h⟩
    obtain ⟨i, hi, ht⟩ := h.trees_eq hw
    exact ⟨i, place, hi, ht⟩

end Item

/-! ## Shapes -/

namespace Shape

theorem token_or (shape : Shape) :
    (∃ kind text, shape = .token kind text) ∨ ∀ kind text, shape ≠ .token kind text := by
  cases shape with
  | token kind text => exact Or.inl ⟨kind, text, rfl⟩
  | sequence => exact Or.inr nofun
  | choice => exact Or.inr nofun

theorem sequence_or_choice {shape : Shape} (h : ∀ kind text, shape ≠ .token kind text) :
    shape = .sequence ∨ shape = .choice := by
  cases shape with
  | token kind text => exact absurd rfl (h kind text)
  | sequence => exact Or.inl rfl
  | choice => exact Or.inr rfl

end Shape

/-- The item begins with a shape, which stands at `place`, and the trees `left` follow. -/
inductive Gives (item : Item) : Shape → Position → List TokenTree → Prop
  | choice {place left} (h : item.Begins "choice" place left) : Gives item .choice place left
  | token {key kind place joint p l q left}
      (h : item.Begins key place (.mark '=' joint p :: .literal l q :: left))
      (hk : (key, kind) ∈ tokenKeys) (hl : l.isText = true) :
      Gives item (.token kind l) place left

theorem Gives.trees_eq {item : Item} {shape : Shape} {place : Position} {left : List TokenTree}
    (h : Gives item shape place left) : ∃ i rest, item.trees = .ident i place :: rest := by
  cases h with
  | choice h =>
    obtain ⟨i, -, ht⟩ := h.trees_eq (by simp)
    exact ⟨i, _, ht⟩
  | token h hk hl =>
    obtain ⟨i, -, ht⟩ := h.trees_eq (ne_of_mem_tokenKeys hk).1
    exact ⟨i, _, ht⟩

/-- What is wrong with an item that does not begin with a shape. -/
inductive ReadFault (item : Item) : Rejection → Prop
  /-- It does not begin with a path. -/
  | path {r} (h : item.PathFault r) : ReadFault item r
  /-- Structs and variants are not skipped. -/
  | skip {place left} (h : item.Begins "skip" place left) :
      ReadFault item (.of .skipOutsideField place)
  /-- There is no such key. -/
  | unknown {key place left} (h : item.Begins key place left) (hc : key ≠ "choice")
      (hk : ∀ kind, (key, kind) ∉ tokenKeys) (hs : key ≠ "skip") :
      ReadFault item (.of (.unknownKey key) place)
  /-- The key of a token has no value. -/
  | noEquals {key kind place left} (h : item.Begins key place left)
      (hk : (key, kind) ∈ tokenKeys) (hl : ∀ joint p rest, left ≠ .mark '=' joint p :: rest) :
      ReadFault item (item.reject left .noEquals)
  /-- The value of the key is no text. -/
  | noString {key kind place joint p left} (h : item.Begins key place (.mark '=' joint p :: left))
      (hk : (key, kind) ∈ tokenKeys)
      (hl : ∀ l q rest, left = .literal l q :: rest → l.isText = false) :
      ReadFault item (item.reject left (.noString (item.ends left)))

/-- What is wrong with an item of a struct or variant, given the place of the first shape if one
has been given before. -/
inductive ShapeFault (first : Option Position) (item : Item) : Rejection → Prop
  /-- It does not begin with a shape. -/
  | unread {r} (h : ReadFault item r) : ShapeFault first item r
  /-- The shape is not followed by a comma. -/
  | more {shape place left} (h : Gives item shape place left) (hf : first = none)
      (hl : left ≠ []) : ShapeFault first item (item.reject left .noComma)
  /-- It gives a second shape. -/
  | conflict {shape place left p} (h : Gives item shape place left) (hf : first = some p) :
      ShapeFault first item ⟨⟨.conflicting, place⟩, [⟨.firstDeclared, p⟩]⟩

/-- What is wrong with an item of a field. -/
inductive SkipFault (item : Item) : Rejection → Prop
  /-- It does not begin with a path. -/
  | path {r} (h : item.PathFault r) : SkipFault item r
  /-- A field has no shape. -/
  | other {key place left} (h : item.Begins key place left) (hk : key ≠ "skip") :
      SkipFault item (.of .onlySkip place)
  /-- The word is not followed by a comma. -/
  | more {place left} (h : item.Begins "skip" place left) (hl : left ≠ []) :
      SkipFault item (item.reject left .noComma)

namespace Shape

variable {item : Item} {place : Position} {left : List TokenTree}

theorem readText_text {joint : Bool} {p q : Position} {l : Literal} (hl : l.isText = true) :
    readText item (.mark '=' joint p :: .literal l q :: left) = .ok (l, left) := by
  unfold Literal.isText at hl
  unfold readText
  cases hf : l.form <;> simp_all

theorem readText_noEquals (h : ∀ joint p rest, left ≠ .mark '=' joint p :: rest) :
    readText item left = .error (item.reject left .noEquals) := by
  unfold readText
  split
  · exact absurd rfl (h _ _ _)
  · exact absurd rfl (h _ _ _)
  · rfl

theorem readText_noString {joint : Bool} {p : Position}
    (h : ∀ l q rest, left = .literal l q :: rest → l.isText = false) :
    readText item (.mark '=' joint p :: left) =
      .error (item.reject left (.noString (item.ends left))) := by
  unfold readText
  split
  · rename_i l q rest heq
    simp only [List.cons.injEq, TokenTree.mark.injEq, true_and] at heq
    obtain ⟨-, rfl⟩ := heq
    have hl := h l q rest rfl
    unfold Literal.isText at hl
    have hends : item.ends (.literal l q :: rest) = false := by simp [Item.ends]
    cases hf : l.form <;> simp_all [Item.reject, Item.next, TokenTree.position]
  · rename_i heq
    simp only [List.cons.injEq, TokenTree.mark.injEq, true_and] at heq
    obtain ⟨-, rfl⟩ := heq
    rfl
  · rename_i hne
    exact absurd rfl (hne _ _ _)

/-! ### Reading an item -/

theorem readItem_of_begins {key : String} (h : item.Begins key place left) :
    ∃ path : Item.Path, path.place = place ∧ readItem item =
      if key = "choice" then .ok (.choice, path, left)
      else match tokenKind? key with
        | some kind => readText item left >>= fun read => .ok (.token kind read.1, path, read.2)
        | none =>
          if key = "skip" then .error (.of .skipOutsideField place)
          else .error (.of (.unknownKey key) place) := by
  obtain ⟨path, hp, rfl, rfl⟩ := h.path_eq
  refine ⟨path, rfl, ?_⟩
  unfold readItem
  rw [hp]
  rfl

theorem readItem_of_gives {shape : Shape} (h : Gives item shape place left) :
    ∃ path : Item.Path, path.place = place ∧ readItem item = .ok (shape, path, left) := by
  cases h with
  | choice h =>
    obtain ⟨path, hp, hr⟩ := readItem_of_begins h
    exact ⟨path, hp, hr⟩
  | token h hk hl =>
    obtain ⟨path, hp, hr⟩ := readItem_of_begins h
    refine ⟨path, hp, ?_⟩
    rw [hr, if_neg (ne_of_mem_tokenKeys hk).2, tokenKind?_eq_some_iff.mpr hk, readText_text hl]
    rfl

theorem readItem_of_fault {r : Rejection} (h : ReadFault item r) : readItem item = .error r := by
  cases h with
  | path h =>
    unfold readItem
    rw [h.path_eq]
    rfl
  | skip h =>
    obtain ⟨path, -, hr⟩ := readItem_of_begins h
    exact hr
  | unknown h hc hk hs =>
    obtain ⟨path, -, hr⟩ := readItem_of_begins h
    rw [hr, if_neg hc, tokenKind?_eq_none_iff.mpr hk]
    exact if_neg hs
  | noEquals h hk hl =>
    obtain ⟨path, -, hr⟩ := readItem_of_begins h
    rw [hr, if_neg (ne_of_mem_tokenKeys hk).2, tokenKind?_eq_some_iff.mpr hk, readText_noEquals hl]
    rfl
  | noString h hk hl =>
    obtain ⟨path, -, hr⟩ := readItem_of_begins h
    rw [hr, if_neg (ne_of_mem_tokenKeys hk).2, tokenKind?_eq_some_iff.mpr hk, readText_noString hl]
    rfl

/-- An item begins with a shape or has a fault. -/
theorem gives_or_fault (item : Item) :
    (∃ shape place left, Gives item shape place left) ∨ ∃ r, ReadFault item r := by
  rcases item.begins_or_pathFault with ⟨key, place, left, h⟩ | ⟨r, hr⟩
  · by_cases hc : key = "choice"
    · exact Or.inl ⟨.choice, place, left, .choice (hc ▸ h)⟩
    by_cases hk : ∃ kind, (key, kind) ∈ tokenKeys
    · obtain ⟨kind, hk⟩ := hk
      by_cases he : ∃ joint p rest, left = .mark '=' joint p :: rest
      · obtain ⟨joint, p, rest, rfl⟩ := he
        by_cases ht : ∃ l q after, rest = .literal l q :: after ∧ l.isText = true
        · obtain ⟨l, q, after, rfl, hl⟩ := ht
          exact Or.inl ⟨.token kind l, place, after, .token h hk hl⟩
        · refine Or.inr ⟨_, .noString h hk fun l q after hr => ?_⟩
          cases hl : l.isText with
          | false => rfl
          | true => exact absurd ⟨l, q, after, hr, hl⟩ ht
      · exact Or.inr ⟨_, .noEquals h hk fun joint p rest hr => he ⟨joint, p, rest, hr⟩⟩
    · by_cases hs : key = "skip"
      · exact Or.inr ⟨_, .skip (hs ▸ h)⟩
      · exact Or.inr ⟨_, .unknown h hc (fun kind hm => hk ⟨kind, hm⟩) hs⟩
  · exact Or.inr ⟨r, .path hr⟩

/-! ### Taking an item in -/

theorem take_of_gives {shape : Shape} (given : Option Given) (h : Gives item shape place left) :
    take given item = match given with
      | some first => .error ⟨⟨.conflicting, place⟩, [⟨.firstDeclared, first.place⟩]⟩
      | none => item.finish left >>= fun _ => .ok (some ⟨shape, place⟩) := by
  obtain ⟨path, rfl, hr⟩ := readItem_of_gives h
  unfold take
  rw [hr]
  cases given <;> rfl

theorem take_of_fault {r : Rejection} (given : Option Given) (h : ReadFault item r) :
    take given item = .error r := by
  unfold take
  rw [readItem_of_fault h]
  rfl

/-- **An item of a struct or variant is refused for its fault.** -/
theorem take_eq_error_iff {given : Option Given} {r : Rejection} :
    take given item = .error r ↔ ShapeFault (given.map (·.place)) item r := by
  constructor
  · intro h
    rcases gives_or_fault item with ⟨shape, place, left, hg⟩ | ⟨r', hr⟩
    · rw [take_of_gives given hg] at h
      cases given with
      | some first =>
        cases h
        exact .conflict hg rfl
      | none =>
        cases left with
        | nil => cases h
        | cons t rest =>
          cases h
          exact .more hg rfl (List.cons_ne_nil t rest)
    · rw [take_of_fault given hr] at h
      cases h
      exact .unread hr
  · intro h
    cases h with
    | unread h => exact take_of_fault given h
    | @more shape place left hg hf hl =>
      cases given with
      | some first => cases hf
      | none =>
        rw [take_of_gives none hg]
        cases left with
        | nil => exact absurd rfl hl
        | cons t rest => rfl
    | conflict hg hf =>
      cases given with
      | none => cases hf
      | some first =>
        cases hf
        rw [take_of_gives (some first) hg]

/-! ### Items written as they should be -/

theorem gives_nil_iff {shape : Shape} :
    (∃ place, Gives item shape place []) ↔ item.shape? = some shape := by
  constructor
  · rintro ⟨place, h⟩
    cases h with
    | choice h =>
      obtain ⟨i, hi, ht⟩ := h.trees_eq (by simp)
      rw [Item.shape?, ht]
      exact if_pos hi
    | token h hk hl =>
      obtain ⟨i, rfl, ht⟩ := h.trees_eq (ne_of_mem_tokenKeys hk).1
      rw [Item.shape?, ht]
      simp only [hl, lookup_tokenKeys_iff.mpr hk, if_true, Option.map_some]
  · intro h
    unfold Item.shape? at h
    split at h
    · rename_i i place ht
      split at h
      · rename_i hi
        cases h
        exact ⟨place, .choice (hi ▸ Item.begins_of_bare ht)⟩
      · cases h
    · rename_i i place _ _ l _ ht
      split at h
      · rename_i hl
        obtain ⟨kind, hk, rfl⟩ := Option.map_eq_some_iff.mp h
        exact ⟨place, .token (Item.begins_of_assigned ht) (lookup_tokenKeys_iff.mp hk) hl⟩
      · cases h
    · cases h

/-- **An item gives a shape iff it is written as it should be**; otherwise it has a fault. -/
theorem shapeFault_none_iff : (∃ r, ShapeFault none item r) ↔ item.shape? = none := by
  constructor
  · rintro ⟨r, h⟩
    rw [Option.eq_none_iff_forall_ne_some]
    intro shape hs
    obtain ⟨place, hg⟩ := gives_nil_iff.mpr hs
    have ht : take none item = .error r := take_eq_error_iff.mpr h
    rw [take_of_gives none hg] at ht
    cases ht
  · intro h
    rcases gives_or_fault item with ⟨shape, place, left, hg⟩ | ⟨r, hr⟩
    · refine ⟨_, .more hg rfl ?_⟩
      rintro rfl
      rw [gives_nil_iff.mp ⟨place, hg⟩] at h
      cases h
    · exact ⟨r, .unread hr⟩

/-- After a first shape every item has a fault. -/
theorem exists_shapeFault_some (item : Item) (p : Position) : ∃ r, ShapeFault (some p) item r := by
  rcases gives_or_fault item with ⟨shape, place, left, hg⟩ | ⟨r, hr⟩
  · exact ⟨_, .conflict hg rfl⟩
  · exact ⟨r, .unread hr⟩

end Shape

/-! ## Skipping -/

section Skip

variable {item : Item}

theorem takeSkip_of_begins {key : String} {place : Position} {left : List TokenTree}
    (h : item.Begins key place left) :
    takeSkip item = if key = "skip" then item.finish left else .error (.of .onlySkip place) := by
  obtain ⟨path, hp, rfl, rfl⟩ := h.path_eq
  unfold takeSkip
  rw [hp]
  rfl

theorem takeSkip_of_fault {r : Rejection} (h : SkipFault item r) : takeSkip item = .error r := by
  cases h with
  | path h =>
    unfold takeSkip
    rw [h.path_eq]
    rfl
  | other h hk => rw [takeSkip_of_begins h, if_neg hk]
  | @more place left h hl =>
    rw [takeSkip_of_begins h, if_pos rfl]
    cases left with
    | nil => exact absurd rfl hl
    | cons t rest => rfl

/-- An item is a bare `skip` or has a fault. -/
theorem begins_skip_or_fault (item : Item) :
    (∃ place, item.Begins "skip" place []) ∨ ∃ r, SkipFault item r := by
  rcases item.begins_or_pathFault with ⟨key, place, left, h⟩ | ⟨r, hr⟩
  · by_cases hk : key = "skip"
    · cases left with
      | nil => exact Or.inl ⟨place, hk ▸ h⟩
      | cons t rest => exact Or.inr ⟨_, .more (hk ▸ h) (List.cons_ne_nil t rest)⟩
    · exact Or.inr ⟨_, .other h hk⟩
  · exact Or.inr ⟨r, .path hr⟩

theorem takeSkip_of_bare (h : item.isBare "skip" = true) : takeSkip item = .ok () := by
  obtain ⟨place, hb⟩ := (Item.isBare_iff_begins (by simp)).mp h
  rw [takeSkip_of_begins hb]
  rfl

/-- **An item of a field is refused for its fault.** -/
theorem takeSkip_eq_error_iff {r : Rejection} : takeSkip item = .error r ↔ SkipFault item r := by
  refine ⟨fun h => ?_, takeSkip_of_fault⟩
  rcases begins_skip_or_fault item with hb | ⟨r', hr⟩
  · rw [takeSkip_of_bare ((Item.isBare_iff_begins (by simp)).mpr hb)] at h
    cases h
  · rw [takeSkip_of_fault hr] at h
    cases h
    exact hr

/-- **An item skips a field iff it is a bare `skip`**; otherwise it has a fault. -/
theorem skipFault_iff : (∃ r, SkipFault item r) ↔ item.isBare "skip" = false := by
  constructor
  · rintro ⟨r, h⟩
    cases hb : item.isBare "skip" with
    | false => rfl
    | true =>
      rw [← takeSkip_eq_error_iff, takeSkip_of_bare hb] at h
      cases h
  · intro h
    rcases begins_skip_or_fault item with hb | hr
    · rw [(Item.isBare_iff_begins (by simp)).mpr hb] at h
      cases h
    · exact hr

end Skip

end Deriving

end Railroad
