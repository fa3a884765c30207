import Railroad.Proofs.Deriving.Reach
import Railroad.Proofs.Deriving.WrittenOut

/-!
# The predicates of a derived implementation

The predicates that a derived implementation adds to those of the declaration, and the calls of its
method. They are made from the same fields, and so they have to agree.

* `calls`: the calls of a derived method, each with the declared type of its field.
* `Occurs`, `Involves`: a word occurs in a type at some depth.
* `boundTypes_eq`: the bounds are the types that involve a parameter, each at its first occurrence.
* `reached_types`: the field that a call reaches has the type of the call.
* `bounds_agree_with_calls`: the predicates, as they are written, agree with the calls.
-/

namespace Railroad

open TokenTree (idents identsAll layouts)

/-! ## Words in types -/

/-- The word occurs in the tree, at any depth. A lifetime is an apostrophe in front of a word. -/
inductive Occurs (word : Ident) : TokenTree → Prop
  | ident (p : Position) : Occurs word (.ident word p)
  | lifetime (p : Position) : Occurs word (.lifetime word p)
  | group {t inner} (d : Delimiter) (opened closed : Position) (ht : t ∈ inner)
      (h : Occurs word t) : Occurs word (.group d inner opened closed)

mutual

theorem occurs_of_mem_idents {word : Ident} : ∀ {t : TokenTree}, word ∈ idents t → Occurs word t
  | .ident i p, h => by
    obtain rfl := List.mem_singleton.mp h
    exact .ident p
  | .lifetime i p, h => by
    obtain rfl := List.mem_singleton.mp h
    exact .lifetime p
  | .group d inner opened closed, h => by
    have h : word ∈ identsAll inner := h
    obtain ⟨t, ht, ho⟩ := exists_of_mem_identsAll h
    exact .group d opened closed ht ho

theorem exists_of_mem_identsAll {word : Ident} :
    ∀ {ts : List TokenTree}, word ∈ identsAll ts → ∃ t ∈ ts, Occurs word t
  | t :: rest, h => by
    rcases List.mem_append.mp h with h | h
    · exact ⟨t, List.mem_cons_self, occurs_of_mem_idents h⟩
    · obtain ⟨u, hu, ho⟩ := exists_of_mem_identsAll h
      exact ⟨u, List.mem_cons_of_mem t hu, ho⟩

end

theorem mem_idents_iff {word : Ident} {t : TokenTree} : word ∈ idents t ↔ Occurs word t := by
  refine ⟨occurs_of_mem_idents, fun h => ?_⟩
  induction h with
  | ident p => exact List.mem_singleton_self word
  | lifetime p => exact List.mem_singleton_self word
  | group d opened closed ht h ih =>
    show word ∈ identsAll _
    rw [TokenTree.identsAll_eq_flatMap]
    exact List.mem_flatMap.mpr ⟨_, ht, ih⟩

namespace Deriving

/-- One of the names occurs in the type. -/
def Involves (names : List Ident) (type : List TokenTree) : Prop :=
  ∃ name ∈ names, ∃ t ∈ type, Occurs name t

theorem mentions_iff {names : List Ident} {type : List TokenTree} :
    mentions names type = true ↔ Involves names type := by
  rw [mentions, List.any_eq_true]
  constructor
  · rintro ⟨name, hn, hc⟩
    exact ⟨name, List.contains_iff_mem.mp hc, exists_of_mem_identsAll hn⟩
  · rintro ⟨name, hn, t, ht, ho⟩
    refine ⟨name, ?_, List.contains_iff_mem.mpr hn⟩
    rw [TokenTree.identsAll_eq_flatMap]
    exact List.mem_flatMap.mpr ⟨t, ht, mem_idents_iff.mpr ho⟩

instance (names : List Ident) (type : List TokenTree) : Decidable (Involves names type) :=
  decidable_of_iff _ mentions_iff

/-! ## Bounds -/

/-- The types are written alike. -/
def sameType (s t : List TokenTree) : Bool :=
  layouts s == layouts t

theorem boundsFrom_eq (names : List Ident) (seen : List (List (String × Bool)))
    (types : List (List TokenTree)) :
    boundsFrom names seen types =
      (types.filter fun t => decide (layouts t ∉ seen ∧ Involves names t)).eraseDupsBy sameType := by
  induction types generalizing seen with
  | nil => rfl
  | cons type rest ih =>
    rw [boundsFrom, List.filter_cons]
    by_cases h : layouts type ∉ seen ∧ mentions names type
    · rw [if_pos h, if_pos (by simpa [mentions_iff] using h), List.eraseDupsBy_cons,
        List.filter_filter, ih]
      refine congrArg (fun types => type :: List.eraseDupsBy sameType types) ?_
      refine List.filter_congr fun t _ => ?_
      -- what has been seen by now is what had been seen before, and the type itself
      simp [sameType, and_comm, Bool.and_left_comm]
    · rw [if_neg h, if_neg (by simpa [mentions_iff] using h), ih]

/-- **The bounds are the types that involve a name**, each where it occurs first. -/
theorem boundTypes_eq (names : List Ident) (types : List (List TokenTree)) :
    boundTypes names types =
      (types.filter fun t => decide (Involves names t)).eraseDupsBy sameType := by
  rw [boundTypes, boundsFrom_eq]
  simp

theorem mem_of_mem_eraseDupsBy {α : Type} {r : α → α → Bool} {a : α} :
    ∀ {as : List α}, a ∈ as.eraseDupsBy r → a ∈ as
  | [], h => h
  | b :: as, h => by
    rw [List.eraseDupsBy_cons] at h
    rcases List.mem_cons.mp h with rfl | h
    · exact List.mem_cons_self
    · exact List.mem_cons_of_mem b (List.mem_of_mem_filter (mem_of_mem_eraseDupsBy h))
termination_by as => as.length
decreasing_by exact Nat.lt_succ_of_le (List.length_filter_le _ _)

theorem exists_sameType_mem {type : List TokenTree} :
    ∀ {types : List (List TokenTree)}, type ∈ types →
      ∃ b ∈ types.eraseDupsBy sameType, sameType type b = true
  | t :: rest, h => by
    rw [List.eraseDupsBy_cons]
    by_cases hs : sameType type t = true
    · exact ⟨t, List.mem_cons_self, hs⟩
    · have hm : type ∈ rest.filter fun b => sameType b t = false := by
        rcases List.mem_cons.mp h with rfl | h
        · exact absurd (by simp [sameType]) hs
        · exact List.mem_filter.mpr ⟨h, by simpa using hs⟩
      obtain ⟨b, hb, he⟩ := exists_sameType_mem hm
      exact ⟨b, List.mem_cons_of_mem t hb, he⟩
termination_by types => types.length
decreasing_by exact Nat.lt_succ_of_le (List.length_filter_le _ _)

theorem nodup_eraseDupsBy_sameType :
    ∀ types : List (List TokenTree), ((types.eraseDupsBy sameType).map layouts).Nodup
  | [] => List.nodup_nil
  | t :: rest => by
    rw [List.eraseDupsBy_cons, List.map_cons, List.nodup_cons]
    refine ⟨fun h => ?_, nodup_eraseDupsBy_sameType _⟩
    obtain ⟨b, hb, he⟩ := List.mem_map.mp h
    have hne := (List.mem_filter.mp (mem_of_mem_eraseDupsBy hb)).2
    simp [sameType, he] at hne
termination_by types => types.length
decreasing_by exact Nat.lt_succ_of_le (List.length_filter_le _ _)

/-! ## Calls -/

/-- The calls of a derived method: how each reaches its field, and the declared type of the
field. -/
def calls (d : Declaration) : List (Access × List TokenTree) :=
  (cases d).flatMap fun c => c.drawn.map fun m => (c.access m.1, m.2.type)

theorem accesses_of_expand {d : Declaration} {i : Implementation} (h : expand d = .ok i) :
    i.method.branches.flatMap (·.body.accesses) = (calls d).map (·.1) := by
  rw [branches_of_expand h, List.flatMap_map, calls, List.map_flatMap]
  simp only [accesses_branch, List.map_map]
  rfl

theorem drawnTypes_eq (c : Case) (access : Member → Access) :
    drawnTypes c.shape (((members c.fields).filter fun m => !skipped m.2).map fun m =>
      ⟨access m.1, m.2.type⟩) = c.drawn.map (·.2.type) := by
  rcases c.shape.token_or with ⟨kind, text, hs⟩ | hs
  · rw [Case.drawn_eq_nil hs, hs]
    rfl
  · rw [Case.drawn_eq_filter hs]
    unfold drawnTypes
    rcases Shape.sequence_or_choice hs with hc | hc <;> rw [hc] <;> exact List.map_map

theorem drawnTypes_declaredPlan (d : Declaration) :
    (declaredPlan d).drawnTypes = (calls d).map (·.2) := by
  have hcalls : (calls d).map (·.2) = (cases d).flatMap fun c => c.drawn.map (·.2.type) := by
    rw [calls, List.map_flatMap]
    simp only [List.map_map]
    rfl
  rw [hcalls]
  unfold declaredPlan cases
  cases d.body with
  | union keyword => rfl
  | struct fields =>
    rw [List.flatMap_singleton, ← drawnTypes_eq _ .member]
    show drawnTypes _ (structParts (plannedFields fields)) = _
    rw [structParts_planned]
    rfl
  | enum variants =>
    dsimp only
    rw [Plan.drawnTypes, List.flatMap_map, List.flatMap_map]
    refine List.flatMap_congr fun v _ => ?_
    rw [← drawnTypes_eq _ fun m => .bound m.binding]
    show drawnTypes _ (variantParts (plannedFields v.fields)) = _
    rw [variantParts_planned]
    rfl

theorem declaredBounds_eq (d : Declaration) :
    declaredBounds d = (((calls d).map (·.2)).filter fun t =>
      decide (Involves d.typeParameters t)).eraseDupsBy sameType := by
  rw [declaredBounds, drawnTypes_declaredPlan, boundTypes_eq]

theorem call_of_mem_declaredBounds {d : Declaration} {b : List TokenTree}
    (h : b ∈ declaredBounds d) :
    (∃ call ∈ calls d, call.2 = b) ∧ Involves d.typeParameters b := by
  rw [declaredBounds_eq] at h
  obtain ⟨hm, hi⟩ := List.mem_filter.mp (mem_of_mem_eraseDupsBy h)
  exact ⟨List.mem_map.mp hm, of_decide_eq_true hi⟩

theorem exists_declaredBound_of_call {d : Declaration} {call : Access × List TokenTree}
    (hc : call ∈ calls d) (hi : Involves d.typeParameters call.2) :
    ∃ b ∈ declaredBounds d, layouts b = layouts call.2 := by
  have hm : call.2 ∈ ((calls d).map (·.2)).filter fun t => decide (Involves d.typeParameters t) :=
    List.mem_filter.mpr ⟨List.mem_map_of_mem hc, decide_eq_true hi⟩
  obtain ⟨b, hb, hs⟩ := exists_sameType_mem hm
  rw [declaredBounds_eq]
  exact ⟨b, hb, (beq_iff_eq.mp hs).symm⟩

theorem bounds_of_expand {d : Declaration} {i : Implementation} (h : expand d = .ok i) :
    i.bounds = declaredBounds d := by
  rw [expand_eq_verdict, verdict_eq_ok_iff] at h
  obtain ⟨-, rfl⟩ := h
  rfl

/-- The contents of a value whose fields hold their own declarations. -/
def declaredContents : Fields → Contents Field
  | .unit => .unit
  | .named fields => .named fields
  | .tuple fields => .tuple fields

theorem fits_declaredContents (fields : Fields) : (declaredContents fields).Fits fields := by
  cases fields with
  | unit => trivial
  | named fields => rfl
  | tuple fields => rfl

theorem drawnContents_declared (c : Case) :
    c.drawnContents (declaredContents c.fields) = c.drawn.map (·.2) := by
  have hz : (members c.fields).zip (declaredContents c.fields).list =
      (members c.fields).map fun m => (m, m.2) := by
    have hl : (declaredContents c.fields).list = (members c.fields).map (·.2) := by
      cases c.fields with
      | unit => rfl
      | named fields => simp [declaredContents, Contents.list, members]
      | tuple fields =>
        rw [members, List.map_map]
        exact (List.zipIdx_map_fst 0 fields).symm
    have hm := List.zip_map' (f := id) (g := (·.2)) (l := members c.fields)
    rwa [List.map_id, ← hl] at hm
  rw [Case.drawnContents, Case.drawnPairs, hz, List.filter_map, List.map_map]
  rfl

/-- **The field that a call reaches has the type of the call.** -/
theorem reached_types {c : Case} (hd : DistinctNames c.fields) :
    c.branch.body.accesses.map (fun access =>
        (access.reach (declaredContents c.fields) (c.names (declaredContents c.fields))).map
          (·.type)) =
      c.drawn.map fun m => some m.2.type := by
  have hr := congrArg (List.map (Option.map (·.type)))
    (reach_accesses_branch (fits_declaredContents c.fields) hd)
  rw [drawnContents_declared, List.map_map, List.map_map, List.map_map] at hr
  exact hr

/-! ## The agreement -/

/-- Only type parameters count, and not lifetimes or constants. -/
theorem mem_typeParameters_iff {d : Declaration} {name : Ident} :
    name ∈ d.typeParameters ↔
      ∃ attributes bounds, .type attributes name bounds ∈ d.parameters.items := by
  rw [Declaration.typeParameters, List.mem_filterMap]
  constructor
  · rintro ⟨parameter, hm, h⟩
    cases parameter with
    | type attributes name' bounds =>
      cases h
      exact ⟨attributes, bounds, hm⟩
    | lifetime attributes name' bounds => cases h
    | const attributes name' type => cases h
  · rintro ⟨attributes, bounds, hm⟩
    exact ⟨_, hm, rfl⟩

theorem parts_of_expand {d : Declaration} {i : Implementation} (h : expand d = .ok i) :
    i.name = d.name ∧ i.parameters = d.parameters ∧ i.predicates = d.predicates := by
  rw [expand_eq_verdict, verdict_eq_ok_iff] at h
  obtain ⟨-, rfl⟩ := h
  exact ⟨rfl, rfl, rfl⟩

theorem spelling_of_expand {d : Declaration} {i : Implementation} (h : expand d = .ok i) :
    i.spelling = heading d.name d.parameters
      ++ whereClause (d.predicates.items.map TokenTree.spellings ++ i.bounds.map drawable)
        (i.bounds.isEmpty && d.predicates.trailing)
      ++ methodHeading ++ i.method.spelling ++ ["\x7d", "\x7d"] := by
  obtain ⟨hn, hp, hc⟩ := parts_of_expand h
  rw [i.spelling_eq, hn, hp, hc]

theorem drawingCall_of_mem_calls {d : Declaration} {i : Implementation} (h : expand d = .ok i)
    {call : Access × List TokenTree} (hc : call ∈ calls d) :
    drawingCall call.1 <:+: i.method.spelling := by
  refine drawingCall_infix_spelling ?_
  rw [accesses_of_expand h]
  exact List.mem_map_of_mem hc

/-- A call is made on a field that is neither skipped nor replaced by a token. -/
theorem field_of_call {d : Declaration} {call : Access × List TokenTree} (h : call ∈ calls d) :
    ∃ c ∈ cases d, ∃ m ∈ members c.fields,
      m.2.type = call.2 ∧ skipped m.2 = false ∧ ∀ kind text, c.shape ≠ .token kind text := by
  obtain ⟨c, hc, hcall⟩ := List.mem_flatMap.mp h
  obtain ⟨m, hm, rfl⟩ := List.mem_map.mp hcall
  have hs : ∀ kind text, c.shape ≠ .token kind text := by
    intro kind text hs
    rw [Case.drawn_eq_nil hs] at hm
    cases hm
  rw [Case.drawn_eq_filter hs] at hm
  obtain ⟨hm, hk⟩ := List.mem_filter.mp hm
  exact ⟨c, hc, m, hm, rfl, by simpa using hk, hs⟩

/-- **The predicates agree with the calls.** An implementation has the predicates of the declaration
and then, for each type of a called field that involves a type parameter, one where the type occurs
first. So every call on a type that involves a type parameter is covered, and a bound is the type of
a field that is called: of none that is skipped, and of none of a case that is drawn as a token.

Words are compared as they are and types as they are laid out: a parameter `r#T` is not involved in
`T`, though both name the same, and a bound on a type that begins with `for<'a>` is read as one on
what follows these words. -/
theorem bounds_agree_with_calls {d : Declaration} {i : Implementation} (h : expand d = .ok i) :
    i.predicates = d.predicates ∧
    i.spelling = heading d.name d.parameters
      ++ whereClause (d.predicates.items.map TokenTree.spellings ++ i.bounds.map drawable)
        (i.bounds.isEmpty && d.predicates.trailing)
      ++ methodHeading ++ i.method.spelling ++ ["\x7d", "\x7d"] ∧
    (∀ call ∈ calls d, drawingCall call.1 <:+: i.method.spelling) ∧
    i.method.branches.flatMap (·.body.accesses) = (calls d).map (·.1) ∧
    (WellNamed d → ∀ (k : Nat) (c : Case) (b : Branch),
      (cases d)[k]? = some c → i.method.branches[k]? = some b →
      ∃ scope, b.scope (declaredContents c.fields) = some scope ∧
        b.body.accesses.map (fun access =>
          (access.reach (declaredContents c.fields) scope).map (·.type)) =
        c.drawn.map fun m => some m.2.type) ∧
    (∀ name, name ∈ d.typeParameters ↔
      ∃ attributes bounds, .type attributes name bounds ∈ d.parameters.items) ∧
    i.bounds = (((calls d).map (·.2)).filter fun t =>
      decide (Involves d.typeParameters t)).eraseDupsBy sameType ∧
    (i.bounds.map layouts).Nodup ∧
    (∀ call ∈ calls d, Involves d.typeParameters call.2 →
      ∃ b ∈ i.bounds, layouts b = layouts call.2) ∧
    (∀ b ∈ i.bounds, Involves d.typeParameters b ∧ ∃ c ∈ cases d, ∃ m ∈ members c.fields,
      m.2.type = b ∧ skipped m.2 = false ∧ ∀ kind text, c.shape ≠ .token kind text) ∧
    (d.typeParameters = [] → i.bounds = []) := by
  refine ⟨(parts_of_expand h).2.2, spelling_of_expand h,
    fun call hc => drawingCall_of_mem_calls h hc, accesses_of_expand h, fun hn k c b hc hb => ?_,
    fun name => mem_typeParameters_iff, (bounds_of_expand h).trans (declaredBounds_eq d), ?_,
    fun call hc hi => ?_, fun b hm => ?_, fun hp => ?_⟩
  · have hd : DistinctNames c.fields := hn.fields c (List.mem_of_getElem? hc)
    obtain rfl : c.branch = b := Option.some.inj ((branch_of_expand h hc).symm.trans hb)
    exact ⟨_, scope_branch (fits_declaredContents c.fields) hd, reached_types hd⟩
  · rw [bounds_of_expand h, declaredBounds_eq]
    exact nodup_eraseDupsBy_sameType _
  · rw [bounds_of_expand h]
    exact exists_declaredBound_of_call hc hi
  · rw [bounds_of_expand h] at hm
    obtain ⟨⟨call, hc, rfl⟩, hi⟩ := call_of_mem_declaredBounds hm
    exact ⟨hi, field_of_call hc⟩
  · rw [bounds_of_expand h]
    refine List.eq_nil_iff_forall_not_mem.mpr fun b hm => ?_
    obtain ⟨-, name, hn, -⟩ := call_of_mem_declaredBounds hm
    rw [hp] at hn
    cases hn

/-- The word `T`. -/
def letterT : TokenTree :=
  .ident ⟨false, "T"⟩ .start

/-- A struct with type parameters `T` and `U`, a predicate `U: Copy` and fields of the types `[T]`,
`U`, `[T]` and `u8`, the second of which is skipped. -/
def genericStruct : Declaration :=
  let word (name : String) : TokenTree := .ident ⟨false, name⟩ .start
  let slice : List TokenTree := [.group .bracket [letterT] .start .start]
  ⟨[], ⟨false, "G"⟩, ⟨[.type [] ⟨false, "T"⟩ [], .type [] ⟨false, "U"⟩ []], false⟩,
    ⟨[[word "U", .mark ':' false .start, word "Copy"]], false⟩,
    .struct (.tuple [⟨[], slice⟩, ⟨[railroadWord "skip"], [word "U"]⟩, ⟨[], slice⟩,
      ⟨[], [word "u8"]⟩])⟩

theorem bounds_agree_with_calls_genericStruct : ∃ i, expand genericStruct = .ok i ∧
    ["impl", "<", "T", ",", "U", ">", ":", ":", "railkit", ":", ":", "Railroadable", "for", "G", "<",
      "T", ",", "U", ">", "where", "U", ":", "Copy", ",", "[", "T", "]", ":", ":", ":", "railkit",
      ":", ":", "Railroadable", "\x7b"] <+: i.spelling ∧
    ([":", ":", "railkit", ":", ":", "Railroadable", ":", ":", "create_railroad", "(", "&", "self",
      ".", "2", ",", "options", ")"] <:+: i.method.spelling) ∧
    (∃ b ∈ i.bounds, layouts b = [("[", false), ("T", false), ("]", false)]) ∧
    (i.bounds.map layouts).Nodup ∧
    i.method.branches.flatMap (·.body.accesses) =
      [.member (.index 0), .member (.index 2), .member (.index 3)] := by
  obtain ⟨-, hw, hcall, ha, -, -, -, hn, hc, -⟩ := bounds_agree_with_calls (d := genericStruct) rfl
  have slice_mem (place : Nat) (h : place = 0 ∨ place = 2) :
      (.member (.index place), [.group .bracket [letterT] .start .start]) ∈ calls genericStruct := by
    rcases h with rfl | rfl
    · exact List.mem_cons_self
    · exact List.mem_cons_of_mem _ List.mem_cons_self
  refine ⟨_, rfl, ?_, hcall _ (slice_mem 2 (Or.inr rfl)),
    hc _ (slice_mem 0 (Or.inl rfl)) (by decide), hn, ha⟩
  rw [hw]
  exact ⟨_, rfl⟩

end Deriving

end Railroad
