import Railroad.Proofs.Deriving.Capture

/-!
# What derived methods draw

The drawing of a value by a derived method, said without the method: the shape of the case that the
value falls into makes one drawing of those of its drawn fields.

* `Shape.drawing`: what a shape makes of the drawings of the fields.
* `isFor_iff`: of the branches of a method exactly one is for a value.
* `draw_branch`: what the branch of a case draws.
* `derived_method_draws`: what a derived method draws, and when it draws nothing at all.
-/

namespace Railroad.Deriving

variable {α σ : Type}

/-! ## The drawing of a shape -/

/-- What a shape makes of the drawings of the fields that are drawn. A token shows the text of its
literal, and a literal with a suffix has none; no field gives an empty segment, and a single field
is drawn as it is. -/
def Shape.drawing : Shape → List (Drawing σ) → Option (Drawing σ)
  | .token kind text, _ => text.value?.map fun s _ => pure (.token ⟨kind, s⟩)
  | _, [] => some fun _ => pure .nothing
  | _, [field] => some field
  | .choice, fields => some fun o => Diagram.choice <$> fields.mapM fun field => field o
  | .sequence, fields => some fun o => Diagram.sequence <$> fields.mapM fun field => field o

section Bodies

variable {drawing : α → Drawing σ} {contents : Contents α} {scope : Scope α}

theorem draw_sequence (fields : List Access) :
    (Body.sequence fields).draw drawing contents scope =
      (fields.mapM (Access.draw drawing contents scope)).bind fun drawings =>
        some fun o => Diagram.sequence <$> drawings.mapM fun drawing => drawing o := by
  simp only [← inOrder_eq_mapM]
  rfl

theorem draw_choice (fields : List Access) :
    (Body.choice fields).draw drawing contents scope =
      (fields.mapM (Access.draw drawing contents scope)).bind fun drawings =>
        some fun o => Diagram.choice <$> drawings.mapM fun drawing => drawing o := by
  simp only [← inOrder_eq_mapM]
  rfl

/-- What a shape makes of the fields, if all of them can be drawn. -/
theorem draw_combine {shape : Shape} (hs : ∀ kind text, shape ≠ .token kind text)
    (fields : List Access) :
    (Body.combine shape fields).draw drawing contents scope =
      (fields.mapM (Access.draw drawing contents scope)).bind shape.drawing := by
  rcases fields with _ | ⟨f, _ | ⟨g, rest⟩⟩
  · obtain rfl | rfl := Shape.sequence_or_choice hs <;> rfl
  · have hone : (Body.combine shape [f]).draw drawing contents scope =
        f.draw drawing contents scope := by
      obtain rfl | rfl := Shape.sequence_or_choice hs <;> rfl
    rw [hone, List.mapM_cons, List.mapM_nil]
    cases f.draw drawing contents scope with
    | none => rfl
    | some d => obtain rfl | rfl := Shape.sequence_or_choice hs <;> rfl
  · -- two fields have two drawings, so that the shape makes the same of both lists
    have hmany {ds : List (Drawing σ)}
        (h : (f :: g :: rest).mapM (Access.draw drawing contents scope) = some ds) :
        ∃ d e ds', ds = d :: e :: ds' := by
      rw [List.mapM_cons, List.mapM_cons] at h
      obtain ⟨d, -, h⟩ := Option.bind_eq_some_iff.mp h
      obtain ⟨es, he, h⟩ := Option.bind_eq_some_iff.mp h
      obtain ⟨e, -, he⟩ := Option.bind_eq_some_iff.mp he
      obtain ⟨ds', -, he⟩ := Option.bind_eq_some_iff.mp he
      cases he
      cases h
      exact ⟨d, e, ds', rfl⟩
    obtain rfl | rfl := Shape.sequence_or_choice hs
    · show (Body.sequence (f :: g :: rest)).draw drawing contents scope = _
      rw [draw_sequence]
      cases hm : (f :: g :: rest).mapM (Access.draw drawing contents scope) with
      | none => rfl
      | some ds =>
        obtain ⟨d, e, ds', rfl⟩ := hmany hm
        rfl
    · show (Body.choice (f :: g :: rest)).draw drawing contents scope = _
      rw [draw_choice]
      cases hm : (f :: g :: rest).mapM (Access.draw drawing contents scope) with
      | none => rfl
      | some ds =>
        obtain ⟨d, e, ds', rfl⟩ := hmany hm
        rfl

theorem mapM_draw {fields : List Access} {xs : List α}
    (hr : fields.map (·.reach contents scope) = xs.map some)
    (ho : named? optionsName scope = some .options) :
    fields.mapM (Access.draw drawing contents scope) = some (xs.map drawing) := by
  induction fields generalizing xs with
  | nil =>
    obtain rfl := List.map_eq_nil_iff.mp hr.symm
    rfl
  | cons f rest ih =>
    obtain ⟨x, xs, rfl, hx, hxs⟩ := List.map_eq_cons_iff.mp hr.symm
    rw [List.mapM_cons, (draw_access_iff hx.symm).mpr ho, ih hxs.symm]
    rfl

theorem draw_access_eq_none {access : Access} (ho : named? optionsName scope ≠ some .options) :
    access.draw drawing contents scope = none := by
  unfold Access.draw
  cases access.reach contents scope with
  | none => rfl
  | some x =>
    cases hm : named? optionsName scope with
    | none => rfl
    | some meaning =>
      cases meaning with
      | options => exact absurd hm ho
      | field y => rfl

end Bodies

/-! ## The branch that is for a value -/

/-- The branch is for values of a variant, or of a struct. -/
def Branch.isFor (variant : Option Ident) (b : Branch) : Bool :=
  match b.pattern, variant with
  | none, none => true
  | some p, some v => sameName p.variant v
  | _, _ => false

theorem variant_of (variant : Ident) (layout : Layout) :
    (Pattern.of variant layout).variant = variant := by
  unfold Pattern.of
  cases layout.shape <;> cases layout.fields <;> rfl

/-- **Of the branches of a method exactly one is for a value**: that of the case of the value. -/
theorem isFor_iff {d : Declaration} (hn : WellNamed d) {k : Nat} {c : Case}
    (hc : (cases d)[k]? = some c) {j : Nat} {b : Branch}
    (hb : ((cases d).map (·.branch))[j]? = some b) : b.isFor c.variant = true ↔ j = k := by
  obtain ⟨attributes, name, parameters, predicates, body⟩ := d
  cases body with
  | union keyword => cases hc
  | struct fields =>
    obtain ⟨hk, rfl⟩ := List.getElem?_eq_some_iff.mp hc
    obtain ⟨hj, rfl⟩ := List.getElem?_eq_some_iff.mp hb
    obtain rfl := Nat.lt_one_iff.mp hk
    obtain rfl := Nat.lt_one_iff.mp hj
    exact ⟨fun _ => rfl, fun _ => rfl⟩
  | enum variants =>
    have hnames : (variants.map (·.name.name)).Nodup := by
      have hv := hn.variants
      rw [cases, List.filterMap_map, List.map_filterMap] at hv
      rw [← List.filterMap_eq_map]
      exact hv
    rw [cases, List.getElem?_map] at hc
    rw [cases, List.getElem?_map, List.getElem?_map] at hb
    obtain ⟨v, hv, rfl⟩ := Option.map_eq_some_iff.mp hc
    obtain ⟨_, hc', rfl⟩ := Option.map_eq_some_iff.mp hb
    obtain ⟨w, hw, rfl⟩ := Option.map_eq_some_iff.mp hc'
    show sameName (Pattern.of w.name _).variant v.name = true ↔ j = k
    rw [variant_of, sameName, beq_iff_eq]
    constructor
    · intro he
      have hj : j < (variants.map (·.name.name)).length := by
        rw [List.length_map]
        exact (List.getElem?_eq_some_iff.mp hw).1
      refine (List.getElem?_inj hj hnames).mp ?_
      rw [List.getElem?_map, List.getElem?_map, hv, hw, Option.map_some, Option.map_some, he]
    · rintro rfl
      rw [Option.some.inj (hv.symm.trans hw)]

theorem draw_of_isFor {m : Method} {value : Value α} {b : Branch} {drawing : α → Drawing σ}
    (h : m.branches.find? (·.isFor value.variant) = some b) :
    m.draw drawing value =
      (b.scope value.contents).bind fun scope => b.body.draw drawing value.contents scope := by
  cases m with
  | impossible => cases h
  | direct body =>
    obtain rfl : ⟨none, body⟩ = b := List.mem_singleton.mp (List.mem_of_find?_eq_some h) |>.symm
    rfl
  | cases arms =>
    rw [Method.branches, List.find?_map] at h
    obtain ⟨arm, ha, rfl⟩ := Option.map_eq_some_iff.mp h
    cases hv : value.variant with
    | none =>
      have := List.find?_some ha
      rw [hv] at this
      cases this
    | some v =>
      rw [hv] at ha
      have ha : arms.find? (·.isFor v) = some arm := ha
      unfold Method.draw
      rw [hv]
      show ((arms.find? (·.isFor v)).bind fun arm => _) = _
      rw [ha]
      show ((arm.pattern.bind value.contents).bind fun bindings => _) =
        ((arm.pattern.bind value.contents).map (· ++ Scope.method)).bind _
      rw [Option.bind_map]
      rfl

theorem find?_of_unique {β : Type} {xs : List β} {p : β → Bool} {k : Nat} {x : β}
    (hx : xs[k]? = some x) (h : ∀ j y, xs[j]? = some y → (p y = true ↔ j = k)) :
    xs.find? p = some x := by
  obtain ⟨hk, rfl⟩ := List.getElem?_eq_some_iff.mp hx
  refine List.find?_eq_some_iff_getElem.mpr ⟨(h k _ hx).mpr rfl, k, hk, rfl, fun j hj => ?_⟩
  have hne := mt (h j _ (List.getElem?_eq_getElem (Nat.lt_trans hj hk))).mp (Nat.ne_of_lt hj)
  simpa using hne

/-! ## The drawing of a case -/

/-- **What the branch of a case draws.** -/
theorem draw_branch {c : Case} {contents : Contents α} (h : contents.Fits c.fields)
    (hd : DistinctNames c.fields) (drawing : α → Drawing σ) :
    c.branch.body.draw drawing contents (c.names contents) =
      if c.captures then none else c.shape.drawing ((c.drawnContents contents).map drawing) := by
  rcases c.shape.token_or with ⟨kind, text, hs⟩ | hs
  · have hcap : c.captures = false := by
      rw [Case.captures, Case.drawn_eq_nil hs, List.any_nil, Bool.and_false]
    rw [hcap, Case.branch, hs]
    show (text.value?.bind fun s => _) = text.value?.map _
    cases text.value? <;> rfl
  · have hr := reach_accesses_branch h hd
    have ho := named?_options_iff (scope_branch h hd)
    rw [accesses_branch] at hr
    rw [Case.branch, draw_combine hs]
    cases hcap : c.captures with
    | false =>
      rw [mapM_draw hr (ho.mpr hcap)]
      rfl
    | true =>
      have hne : c.drawn ≠ [] := by
        intro hnil
        rw [Case.captures, hnil, List.any_nil, Bool.and_false] at hcap
        cases hcap
      obtain ⟨m, rest, hm⟩ := List.exists_cons_of_ne_nil hne
      have ho : named? optionsName (c.names contents) ≠ some .options := by
        rw [ne_eq, ho, hcap]
        simp
      rw [hm, List.map_cons, List.mapM_cons, draw_access_eq_none ho]
      rfl

/-- **What a derived method draws.** For a value of any case, exactly the branch of that case is for
the value, and its accesses reach the drawn fields, each once and in order of declaration. The
drawing is the one that the shape makes of those of the drawn fields, except that a variant one of
whose drawn fields is called `options` has none. -/
theorem derived_method_draws {d : Declaration} {i : Implementation} (h : expand d = .ok i)
    (hn : WellNamed d) {k : Nat} {c : Case} (hc : (cases d)[k]? = some c) (value : Value α)
    (hv : value.variant = c.variant) (hf : value.contents.Fits c.fields)
    (drawing : α → Drawing σ) :
    (∃ b scope, i.method.branches[k]? = some b ∧
      (∀ (j : Nat) (b' : Branch), i.method.branches[j]? = some b' →
        (b'.isFor value.variant = true ↔ j = k)) ∧
      b.scope value.contents = some scope ∧
      b.body.accesses.map (·.reach value.contents scope) =
        (c.drawnContents value.contents).map some ∧
      ∀ kind text, c.shape = .token kind text → b.body = .token kind text) ∧
    i.method.draw drawing value =
      if c.captures then none
      else c.shape.drawing ((c.drawnContents value.contents).map drawing) := by
  have hd : DistinctNames c.fields := hn.fields c (List.mem_of_getElem? hc)
  have hb : i.method.branches[k]? = some c.branch := branch_of_expand h hc
  have hone (j : Nat) (b' : Branch) (hb' : i.method.branches[j]? = some b') :
      b'.isFor value.variant = true ↔ j = k := by
    rw [branches_of_expand h] at hb'
    rw [hv]
    exact isFor_iff hn hc hb'
  refine ⟨⟨c.branch, c.names value.contents, hb, hone, scope_branch hf hd,
    reach_accesses_branch hf hd, fun kind text hs => ?_⟩, ?_⟩
  · rw [Case.branch, hs]
    rfl
  · rw [draw_of_isFor (find?_of_unique hb hone), scope_branch hf hd]
    exact draw_branch hf hd drawing

/-- The drawing of a field that holds a text: a token for that text. -/
def textDrawing : String → Drawing Unit :=
  fun s _ => pure (.token (.literal s))

theorem wellNamed_optionsEnum : WellNamed optionsEnum :=
  ⟨by decide, by
    intro c hc
    rcases List.mem_cons.mp hc with rfl | hc
    · exact List.nodup_singleton _
    · obtain rfl := List.mem_singleton.mp hc
      exact List.nodup_singleton _⟩

/-- An enum with variants `V` and `P`. `P` is drawn as a choice; the second of its three fields is
skipped. -/
def pairEnum : Declaration :=
  let type : List TokenTree := [.ident ⟨false, "X"⟩ .start]
  ⟨[], ⟨false, "E"⟩, ⟨[], false⟩, ⟨[], false⟩, .enum [
    ⟨[], ⟨false, "V"⟩, .tuple [⟨[], type⟩]⟩,
    ⟨[railroadWord "choice"], ⟨false, "P"⟩,
      .tuple [⟨[], type⟩, ⟨[railroadWord "skip"], type⟩, ⟨[], type⟩]⟩]⟩

theorem wellNamed_pairEnum : WellNamed pairEnum :=
  ⟨by decide, by
    intro c hc
    rcases List.mem_cons.mp hc with rfl | hc
    · trivial
    · obtain rfl := List.mem_singleton.mp hc
      trivial⟩

theorem derived_method_draws_pair : ∃ i, expand pairEnum = .ok i ∧
    (i.method.draw textDrawing ⟨some ⟨false, "P"⟩, .tuple ["a", "b", "c"]⟩).map
        (fun drawing => drawing .empty ()) =
      some (.choice [.token (.literal "a"), .token (.literal "c")], ()) := by
  refine ⟨_, rfl, ?_⟩
  have hd := (derived_method_draws (d := pairEnum) rfl wellNamed_pairEnum (k := 1) rfl
    ⟨some ⟨false, "P"⟩, .tuple ["a", "b", "c"]⟩ rfl rfl textDrawing).2
  rw [hd]
  rfl

/-- A value with a field called `options` has no drawing, though its shape gives one. -/
theorem options_field_not_drawn : ¬ ∀ (d : Declaration) (i : Implementation), expand d = .ok i →
    WellNamed d → ∀ (k : Nat) (c : Case), (cases d)[k]? = some c → ∀ value : Value String,
      value.variant = c.variant → value.contents.Fits c.fields →
      i.method.draw textDrawing value =
        c.shape.drawing ((c.drawnContents value.contents).map textDrawing) := by
  intro h
  have := h optionsEnum _ rfl wellNamed_optionsEnum 0 _ rfl
    ⟨some ⟨false, "V"⟩, .named [(optionsName, "v")]⟩ rfl rfl
  cases this

end Railroad.Deriving
