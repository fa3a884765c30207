import Railroad.Grammar.Leaf
import Railroad.Proofs.Grammar.Calls

/-!
# The options that a drawing reads

What a drawing makes of its options is what the leaves make of them. An adjustment sets one option
for the object below it, so whether the same option was set before is of no account there; all other
objects are given the options as they are.

* `Grammar.reads`: the names under which an object reads the options that it is given.
* `Tied`: two actions that give the same result wherever their states are related. It is kept by
  the ways of putting actions together (`Tied.map`, `Tied.seq`, `Tied.times`).
* `tied_draw`: drawings with options that agree on the names read are tied.
* `Grammar.handed`: the options that each leaf is given. `hands_draw`: the calls of a drawing.
* `drawing_reads_leaf_names`: a drawing depends on the options under the names read only.
-/

namespace Railroad

namespace Options

/-- Two sets of options have the same values under the names of a list. -/
def AgreeOn (names : List String) (o₁ o₂ : Options) : Prop :=
  ∀ name ∈ names, o₁.get name = o₂.get name

theorem AgreeOn.left {xs ys : List String} {o₁ o₂ : Options} (h : AgreeOn (xs ++ ys) o₁ o₂) :
    AgreeOn xs o₁ o₂ :=
  fun name hname => h name (List.mem_append_left ys hname)

theorem AgreeOn.right {xs ys : List String} {o₁ o₂ : Options} (h : AgreeOn (xs ++ ys) o₁ o₂) :
    AgreeOn ys o₁ o₂ :=
  fun name hname => h name (List.mem_append_right xs hname)

/-- Options that agree up to one name agree once this name has the same value. -/
theorem AgreeOn.set {names : List String} {o₁ o₂ : Options} {name : String}
    (h : AgreeOn (names.filter fun other => decide (other ≠ name)) o₁ o₂) (value : OptionValue) :
    AgreeOn names (o₁.set name value) (o₂.set name value) := by
  intro other hother
  by_cases heq : other = name
  -- what was there before is hidden on both sides
  · rw [heq, get_set_self, get_set_self]
  · rw [get_set_of_ne heq, get_set_of_ne heq]
    exact h other (List.mem_filter.mpr ⟨hother, decide_eq_true heq⟩)

/-- A value under a name that is not in the list makes no difference. -/
theorem agreeOn_set {names : List String} {name : String} (h : name ∉ names) (o : Options)
    (value : OptionValue) : AgreeOn names (o.set name value) o := by
  intro other hother
  have hne : other ≠ name := fun heq => h (heq ▸ hother)
  exact get_set_of_ne hne o value

end Options

namespace Grammar

open Options (AgreeOn)

variable {L σ α β γ : Type} {leaf : L → Drawing σ} {names : L → List String}

/-! ## Names read -/

mutual

/-- The names under which an object reads the options that it is given: those of its leaves, but for
names that are adjusted above the leaf, and those that say how often something is drawn. -/
def reads (names : L → List String) : Grammar L → List String
  | .leaf l => names l
  | .held _ x => reads names x
  | .present x => reads names x
  | .absent => []
  | .row _ xs => readsAll names xs
  | .first xs => readsAll names xs
  | .optional x => reads names x
  | .oneOrMore x => reads names x
  | .zeroOrMore x => reads names x
  | .separated x delimiter => reads names x ++ reads names delimiter
  | .adjusted name _ x => (reads names x).filter fun other => decide (other ≠ name)
  | .repeated name x => name :: reads names x

/-- The names under which the objects of a list read the options. -/
def readsAll (names : L → List String) : List (Grammar L) → List String
  | [] => []
  | x :: rest => reads names x ++ readsAll names rest

end

mutual

/-- Nothing in the object is drawn as often as an option says. -/
def unrepeated : Grammar L → Bool
  | .leaf _ => true
  | .held _ x => unrepeated x
  | .present x => unrepeated x
  | .absent => true
  | .row _ xs => unrepeatedAll xs
  | .first xs => unrepeatedAll xs
  | .optional x => unrepeated x
  | .oneOrMore x => unrepeated x
  | .zeroOrMore x => unrepeated x
  | .separated x delimiter => unrepeated x && unrepeated delimiter
  | .adjusted _ _ x => unrepeated x
  | .repeated _ _ => false

/-- Nothing in the objects of a list is drawn as often as an option says. -/
def unrepeatedAll : List (Grammar L) → Bool
  | [] => true
  | x :: rest => unrepeated x && unrepeatedAll rest

end

mutual

/-- **Only leaves read options**, as long as nothing is drawn as often as an option says. -/
theorem exists_leaf_of_mem_reads {name : String} : ∀ (g : Grammar L) (o : Options),
    g.unrepeated → name ∈ g.reads names → ∃ l ∈ g.leaves o, name ∈ names l
  | .leaf l, _, _, h => ⟨l, List.mem_singleton_self l, h⟩
  | .held _ x, o, hx, h => exists_leaf_of_mem_reads x o hx h
  | .present x, o, hx, h => exists_leaf_of_mem_reads x o hx h
  | .absent, _, _, h => absurd h List.not_mem_nil
  | .row _ xs, o, hx, h => exists_leaf_of_mem_readsAll xs o hx h
  | .first xs, o, hx, h => exists_leaf_of_mem_readsAll xs o hx h
  | .optional x, o, hx, h => exists_leaf_of_mem_reads x o hx h
  | .oneOrMore x, o, hx, h => exists_leaf_of_mem_reads x o hx h
  | .zeroOrMore x, o, hx, h => exists_leaf_of_mem_reads x o hx h
  | .separated x delimiter, o, hx, h => by
    obtain ⟨hbody, hdelimiter⟩ := Bool.and_eq_true_iff.mp hx
    rcases List.mem_append.mp h with h | h
    · obtain ⟨l, hl, hname⟩ := exists_leaf_of_mem_reads x o hbody h
      exact ⟨l, List.mem_append_left _ hl, hname⟩
    · obtain ⟨l, hl, hname⟩ := exists_leaf_of_mem_reads delimiter o hdelimiter h
      exact ⟨l, List.mem_append_right _ hl, hname⟩
  | .adjusted other value x, o, hx, h =>
    exists_leaf_of_mem_reads x (o.set other value) hx (List.mem_filter.mp h).1
  | .repeated _ _, _, hx, _ => absurd hx Bool.false_ne_true

theorem exists_leaf_of_mem_readsAll {name : String} : ∀ (xs : List (Grammar L)) (o : Options),
    unrepeatedAll xs → name ∈ readsAll names xs → ∃ l ∈ leavesAll xs o, name ∈ names l
  | [], _, _, h => absurd h List.not_mem_nil
  | x :: rest, o, hx, h => by
    obtain ⟨hfirst, hrest⟩ := Bool.and_eq_true_iff.mp hx
    rcases List.mem_append.mp h with h | h
    · obtain ⟨l, hl, hname⟩ := exists_leaf_of_mem_reads x o hfirst h
      exact ⟨l, List.mem_append_left _ hl, hname⟩
    · obtain ⟨l, hl, hname⟩ := exists_leaf_of_mem_readsAll rest o hrest h
      exact ⟨l, List.mem_append_right _ hl, hname⟩

end

/-! ## Tied actions -/

/-- Two actions give the same result in related states and leave related states. -/
def Tied (R : σ → σ → Prop) (x y : StateM σ α) : Prop :=
  ∀ s t, R s t → (x.run s).1 = (y.run t).1 ∧ R (x.run s).2 (y.run t).2

namespace Tied

variable {R : σ → σ → Prop} {x y : StateM σ α} {x' y' : StateM σ β}

theorem pure (a : α) : Tied R (pure a) (pure a) :=
  fun _ _ hst => ⟨rfl, hst⟩

theorem map (hx : Tied R x y) (f : α → β) :
    Tied R (do let a ← x; return f a) (do let a ← y; return f a) := by
  intro s t hst
  obtain ⟨hresult, hafter⟩ := hx s t hst
  exact ⟨congrArg f hresult, hafter⟩

theorem seq (hx : Tied R x y) (hx' : Tied R x' y') (f : α → β → γ) :
    Tied R (do let a ← x; let b ← x'; return f a b) (do let a ← y; let b ← y'; return f a b) := by
  intro s t hst
  obtain ⟨hresult, hafter⟩ := hx s t hst
  obtain ⟨hresult', hafter'⟩ := hx' _ _ hafter
  exact ⟨congrArg₂ f hresult hresult', hafter'⟩

theorem times (hx : Tied R x y) (n : Nat) : Tied R (times x n) (times y n) := by
  induction n with
  | zero => exact .pure []
  | succ n ih => exact hx.seq ih List.cons

end Tied

theorem repetitions_congr {name : String} {o₁ o₂ : Options} (h : o₁.get name = o₂.get name) :
    repetitions name o₁ = repetitions name o₂ := by
  rw [repetitions, repetitions, Options.getInt, Options.getInt, h]

/-- Leaves are tied if their options agree on the names that they read. -/
def LeavesTied (R : σ → σ → Prop) (leaf : L → Drawing σ) (names : L → List String) : Prop :=
  ∀ l o₁ o₂, AgreeOn (names l) o₁ o₂ → Tied R (leaf l o₁) (leaf l o₂)

mutual

/-- **Drawings are tied** if their options agree on the names read, as soon as leaves are. -/
theorem tied_draw {R : σ → σ → Prop} (hleaf : LeavesTied R leaf names) :
    ∀ (g : Grammar L) (o₁ o₂ : Options), AgreeOn (g.reads names) o₁ o₂ →
      Tied R (draw leaf g o₁) (draw leaf g o₂)
  | .leaf l, o₁, o₂, h => hleaf l o₁ o₂ h
  | .held _ x, o₁, o₂, h => tied_draw hleaf x o₁ o₂ h
  | .present x, o₁, o₂, h => tied_draw hleaf x o₁ o₂ h
  | .absent, _, _, _ => .pure Diagram.nothing
  | .row _ xs, o₁, o₂, h => (tied_drawAll hleaf xs o₁ o₂ h).map Diagram.sequence
  | .first xs, o₁, o₂, h => (tied_drawAll hleaf xs o₁ o₂ h).map Diagram.choice
  | .optional x, o₁, o₂, h => (tied_draw hleaf x o₁ o₂ h).map Diagram.optional
  | .oneOrMore x, o₁, o₂, h => (tied_draw hleaf x o₁ o₂ h).map Diagram.oneOrMore
  | .zeroOrMore x, o₁, o₂, h => (tied_draw hleaf x o₁ o₂ h).map Diagram.zeroOrMore
  | .separated x delimiter, o₁, o₂, h =>
    (tied_draw hleaf x o₁ o₂ h.left).seq (tied_draw hleaf delimiter o₁ o₂ h.right) Diagram.separated
  | .adjusted name value x, o₁, o₂, h =>
    tied_draw hleaf x (o₁.set name value) (o₂.set name value) (h.set value)
  | .repeated name x, o₁, o₂, h => by
    have hcount := repetitions_congr (h name List.mem_cons_self)
    have hx := tied_draw hleaf x o₁ o₂ fun other hother => h other (List.mem_cons_of_mem name hother)
    unfold draw
    rw [hcount]
    exact (hx.times _).map Diagram.sequence

theorem tied_drawAll {R : σ → σ → Prop} (hleaf : LeavesTied R leaf names) :
    ∀ (xs : List (Grammar L)) (o₁ o₂ : Options), AgreeOn (readsAll names xs) o₁ o₂ →
      Tied R (drawAll leaf xs o₁) (drawAll leaf xs o₂)
  | [], _, _, _ => .pure []
  | x :: rest, o₁, o₂, h =>
    (tied_draw hleaf x o₁ o₂ h.left).seq (tied_drawAll hleaf rest o₁ o₂ h.right) List.cons

end

/-! ## Options handed down -/

/-- What a leaf is called with. -/
def Call.given (call : Call L σ) : L × Options :=
  (call.leaf, call.options)

mutual

/-- The leaves of an object in the order of their calls, each with the options that it is given:
those of the object, changed by the adjustments above the leaf. -/
def handed : Grammar L → Options → List (L × Options)
  | .leaf l, o => [(l, o)]
  | .held _ x, o => handed x o
  | .present x, o => handed x o
  | .absent, _ => []
  | .row _ xs, o => handedAll xs o
  | .first xs, o => handedAll xs o
  | .optional x, o => handed x o
  | .oneOrMore x, o => handed x o
  | .zeroOrMore x, o => handed x o
  | .separated x delimiter, o => handed x o ++ handed delimiter o
  | .adjusted name value x, o => handed x (o.set name value)
  | .repeated name x, o => (List.replicate (repetitions name o) (handed x o)).flatten

/-- The leaves of one object after the other, each with the options that it is given. -/
def handedAll : List (Grammar L) → Options → List (L × Options)
  | [], _ => []
  | x :: rest, o => handed x o ++ handedAll rest o

end

/-- An action calls leaves with the given options, one after the other. -/
def Hands (action : StateM (σ × List (Call L σ)) α) (given : List (L × Options)) : Prop :=
  ∀ state, (action.run state).2.2.map Call.given = state.2.map Call.given ++ given

namespace Hands

variable {x : StateM (σ × List (Call L σ)) α} {y : StateM (σ × List (Call L σ)) β}
  {xs ys : List (L × Options)}

theorem pure (a : α) : Hands (σ := σ) (pure a) ([] : List (L × Options)) :=
  fun _ => (List.append_nil _).symm

theorem call (l : L) (o : Options) : Hands (recording leaf l o) [(l, o)] :=
  fun _ => List.map_append

theorem map (hx : Hands x xs) (f : α → β) : Hands (do let a ← x; return f a) xs :=
  hx

theorem seq (hx : Hands x xs) (hy : Hands y ys) (f : α → β → γ) :
    Hands (do let a ← x; let b ← y; return f a b) (xs ++ ys) := by
  intro state
  rw [run_bind, run_bind]
  show ((y.run (x.run state).2).2.2).map Call.given = _
  rw [hy, hx, List.append_assoc]

theorem times (hx : Hands x xs) (n : Nat) :
    Hands (times x n) (List.replicate n xs).flatten := by
  induction n with
  | zero => exact .pure []
  | succ n ih => exact hx.seq ih List.cons

end Hands

mutual

/-- **A drawing hands the options down** to its leaves, changed by adjustments only. -/
theorem hands_draw (leaf : L → Drawing σ) : ∀ (g : Grammar L) (o : Options),
    Hands (draw (recording leaf) g o) (g.handed o)
  | .leaf l, o => .call l o
  | .held _ x, o => hands_draw leaf x o
  | .present x, o => hands_draw leaf x o
  | .absent, _ => .pure Diagram.nothing
  | .row _ xs, o => (hands_drawAll leaf xs o).map Diagram.sequence
  | .first xs, o => (hands_drawAll leaf xs o).map Diagram.choice
  | .optional x, o => (hands_draw leaf x o).map Diagram.optional
  | .oneOrMore x, o => (hands_draw leaf x o).map Diagram.oneOrMore
  | .zeroOrMore x, o => (hands_draw leaf x o).map Diagram.zeroOrMore
  | .separated x delimiter, o =>
    (hands_draw leaf x o).seq (hands_draw leaf delimiter o) Diagram.separated
  | .adjusted name value x, o => hands_draw leaf x (o.set name value)
  | .repeated name x, o => ((hands_draw leaf x o).times (repetitions name o)).map Diagram.sequence

theorem hands_drawAll (leaf : L → Drawing σ) : ∀ (xs : List (Grammar L)) (o : Options),
    Hands (drawAll (recording leaf) xs o) (handedAll xs o)
  | [], _ => .pure []
  | x :: rest, o => (hands_draw leaf x o).seq (hands_drawAll leaf rest o) List.cons

end

theorem hands_drawInTurn (leaf : L → Drawing σ) (draws : List (Grammar L × Options)) :
    Hands (drawInTurn (recording leaf) draws) (draws.flatMap fun e => e.1.handed e.2) := by
  induction draws with
  | nil => exact .pure []
  | cons e rest ih =>
    rw [drawInTurn, List.mapM_cons, List.flatMap_cons]
    exact (hands_draw leaf e.1 e.2).seq ih List.cons

/-! ## Drawings and the options that they read -/

/-- The leaves heed the options under their names only. -/
def HeedsOnly (leaf : L → Drawing σ) (names : L → List String) : Prop :=
  ∀ l o₁ o₂, AgreeOn (names l) o₁ o₂ → leaf l o₁ = leaf l o₂

/-- All there is to a call but the options. -/
def Call.seen (call : Call L σ) : L × σ × Diagram × σ :=
  (call.leaf, call.before, call.drawn, call.after)

/-- An object is drawn alike with two sets of options: it makes the same diagram, leaves the same
state, and calls the same leaves in the same states with the same results. -/
def AlikeUnder (leaf : L → Drawing σ) (g : Grammar L) (o₁ o₂ : Options) : Prop :=
  ∀ s, (draw leaf g o₁).run s = (draw leaf g o₂).run s ∧
    (calls leaf g o₁ s).map Call.seen = (calls leaf g o₂ s).map Call.seen

/-- States with records of calls that are the same but for the options. -/
def SameButOptions (s t : σ × List (Call L σ)) : Prop :=
  s.1 = t.1 ∧ s.2.map Call.seen = t.2.map Call.seen

theorem HeedsOnly.tied (h : HeedsOnly leaf names) : LeavesTied Eq leaf names := by
  rintro l o₁ o₂ ho s _ rfl
  rw [h l o₁ o₂ ho]
  exact ⟨rfl, rfl⟩

theorem HeedsOnly.tied_recording (h : HeedsOnly leaf names) :
    LeavesTied SameButOptions (recording leaf) names := by
  rintro l o₁ o₂ ho ⟨s, xs⟩ ⟨_, ys⟩ ⟨rfl, hxs⟩
  unfold recording
  rw [h l o₁ o₂ ho]
  refine ⟨rfl, rfl, ?_⟩
  show (xs ++ [_]).map Call.seen = (ys ++ [_]).map Call.seen
  rw [List.map_append, List.map_append, hxs]
  rfl

theorem alikeUnder_of_agreeOn (h : HeedsOnly leaf names) {g : Grammar L} {o₁ o₂ : Options}
    (ho : AgreeOn (g.reads names) o₁ o₂) : AlikeUnder leaf g o₁ o₂ := by
  intro s
  obtain ⟨hdrawn, hafter⟩ := tied_draw h.tied g o₁ o₂ ho s s rfl
  obtain ⟨-, -, hcalls⟩ := tied_draw h.tied_recording g o₁ o₂ ho (s, []) (s, []) ⟨rfl, rfl⟩
  exact ⟨Prod.ext hdrawn hafter, hcalls⟩

/-- **A drawing reads the names of its leaves.** Let leaves heed the options under their names only.
Options that agree on the names read by an object draw it alike. An object whose leaves read nothing
is drawn alike with any options, unless something in it is drawn as often as an option says. A value
under a name that is not read makes no difference. And in draws one after the other each leaf is
given the options of its draw, changed by the adjustments above this leaf and by no others. -/
theorem drawing_reads_leaf_names (h : HeedsOnly leaf names) :
    (∀ g o₁ o₂, AgreeOn (g.reads names) o₁ o₂ → AlikeUnder leaf g o₁ o₂) ∧
    (∀ g, g.unrepeated → (∀ l ∈ g.leaves .empty, names l = []) →
      ∀ o₁ o₂, AlikeUnder leaf g o₁ o₂) ∧
    (∀ g o name value, name ∉ g.reads names → AlikeUnder leaf g (o.set name value) o) ∧
    ∀ draws s, ((drawInTurn (recording leaf) draws).run (s, [])).2.2.map Call.given =
      draws.flatMap fun e => e.1.handed e.2 := by
  refine ⟨fun g o₁ o₂ => alikeUnder_of_agreeOn h, fun g hg hleaves o₁ o₂ => ?_,
    fun g o name value hname => alikeUnder_of_agreeOn h (Options.agreeOn_set hname o value),
    fun draws s => hands_drawInTurn leaf draws (s, [])⟩
  refine alikeUnder_of_agreeOn h fun name hname => ?_
  obtain ⟨l, hl, hread⟩ := exists_leaf_of_mem_reads g .empty hg hname
  rw [hleaves l hl] at hread
  exact absurd hread List.not_mem_nil

/-- The names under which ready-made leaves read options. -/
def leafNames : Leaf → List String
  | .literal _ => []
  | .keyword _ => ["case-insensitive"]
  | .greeting => ["target"]
  | .fixed _ => []
  | .counting => []
  | .shown name => [name]

theorem heedsOnly_leafNames [CallCounter σ] : HeedsOnly (Leaf.draw (σ := σ)) leafNames := by
  intro l o₁ o₂ h
  cases l with
  | literal text => rfl
  | keyword text =>
    have hvalue := h "case-insensitive" List.mem_cons_self
    have hkind : Leaf.keywordKind o₁ = Leaf.keywordKind o₂ := by
      unfold Leaf.keywordKind Options.getBool
      rw [hvalue]
    simp only [Leaf.draw, hkind]
  | greeting =>
    have hvalue := h "target" List.mem_cons_self
    simp only [Leaf.draw, Options.getText, hvalue]
  | fixed d => rfl
  | counting => rfl
  | shown name =>
    have hvalue := h name List.mem_cons_self
    simp only [Leaf.draw, hvalue]

/-- A keyword beside a greeting whose target is set. -/
def greetingOfYou : Grammar Leaf :=
  .row .owned [.leaf (.keyword "hello"), .adjusted "target" (.text "you") (.leaf .greeting)]

theorem drawing_reads_leaf_names_greetingOfYou :
    let o : Options := Options.empty.set "target" (.text "all")
    HeedsOnly (Leaf.draw (σ := Nat)) leafNames ∧
      "target" ∉ greetingOfYou.reads leafNames ∧
      (draw Leaf.draw greetingOfYou o).run 0 =
        (.sequence [.token (.literal "hello"),
          .sequence [.token (.literal "Hello, "), .token (.literal "you")]], 0) := by
  intro o
  have hname : "target" ∉ greetingOfYou.reads leafNames := by decide
  obtain ⟨-, -, hunread, -⟩ := drawing_reads_leaf_names (heedsOnly_leafNames (σ := Nat))
  have hsame := (hunread greetingOfYou .empty "target" (.text "all") hname 0).1
  refine ⟨heedsOnly_leafNames, hname, ?_⟩
  rw [hsame]
  rfl

end Grammar

end Railroad
