import Railroad.Grammar.Call
import Railroad.Proofs.Diagram.Visits

/-!
# What a drawing asks of the leaves

A drawing calls every leaf of its object once, from left to right, and makes nothing of the answers
but a larger diagram: the tokens of that diagram are the tokens of the answers, in the order of the
calls.

* `Follow`: calls that follow one another, each in the state that the one before has left.
* `Asks`: an action that calls given leaves and whose result has the tokens of their answers. It is
  kept by the ways of putting actions together (`Asks.map`, `Asks.seq`).
* `asks_draw`: every drawing calls the leaves of its object.
* `drawing_order_is_visiting_order`: the same of draws in a row.
-/

namespace Railroad.Grammar

variable {L σ α β γ : Type} {leaf : L → Drawing σ}

/-! ## Calls in a row -/

/-- The calls lead from one state to another: each is what its leaf does in the state that the call
before it has left. -/
inductive Follow (leaf : L → Drawing σ) : σ → List (Call L σ) → σ → Prop where
  | none (s : σ) : Follow leaf s [] s
  | call {l : L} {o : Options} {s s₁ s₂ : σ} {d : Diagram} {rest : List (Call L σ)}
      (hcall : (leaf l o).run s = (d, s₁)) (hrest : Follow leaf s₁ rest s₂) :
      Follow leaf s (⟨l, o, s, d, s₁⟩ :: rest) s₂

theorem Follow.append {s s₁ s₂ : σ} {xs ys : List (Call L σ)} (hx : Follow leaf s xs s₁)
    (hy : Follow leaf s₁ ys s₂) : Follow leaf s (xs ++ ys) s₂ := by
  induction hx with
  | none => exact hy
  | call hcall _ ih => exact .call hcall (ih hy)

/-- The tokens of the answers, in the order of the calls. -/
def answered (calls : List (Call L σ)) : List Token :=
  calls.flatMap fun c => c.drawn.tokens

theorem answered_append (xs ys : List (Call L σ)) :
    answered (xs ++ ys) = answered xs ++ answered ys :=
  List.flatMap_append

theorem answered_flatten (asked : List (List (Call L σ))) :
    answered asked.flatten = asked.flatMap answered := by
  rw [answered, List.flatten_eq_flatMap, List.flatMap_assoc]
  rfl

/-! ## Actions that call leaves -/

/-- The second of two actions begins in the state that the first has left. -/
theorem run_bind {τ : Type} (first : StateM τ α) (second : α → StateM τ β) (s : τ) :
    (first >>= second).run s = (second (first.run s).1).run (first.run s).2 := rfl

/-- An action calls the leaves `ls`, one after the other, and the tokens of its result are those of
their answers. With a record of the calls it does the same. -/
def Asks (leaf : L → Drawing σ) (action : StateM σ α) (recorded : StateM (σ × List (Call L σ)) α)
    (ls : List L) (tokens : α → List Token) : Prop :=
  ∀ s, ∃ calls, Follow leaf s calls (action.run s).2 ∧
    (∀ before, recorded.run (s, before) =
      ((action.run s).1, (action.run s).2, before ++ calls)) ∧
    calls.map Call.leaf = ls ∧
    tokens (action.run s).1 = answered calls

namespace Asks

variable {x : StateM σ α} {x' : StateM (σ × List (Call L σ)) α} {y : StateM σ β}
  {y' : StateM (σ × List (Call L σ)) β} {ls ms : List L} {ts : α → List Token}
  {us : β → List Token} {vs : γ → List Token}

/-- Nothing is called for a result that is there. -/
theorem pure {a : α} (ha : ts a = []) : Asks leaf (pure a) (pure a) [] ts :=
  fun s => ⟨[], .none s, fun before => by rw [List.append_nil]; rfl, rfl, ha⟩

/-- A leaf is called once. -/
theorem call (l : L) (o : Options) :
    Asks leaf (leaf l o) (recording leaf l o) [l] Diagram.tokens :=
  fun s => ⟨[⟨l, o, s, _, _⟩], .call rfl (.none _), fun _ => rfl, rfl,
    (List.append_nil _).symm⟩

/-- What is made of a result calls nothing more. -/
theorem map {f : α → β} (hx : Asks leaf x x' ls ts) (hf : ∀ a, us (f a) = ts a) :
    Asks leaf (do let a ← x; return f a) (do let a ← x'; return f a) ls us := by
  intro s
  obtain ⟨calls, hfollow, hrecord, hleaf, htokens⟩ := hx s
  refine ⟨calls, hfollow, fun before => ?_, hleaf, (hf _).trans htokens⟩
  rw [run_bind, hrecord]
  rfl

/-- Of two actions the first calls its leaves before the second. -/
theorem seq {f : α → β → γ} (hx : Asks leaf x x' ls ts) (hy : Asks leaf y y' ms us)
    (hf : ∀ a b, vs (f a b) = ts a ++ us b) :
    Asks leaf (do let a ← x; let b ← y; return f a b) (do let a ← x'; let b ← y'; return f a b)
      (ls ++ ms) vs := by
  intro s
  obtain ⟨calls, hfollow, hrecord, hleaf, htokens⟩ := hx s
  obtain ⟨later, hfollow', hrecord', hleaf', htokens'⟩ := hy (x.run s).2
  refine ⟨calls ++ later, hfollow.append hfollow', fun before => ?_, ?_, ?_⟩
  · rw [run_bind, run_bind, hrecord, hrecord', List.append_assoc]
    rfl
  · rw [List.map_append, hleaf, hleaf']
  · rw [answered_append, ← htokens, ← htokens', ← hf]
    rfl

/-- An action carried out several times calls its leaves each time. -/
theorem times (hx : Asks leaf x x' ls ts) (n : Nat) :
    Asks leaf (times x n) (times x' n) (List.replicate n ls).flatten (List.flatMap ts) := by
  induction n with
  | zero => exact .pure rfl
  | succ n ih => exact hx.seq ih fun _ _ => rfl

end Asks

/-! ## Drawings -/

mutual

/-- **A drawing calls the leaves of its object**, each once and in order, and the tokens of the
diagram are those of the answers. -/
theorem asks_draw (leaf : L → Drawing σ) : ∀ (g : Grammar L) (o : Options),
    Asks leaf (draw leaf g o) (draw (recording leaf) g o) (leaves g o) Diagram.tokens
  | .leaf l, o => .call l o
  | .held _ x, o => asks_draw leaf x o
  | .present x, o => asks_draw leaf x o
  | .absent, _ => .pure rfl
  | .row _ xs, o => (asks_drawAll leaf xs o).map Diagram.tokens_sequence
  | .first xs, o => (asks_drawAll leaf xs o).map Diagram.tokens_choice
  | .optional x, o => (asks_draw leaf x o).map fun d => by simp [Diagram.optional]
  | .oneOrMore x, o => (asks_draw leaf x o).map fun d => by simp [Diagram.oneOrMore]
  | .zeroOrMore x, o => (asks_draw leaf x o).map fun d => by
    simp [Diagram.zeroOrMore, Diagram.optional, Diagram.oneOrMore]
  | .separated x delimiter, o =>
    (asks_draw leaf x o).seq (asks_draw leaf delimiter o) Diagram.tokens_loop
  | .adjusted name value x, o => asks_draw leaf x (o.set name value)
  | .repeated name x, o =>
    ((asks_draw leaf x o).times (repetitions name o)).map Diagram.tokens_sequence

theorem asks_drawAll (leaf : L → Drawing σ) : ∀ (xs : List (Grammar L)) (o : Options),
    Asks leaf (drawAll leaf xs o) (drawAll (recording leaf) xs o) (leavesAll xs o)
      (List.flatMap Diagram.tokens)
  | [], _ => .pure rfl
  | x :: rest, o => (asks_draw leaf x o).seq (asks_drawAll leaf rest o) fun _ _ => rfl

end

/-! ## Numbered leaves -/

/-- The leaves that `counts` picks out count their calls and show the number in a label; the others
neither count nor show a label. -/
structure Numbered (leaf : L → Drawing σ) (counts : L → Bool) (count : σ → Nat)
    (label : Nat → Token) (isLabel : Token → Bool) : Prop where
  count_eq : ∀ l o s, count ((leaf l o).run s).2 = if counts l then count s + 1 else count s
  labels_eq : ∀ l o s, ((leaf l o).run s).1.tokens.filter isLabel =
    if counts l then [label (count s + 1)] else []

/-- Numbered leaves show consecutive numbers in the order of the calls. -/
theorem Follow.labels_eq {counts : L → Bool} {count : σ → Nat} {label : Nat → Token}
    {isLabel : Token → Bool} (hn : Numbered leaf counts count label isLabel) {s s' : σ}
    {calls : List (Call L σ)} (h : Follow leaf s calls s') :
    (answered calls).filter isLabel =
      (List.range' (count s + 1) ((calls.map Call.leaf).countP counts)).map label := by
  induction h with
  | none => rfl
  | @call l o s s₁ s₂ d rest hcall _ ih =>
    have hcount := hn.count_eq l o s
    have hlabels := hn.labels_eq l o s
    rw [hcall] at hcount hlabels
    show (d.tokens ++ answered rest).filter isLabel = _
    rw [List.filter_append, hlabels, ih, hcount, List.map_cons, List.countP_cons]
    cases counts l with
    | false => rfl
    | true => rfl

/-! ## Draws in a row -/

/-- Draws objects one after the other, each with its own options. -/
def drawInTurn (leaf : L → Drawing σ) (draws : List (Grammar L × Options)) :
    StateM σ (List Diagram) :=
  draws.mapM fun e => draw leaf e.1 e.2

theorem run_drawInTurn_cons (leaf : L → Drawing σ) (e : Grammar L × Options)
    (rest : List (Grammar L × Options)) (s : σ) :
    (drawInTurn leaf (e :: rest)).run s =
      (((draw leaf e.1 e.2).run s).1 ::
          ((drawInTurn leaf rest).run ((draw leaf e.1 e.2).run s).2).1,
        ((drawInTurn leaf rest).run ((draw leaf e.1 e.2).run s).2).2) := by
  rw [drawInTurn, List.mapM_cons]
  rfl

/-- Each of the draws calls the leaves of its object. -/
theorem exists_asked (leaf : L → Drawing σ) (draws : List (Grammar L × Options)) (s : σ) :
    ∃ asked : List (List (Call L σ)),
      Follow leaf s asked.flatten ((drawInTurn leaf draws).run s).2 ∧
      (∀ before, (drawInTurn (recording leaf) draws).run (s, before) =
        (((drawInTurn leaf draws).run s).1, ((drawInTurn leaf draws).run s).2,
          before ++ asked.flatten)) ∧
      asked.map (List.map Call.leaf) = draws.map (fun e => e.1.leaves e.2) ∧
      ((drawInTurn leaf draws).run s).1.map Diagram.tokens = asked.map answered := by
  induction draws generalizing s with
  | nil =>
    refine ⟨[], .none s, fun before => ?_, rfl, rfl⟩
    rw [List.flatten_nil, List.append_nil]
    rfl
  | cons e rest ih =>
    obtain ⟨calls, hfollow, hrecord, hleaf, htokens⟩ := asks_draw leaf e.1 e.2 s
    obtain ⟨asked, hfollow', hrecord', hleaf', htokens'⟩ := ih ((draw leaf e.1 e.2).run s).2
    rw [run_drawInTurn_cons]
    refine ⟨calls :: asked, hfollow.append hfollow', fun before => ?_, ?_, ?_⟩
    · rw [run_drawInTurn_cons, hrecord, hrecord', List.flatten_cons, List.append_assoc]
    · rw [List.map_cons, List.map_cons, hleaf, hleaf']
    · rw [List.map_cons, List.map_cons, htokens, htokens']

/-- **Drawing order is visiting order.** Draws in a row call every leaf of every object, once for
each draw and place in which it stands, and no leaf else; each call is made anew, in the state that
the call before it has left. The tokens that a visit of each diagram meets are those of the answers
to its calls, in the order of the calls. In particular, leaves that show the number of their call
appear in visiting order with consecutive numbers. -/
theorem drawing_order_is_visiting_order (leaf : L → Drawing σ)
    (draws : List (Grammar L × Options)) (s : σ) :
    ∃ (diagrams : List Diagram) (s' : σ) (asked : List (List (Call L σ))),
      (drawInTurn leaf draws).run s = (diagrams, s') ∧
      (drawInTurn (recording leaf) draws).run (s, []) = (diagrams, s', asked.flatten) ∧
      Follow leaf s asked.flatten s' ∧
      asked.map (List.map Call.leaf) = draws.map (fun e => e.1.leaves e.2) ∧
      diagrams.map Diagram.tokens = asked.map answered ∧
      ∀ counts count label isLabel, Numbered leaf counts count label isLabel →
        (diagrams.flatMap Diagram.tokens).filter isLabel =
          (List.range' (count s + 1)
            ((draws.flatMap fun e => e.1.leaves e.2).countP counts)).map label := by
  obtain ⟨asked, hfollow, hrecord, hleaf, htokens⟩ := exists_asked leaf draws s
  refine ⟨((drawInTurn leaf draws).run s).1, ((drawInTurn leaf draws).run s).2, asked, rfl,
    hrecord [], hfollow, hleaf, htokens, ?_⟩
  intro counts count label isLabel hn
  have hcalls : asked.flatten.map Call.leaf = draws.flatMap fun e => e.1.leaves e.2 := by
    rw [List.map_flatten, hleaf, List.flatMap_def]
  have hvisited : ((drawInTurn leaf draws).run s).1.flatMap Diagram.tokens =
      answered asked.flatten := by
    rw [answered_flatten, List.flatMap_def, htokens, List.flatMap_def]
  rw [hvisited, ← hcalls]
  exact hfollow.labels_eq hn

/-- Draws the number of the call, or else a comma. -/
def numbering : Bool → Drawing Nat
  | true, _ => fun n => (.token (.description ("call " ++ toString (n + 1))), n + 1)
  | false, _ => pure (.token (.literal ","))

theorem drawing_order_is_visiting_order_numbering :
    let list : Grammar Bool × Options :=
      (.separated (.row .owned [.leaf true, .held .box (.leaf true)]) (.leaf false), .empty)
    let count (n : Nat) : Token := .description ("call " ++ toString n)
    let isCount (t : Token) : Bool := decide (t.kind = .description)
    Numbered numbering id id count isCount ∧
      (((drawInTurn numbering [list, list]).run 0).1.flatMap Diagram.tokens).filter isCount =
        [count 1, count 2, count 3, count 4] := by
  intro list count isCount
  have hn : Numbered numbering id id count isCount :=
    ⟨fun l o n => by cases l <;> rfl, fun l o n => by cases l <;> rfl⟩
  obtain ⟨diagrams, s', asked, hrun, -, -, -, -, hlabels⟩ :=
    drawing_order_is_visiting_order numbering [list, list] 0
  rw [hrun]
  exact ⟨hn, hlabels id id count isCount hn⟩

end Railroad.Grammar
