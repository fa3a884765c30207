import Mathlib.Logic.Relation
import Railroad.Grammar.Call
import Railroad.Grammar.SelfDrawing

/-!
# Wrappers

Some objects only stand around another object: holders, the presence of an optional object, and the
ownership of a row. They leave no trace in a drawing, wherever they stand.

* `Grammar.bare`: an object without its wrappers.
* `Wraps`: one wrapper is put around one part. `wrapped_bare`: every object is its bare object with
  wrappers put around parts of it; `wrappers_bare`: the bare object has none.
* `draw_fill_congr`: what stands around a part sees only how the part is drawn.
* `wrappers_are_invisible`: an object and its bare object are drawn alike, call by call.
-/

namespace Railroad.Grammar

variable {L σ : Type}

/-! ## Objects without wrappers -/

mutual

/-- The object without its wrappers. Rows are views of their elements. -/
def bare : Grammar L → Grammar L
  | .leaf l => .leaf l
  | .held _ x => bare x
  | .present x => bare x
  | .absent => .absent
  | .row _ xs => .row .view (bareAll xs)
  | .first xs => .first (bareAll xs)
  | .optional x => .optional (bare x)
  | .oneOrMore x => .oneOrMore (bare x)
  | .zeroOrMore x => .zeroOrMore (bare x)
  | .separated x delimiter => .separated (bare x) (bare delimiter)
  | .adjusted name value x => .adjusted name value (bare x)
  | .repeated name x => .repeated name (bare x)

/-- Each object of a list without its wrappers. -/
def bareAll : List (Grammar L) → List (Grammar L)
  | [] => []
  | x :: rest => bare x :: bareAll rest

end

mutual

/-- The number of wrappers in an object. -/
def wrappers : Grammar L → Nat
  | .leaf _ => 0
  | .held _ x => wrappers x + 1
  | .present x => wrappers x + 1
  | .absent => 0
  | .row .owned xs => wrappersAll xs + 1
  | .row .view xs => wrappersAll xs
  | .first xs => wrappersAll xs
  | .optional x => wrappers x
  | .oneOrMore x => wrappers x
  | .zeroOrMore x => wrappers x
  | .separated x delimiter => wrappers x + wrappers delimiter
  | .adjusted _ _ x => wrappers x
  | .repeated _ x => wrappers x

/-- The number of wrappers in all objects of a list. -/
def wrappersAll : List (Grammar L) → Nat
  | [] => 0
  | x :: rest => wrappers x + wrappersAll rest

end

mutual

/-- **The bare object has no wrappers.** -/
theorem wrappers_bare : ∀ g : Grammar L, g.bare.wrappers = 0
  | .leaf _ => rfl
  | .held _ x => wrappers_bare x
  | .present x => wrappers_bare x
  | .absent => rfl
  | .row _ xs => wrappersAll_bareAll xs
  | .first xs => wrappersAll_bareAll xs
  | .optional x => wrappers_bare x
  | .oneOrMore x => wrappers_bare x
  | .zeroOrMore x => wrappers_bare x
  | .separated x delimiter => by
    rw [bare, wrappers, wrappers_bare x, wrappers_bare delimiter]
  | .adjusted _ _ x => wrappers_bare x
  | .repeated _ x => wrappers_bare x

theorem wrappersAll_bareAll : ∀ xs : List (Grammar L), wrappersAll (bareAll xs) = 0
  | [] => rfl
  | x :: rest => by rw [bareAll, wrappersAll, wrappers_bare x, wrappersAll_bareAll rest]

end

/-! ## Putting wrappers around parts -/

/-- What stands directly around a part of an object. -/
inductive Frame (L : Type) where
  | held (holder : Holder)
  | present
  | row (r : Row) (before after : List (Grammar L))
  | first (before after : List (Grammar L))
  | optional
  | oneOrMore
  | zeroOrMore
  | bodyOf (delimiter : Grammar L)
  | delimiterOf (body : Grammar L)
  | adjusted (name : String) (value : OptionValue)
  | repeated (name : String)

/-- The object in which `x` stands in a given frame. -/
def Frame.fill : Frame L → Grammar L → Grammar L
  | .held holder, x => .held holder x
  | .present, x => .present x
  | .row r before after, x => .row r (before ++ x :: after)
  | .first before after, x => .first (before ++ x :: after)
  | .optional, x => .optional x
  | .oneOrMore, x => .oneOrMore x
  | .zeroOrMore, x => .zeroOrMore x
  | .bodyOf delimiter, x => .separated x delimiter
  | .delimiterOf body, x => .separated body x
  | .adjusted name value, x => .adjusted name value x
  | .repeated name, x => .repeated name x

/-- One wrapper is put around one part of an object, however deep the part stands. -/
inductive Wraps : Grammar L → Grammar L → Prop where
  | held (holder : Holder) (x : Grammar L) : Wraps x (.held holder x)
  | present (x : Grammar L) : Wraps x (.present x)
  | owned (xs : List (Grammar L)) : Wraps (.row .view xs) (.row .owned xs)
  | inside (frame : Frame L) {x y : Grammar L} (h : Wraps x y) :
      Wraps (frame.fill x) (frame.fill y)

/-- Any number of wrappers are put around parts of an object, one after the other. -/
abbrev Wrapped : Grammar L → Grammar L → Prop :=
  Relation.ReflTransGen Wraps

theorem Wrapped.inside (frame : Frame L) {x y : Grammar L} (h : Wrapped x y) :
    Wrapped (frame.fill x) (frame.fill y) :=
  Relation.ReflTransGen.lift frame.fill (fun _ _ hxy => Wraps.inside frame hxy) x y h

mutual

/-- **Every object is its bare object with wrappers** put around parts of it. -/
theorem wrapped_bare : ∀ g : Grammar L, Wrapped g.bare g
  | .leaf _ => .refl
  | .held holder x => .tail (wrapped_bare x) (.held holder x)
  | .present x => .tail (wrapped_bare x) (.present x)
  | .absent => .refl
  | .row .view xs => wrapped_bareAll (.row .view) (.row .view) (fun _ _ _ => rfl) xs []
  | .row .owned xs =>
    .tail (wrapped_bareAll (.row .view) (.row .view) (fun _ _ _ => rfl) xs []) (.owned xs)
  | .first xs => wrapped_bareAll .first .first (fun _ _ _ => rfl) xs []
  | .optional x => Wrapped.inside .optional (wrapped_bare x)
  | .oneOrMore x => Wrapped.inside .oneOrMore (wrapped_bare x)
  | .zeroOrMore x => Wrapped.inside .zeroOrMore (wrapped_bare x)
  | .separated x delimiter =>
    (Wrapped.inside (.bodyOf delimiter.bare) (wrapped_bare x)).trans
      (Wrapped.inside (.delimiterOf x) (wrapped_bare delimiter))
  | .adjusted name value x => Wrapped.inside (.adjusted name value) (wrapped_bare x)
  | .repeated name x => Wrapped.inside (.repeated name) (wrapped_bare x)

/-- The elements of a list get their wrappers one after the other. -/
theorem wrapped_bareAll (make : List (Grammar L) → Grammar L)
    (frame : List (Grammar L) → List (Grammar L) → Frame L)
    (hfill : ∀ before after x, (frame before after).fill x = make (before ++ x :: after)) :
    ∀ xs before : List (Grammar L), Wrapped (make (before ++ bareAll xs)) (make (before ++ xs))
  | [], _ => .refl
  | x :: rest, before => by
    have hx := Wrapped.inside (frame before (bareAll rest)) (wrapped_bare x)
    have hrest := wrapped_bareAll make frame hfill rest (before ++ [x])
    rw [hfill, hfill] at hx
    rw [List.append_assoc, List.append_assoc] at hrest
    exact hx.trans hrest

end

/-! ## Drawing -/

theorem drawAll_append (leaf : L → Drawing σ) (xs ys : List (Grammar L)) (o : Options) :
    drawAll leaf (xs ++ ys) o = do
      let ds ← drawAll leaf xs o
      let es ← drawAll leaf ys o
      return ds ++ es := by
  induction xs with
  | nil => rfl
  | cons x rest ih => rw [List.cons_append, drawAll, ih]; rfl

/-- **What stands around a part** sees only how the part is drawn. -/
theorem draw_fill_congr (leaf : L → Drawing σ) (frame : Frame L) {x y : Grammar L}
    (h : draw leaf x = draw leaf y) : draw leaf (frame.fill x) = draw leaf (frame.fill y) := by
  have hall (before after : List (Grammar L)) (o : Options) :
      drawAll leaf (before ++ x :: after) o = drawAll leaf (before ++ y :: after) o := by
    rw [drawAll_append, drawAll_append, drawAll, drawAll, h]
  funext o
  cases frame with
  | row r before after => simp only [Frame.fill, draw, hall]
  | first before after => simp only [Frame.fill, draw, hall]
  | _ => simp only [Frame.fill, draw, h]

theorem draw_eq_of_wraps (leaf : L → Drawing σ) {x y : Grammar L} (h : Wraps x y) :
    draw leaf x = draw leaf y := by
  induction h with
  | held holder x => rfl
  | present x => rfl
  | owned xs => rfl
  | inside frame _ ih => exact draw_fill_congr leaf frame ih

theorem draw_eq_of_wrapped (leaf : L → Drawing σ) {x y : Grammar L} (h : Wrapped x y) :
    draw leaf x = draw leaf y := by
  induction h with
  | refl => rfl
  | tail _ hlast ih => exact ih.trans (draw_eq_of_wraps leaf hlast)

/-- Two objects are drawn alike: they make the same diagram, leave the same state, and call the same
leaves with the same options in the same states. -/
def DrawnAlike (leaf : L → Drawing σ) (x y : Grammar L) : Prop :=
  ∀ o s, (draw leaf x o).run s = (draw leaf y o).run s ∧ calls leaf x o s = calls leaf y o s

theorem drawnAlike_of_wrapped (leaf : L → Drawing σ) {x y : Grammar L} (h : Wrapped x y) :
    DrawnAlike leaf x y := by
  intro o s
  unfold calls
  rw [draw_eq_of_wrapped leaf h, draw_eq_of_wrapped (recording leaf) h]
  exact ⟨rfl, rfl⟩

/-- **Wrappers are invisible.** Every object is its bare object, which has no wrappers, with
wrappers put around parts of it. The two are drawn alike, and so are any two objects of which one is
the other with wrappers put around parts of it. An object whose leaves draw themselves draws itself
that way. -/
theorem wrappers_are_invisible (leaf : L → Drawing σ) (g : Grammar L) :
    g.bare.wrappers = 0 ∧ Wrapped g.bare g ∧
    DrawnAlike leaf g.bare g ∧
    (∀ g', Wrapped g g' → DrawnAlike leaf g g') ∧
    letI : SelfDrawing σ L := ⟨leaf⟩
    drawSelf g = draw leaf g :=
  ⟨wrappers_bare g, wrapped_bare g, drawnAlike_of_wrapped leaf (wrapped_bare g),
    fun _ h => drawnAlike_of_wrapped leaf h, rfl⟩

theorem wrappers_are_invisible_boxedCounter :
    let plain : Grammar Leaf := .row .view [.leaf .counting, .absent]
    let wrapped : Grammar Leaf := .present (.row .view [.held .box (.leaf .counting), .absent])
    Wrapped plain wrapped ∧
      (draw Leaf.draw wrapped .empty).run 0 =
        (.sequence [.token (.description "call 1"), .nothing], 1) := by
  intro plain wrapped
  have hbox : Wraps plain (.row .view [.held .box (.leaf .counting), .absent]) :=
    .inside (.row .view [] [.absent]) (.held .box _)
  have hwrapped : Wrapped plain wrapped := .tail (.single hbox) (.present _)
  obtain ⟨-, -, -, halike, -⟩ := wrappers_are_invisible (σ := Nat) Leaf.draw plain
  have hsame := (halike wrapped hwrapped .empty 0).1
  rw [← hsame]
  exact ⟨hwrapped, rfl⟩

end Railroad.Grammar
