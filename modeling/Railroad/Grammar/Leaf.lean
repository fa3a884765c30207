import Railroad.Grammar.Basic

/-!
# Ready-made leaves

Leaves for grammar objects, such as `Literal`, `Keyword` and `Fixed`: texts, keywords that heed an
option, finished diagrams, the value of an option, and a leaf that tells how many such leaves have
been drawn so far.
-/

namespace Railroad

/-- A state that counts calls. -/
class CallCounter (σ : Type) where
  /-- The number of the next call, the first call having number 1. -/
  nextCall : StateM σ Nat

/-- A number counts the calls that have been made. -/
instance : CallCounter Nat where
  nextCall := fun calls => (calls + 1, calls + 1)

/-- A grammar object without parts. -/
inductive Leaf where
  /-- A text matched as it is. -/
  | literal (text : String)
  /-- A text matched as it is, or in any case if the options say so. -/
  | keyword (text : String)
  /-- A greeting to whom the options name. -/
  | greeting
  /-- A finished diagram. -/
  | fixed (d : Diagram)
  /-- A remark with the number of the call. -/
  | counting
  /-- A remark with the value of an option. -/
  | shown (name : String)

namespace Leaf

/-- The kind of token that a keyword is drawn as. -/
def keywordKind (o : Options) : TokenKind :=
  if o.getBool "case-insensitive" = some true then .anyCase else .text

/-- Draws a leaf. -/
def draw {σ : Type} [CallCounter σ] : Leaf → Drawing σ
  | .literal text, _ => pure (.token (.literal text))
  | .keyword text, o => pure (.token ⟨keywordKind o, text⟩)
  | .greeting, o =>
    pure (.sequence [.token (.literal "Hello, "),
      .token (.literal ((o.getText "target").getD "world"))])
  | .fixed d, _ => pure d
  | .counting, _ => do
    let n ← CallCounter.nextCall
    return .token (.description ("call " ++ toString n))
  | .shown name, o =>
    match o.get name with
    | some value => pure (.token (.description (name ++ "=" ++ value.plain)))
    | none => pure .nothing

end Leaf

end Railroad
