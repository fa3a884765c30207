import Mathlib.Data.List.Basic
import Railroad.Deriving.Spelling
import Railroad.Proofs.Deriving.Branches

/-!
# Derived implementations as they are written

The tokens that `expand` and `combine` put together, said token by token.

* `drawable` is the predicate that a type can be drawn, `whereClause` a list of predicates.
* `Implementation.spelling_eq`: an implementation has its predicates in front of its method, those
  of the declaration first.
* `drawingCall` is the call that draws a field. `drawingCall_infix_spelling`: it stands in the
  method for every field that the method draws.
-/

namespace Railroad.Deriving

/-! ## Predicates -/

/-- The predicate that a type can be drawn, token by token. -/
def drawable (type : List TokenTree) : List String :=
  TokenTree.spellings type ++ [":", ":", ":", "railkit", ":", ":", "Railroadable"]

/-- Predicates with a comma between two of them, and after the last if there is a `trailing` one. No
predicates make no clause. -/
def whereClause (predicates : List (List String)) (trailing : Bool) : List String :=
  if predicates = [] then []
  else "where" :: [","].intercalate predicates ++ if trailing then [","] else []

theorem commaSeparated_eq_intercalate (items : List (List String)) :
    commaSeparated items = [","].intercalate items := by
  fun_induction commaSeparated items with
  | case1 => rfl
  | case2 item => simp
  | case3 item next rest ih => simp [List.intercalate_cons_cons, ih]

theorem predicateList_eq_whereClause (predicates : CommaList (List TokenTree))
    (bounds : List (List TokenTree)) :
    predicateList predicates bounds =
      whereClause (predicates.items.map TokenTree.spellings ++ bounds.map drawable)
        (bounds.isEmpty && predicates.trailing) := by
  have hbound : bound = drawable := rfl
  unfold predicateList whereClause
  simp only [hbound, commaSeparated_eq_intercalate, List.isEmpty_iff]

/-! ## The whole -/

/-- What stands in front of the predicates of an implementation. -/
def heading (name : Ident) (parameters : CommaList Parameter) : List String :=
  "impl" :: parameterList declared parameters
    ++ [":", ":", "railkit", ":", ":", "Railroadable", "for", name.spelling]
    ++ parameterList used parameters

/-- What stands between the predicates and the body of the method. -/
def methodHeading : List String :=
  ["\x7b", "#", "[", "allow", "(", "unused_variables", ")", "]", "fn", "create_railroad", "(", "&",
    "self", ",", "options", ":", "&", ":", ":", "railkit", ":", ":", "Options", ")", "-", ">", ":",
    ":", "railkit", ":", ":", "Component", "\x7b"]

/-- **An implementation as it is written.** -/
theorem Implementation.spelling_eq (i : Implementation) :
    i.spelling = heading i.name i.parameters
      ++ whereClause (i.predicates.items.map TokenTree.spellings ++ i.bounds.map drawable)
        (i.bounds.isEmpty && i.predicates.trailing)
      ++ methodHeading ++ i.method.spelling ++ ["\x7d", "\x7d"] := by
  rw [← predicateList_eq_whereClause]
  simp [Implementation.spelling, heading, methodHeading, capability, path, inBraces, inParentheses,
    optionsName, Ident.spelling]

/-! ## Calls -/

/-- The call that draws a field, token by token. -/
def drawingCall (field : Access) : List String :=
  [":", ":", "railkit", ":", ":", "Railroadable", ":", ":", "create_railroad", "("]
    ++ field.spelling ++ [",", "options", ")"]

theorem call_eq_drawingCall : call = drawingCall := by
  funext field
  simp [call, drawingCall, capability, path, inParentheses, optionsName, Ident.spelling]

theorem infix_commaSeparated {item : List String} {items : List (List String)} (h : item ∈ items) :
    item <:+: commaSeparated items := by
  fun_induction commaSeparated items with
  | case1 => cases h
  | case2 item' =>
    obtain rfl := List.mem_singleton.mp h
    exact List.infix_refl item
  | case3 item' next rest ih =>
    rcases List.mem_cons.mp h with rfl | h
    · exact (List.prefix_append _ _).isInfix
    · exact (List.infix_cons (ih h)).trans (List.suffix_append _ _).isInfix

theorem call_infix_gathered {maker : String} {fields : List Access} {field : Access}
    (h : field ∈ fields) : call field <:+: gathered maker fields := by
  have hfields : call field <:+: commaSeparated (fields.map call) :=
    infix_commaSeparated (List.mem_map_of_mem h)
  refine hfields.trans ?_
  refine ⟨path ["railkit", "Component", maker] ++ ["(", "["], ["]", ")"], ?_⟩
  simp [gathered, inParentheses]

theorem call_infix_body {body : Body} {field : Access} (h : field ∈ body.accesses) :
    call field <:+: body.spelling := by
  cases body with
  | token kind text => cases h
  | nothing => cases h
  | one field' =>
    obtain rfl := List.mem_singleton.mp h
    exact List.infix_refl _
  | sequence fields => exact call_infix_gathered h
  | choice fields => exact call_infix_gathered h

theorem body_infix_method {m : Method} {b : Branch} (h : b ∈ m.branches) :
    b.body.spelling <:+: m.spelling := by
  cases m with
  | impossible => cases h
  | direct body =>
    obtain rfl := List.mem_singleton.mp h
    exact List.infix_refl _
  | cases arms =>
    obtain ⟨arm, ha, rfl⟩ := List.mem_map.mp h
    have harm : arm.body.spelling <:+: arm.spelling :=
      ⟨arm.pattern.spelling ++ ["=", ">"], [","], rfl⟩
    have harms : arm.spelling <:+: arms.flatMap (·.spelling) :=
      List.infix_of_mem_flatten (List.mem_map_of_mem ha)
    refine (harm.trans harms).trans ⟨["match", "self", "\x7b"], ["\x7d"], ?_⟩
    simp [Method.spelling, inBraces]

/-- **A method calls the fields that it draws.** -/
theorem drawingCall_infix_spelling {m : Method} {field : Access}
    (h : field ∈ m.branches.flatMap (·.body.accesses)) : drawingCall field <:+: m.spelling := by
  obtain ⟨b, hb, hf⟩ := List.mem_flatMap.mp h
  rw [← call_eq_drawingCall]
  exact (call_infix_body hf).trans (body_infix_method hb)

end Railroad.Deriving
