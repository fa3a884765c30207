import Railroad.Diagram.Basic

/-!
# Diagrams laid out for inspection

Model of the `Debug` output of `Component` and its parts: every node is shown by its name around a
record of what it holds. The two texts of a diagram are `Outline.line` and `Outline.block` of its
outline.
-/

namespace Railroad.Diagram

mutual

/-- The diagram laid out for inspection. -/
def outline : Diagram → Outline
  | .nothing => .word Kind.nothing.name
  | .token t => .wrap Kind.token.name t.outline
  | .sequence parts =>
    .wrap Kind.sequence.name (.record Kind.sequence.name ["children"] [.list (outlines parts)])
  | .choice branches =>
    .wrap Kind.choice.name (.record Kind.choice.name ["children"] [.list (outlines branches)])
  | .loop body delimiter =>
    .wrap Kind.loop.name
      (.record Kind.loop.name ["component", "delimiter"] [outline body, outline delimiter])

/-- Each diagram of a list laid out for inspection. -/
def outlines : List Diagram → List Outline
  | [] => []
  | d :: rest => outline d :: outlines rest

end

theorem outlines_eq_map (ds : List Diagram) : outlines ds = ds.map outline := by
  induction ds with
  | nil => rfl
  | cons d rest ih => simp [outlines, ih]

end Railroad.Diagram
