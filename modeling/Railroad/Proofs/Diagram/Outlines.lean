import Railroad.Diagram.Inspection
import Railroad.Proofs.Diagram.Visits
import Railroad.Proofs.Text.Layouts

/-!
# Diagrams told apart by their layouts

The marks that a layout of a diagram shows determine the diagram: they begin with the name of the
kind of its root, and where the marks of its parts end can be seen from the marks themselves. So two
diagrams with one layout are equal, whatever the texts of their tokens.

* `plain_outline`: the outline of a diagram has no quotes but those around the texts of tokens.
* `append_inj_of_take`: names that differ near their beginning can be told from what comes after.
* `legible`: a diagram can be told from marks that begin with its own.
* `layouts_identify`: either layout identifies the diagram.
-/

namespace Railroad

open Outline (Mark marksOf unquoted)

/-! ## Names -/

theorem TokenKind.unquoted_name (kind : TokenKind) : unquoted kind.name = true := by
  cases kind <;> rfl

theorem Diagram.Kind.unquoted_name (kind : Diagram.Kind) : unquoted kind.name = true := by
  cases kind <;> rfl

/-- Names of which already the beginnings differ can be told from whatever comes after them. -/
theorem append_inj_of_take {α β : Type} (write : α → List β) (n : Nat)
    (hlength : ∀ a, n ≤ (write a).length)
    (htake : ∀ a b, (write a).take n = (write b).take n → a = b) {a b : α} {xs ys : List β}
    (h : write a ++ xs = write b ++ ys) : a = b ∧ xs = ys := by
  have hab := congrArg (List.take n) h
  rw [List.take_append_of_le_length (hlength a), List.take_append_of_le_length (hlength b)] at hab
  obtain rfl := htake a b hab
  exact ⟨rfl, List.append_cancel_left h⟩

theorem TokenKind.name_append_inj {kind kind' : TokenKind} {ms ns : List Mark}
    (h : marksOf kind.name ++ ms = marksOf kind'.name ++ ns) : kind = kind' ∧ ms = ns := by
  refine append_inj_of_take (fun kind : TokenKind => marksOf kind.name) 1 (fun kind => ?_)
    (fun kind kind' => ?_) h
  · cases kind <;> decide
  · cases kind <;> cases kind' <;> decide

theorem Diagram.Kind.name_append_inj {kind kind' : Diagram.Kind} {ms ns : List Mark}
    (h : marksOf kind.name ++ ms = marksOf kind'.name ++ ns) : kind = kind' ∧ ms = ns := by
  refine append_inj_of_take (fun kind : Diagram.Kind => marksOf kind.name) 2 (fun kind => ?_)
    (fun kind kind' => ?_) h
  · cases kind <;> decide
  · cases kind <;> cases kind' <;> decide

namespace Diagram

/-! ## Outlines of nodes -/

/-- The outline of a node that holds something: its name around a record with the same name. -/
def nodeOutline (kind : Kind) (labels : List String) (fields : List Outline) : Outline :=
  .wrap kind.name (.record kind.name labels fields)

theorem outline_token (t : Token) :
    (token t).outline = nodeOutline .token ["kind", "text"] [.word t.kind.name, .quoted t.text] :=
  rfl

theorem outline_sequence (parts : List Diagram) :
    (sequence parts).outline = nodeOutline .sequence ["children"] [.list (parts.map outline)] := by
  rw [outline, outlines_eq_map]
  rfl

theorem outline_choice (branches : List Diagram) :
    (choice branches).outline = nodeOutline .choice ["children"] [.list (branches.map outline)] := by
  rw [outline, outlines_eq_map]
  rfl

theorem outline_loop (body delimiter : Diagram) :
    (loop body delimiter).outline =
      nodeOutline .loop ["component", "delimiter"] [body.outline, delimiter.outline] :=
  rfl

theorem plain_nodeOutline {kind : Kind} {labels : List String} {fields : List Outline}
    (hlabels : labels.all unquoted = true) (hfields : Outline.plainAll fields = true) :
    (nodeOutline kind labels fields).plain = true := by
  simp only [nodeOutline, Outline.plain, kind.unquoted_name, hlabels, hfields, Bool.and_self]

/-- **There are no quotes** in the outline of a diagram but those around the texts of tokens. -/
theorem plain_outline (d : Diagram) : d.outline.plain = true := by
  induction d using induction_on_children with
  | step d ih =>
    have hparts : Outline.plainAll (d.children.map outline) = true := by
      rw [Outline.plainAll_eq_all, List.all_map, List.all_eq_true]
      exact ih
    have hlist : Outline.plainAll [.list (d.children.map outline)] = true := by
      rw [Outline.plainAll, Outline.plain, hparts]
      rfl
    cases d with
    | nothing => rfl
    | token t =>
      refine plain_nodeOutline rfl ?_
      rw [Outline.plainAll, Outline.plain, t.kind.unquoted_name]
      rfl
    | sequence parts =>
      rw [outline_sequence]
      exact plain_nodeOutline rfl hlist
    | choice branches =>
      rw [outline_choice]
      exact plain_nodeOutline rfl hlist
    | loop body delimiter => exact plain_nodeOutline rfl hparts

/-! ## Marks of nodes -/

/-- The marks of a diagram. -/
def marks (d : Diagram) : List Mark :=
  d.outline.marks

/-- The marks of the fields of a node. -/
def fieldMarks (labels : List String) (fields : List Outline) : List Mark :=
  (Outline.labelledMarks (labels.map marksOf) (Outline.marksAll fields)).flatten

theorem marks_nodeOutline (kind : Kind) (labels : List String) (fields : List Outline) :
    (nodeOutline kind labels fields).marks =
      marksOf kind.name ++ (marksOf "(" ++ (marksOf kind.name ++ (marksOf "\x7b" ++
        (fieldMarks labels fields ++ (marksOf "\x7d" ++ marksOf ")"))))) := by
  simp [nodeOutline, Outline.marks, fieldMarks]

/-- The marks of a diagram begin with the name of its kind. -/
theorem exists_marks_eq (d : Diagram) : ∃ ms, d.marks = marksOf d.kind.name ++ ms := by
  cases d with
  | nothing => exact ⟨[], (List.append_nil _).symm⟩
  | token t => exact ⟨_, marks_nodeOutline _ _ _⟩
  | sequence parts => exact ⟨_, by rw [marks, outline_sequence]; exact marks_nodeOutline _ _ _⟩
  | choice branches => exact ⟨_, by rw [marks, outline_choice]; exact marks_nodeOutline _ _ _⟩
  | loop body delimiter => exact ⟨_, marks_nodeOutline _ _ _⟩

/-- Nodes of one kind with the same marks have fields with the same marks. -/
theorem fieldMarks_append_eq {kind : Kind} {labels : List String} {fields fields' : List Outline}
    {ms ns : List Mark}
    (h : (nodeOutline kind labels fields).marks ++ ms =
      (nodeOutline kind labels fields').marks ++ ns) :
    fieldMarks labels fields ++ (marksOf "\x7d" ++ marksOf ")" ++ ms) =
      fieldMarks labels fields' ++ (marksOf "\x7d" ++ marksOf ")" ++ ns) := by
  simpa [marks_nodeOutline] using h

theorem fieldMarks_list (label : String) (ds : List Diagram) :
    fieldMarks [label] [.list (ds.map outline)] =
      marksOf label ++ .char ':' :: .char '[' :: (ds.flatMap marks ++ [.char ']']) := by
  have hlist : (Outline.list (ds.map outline)).marks =
      .char '[' :: (ds.flatMap marks ++ [.char ']']) := by
    rw [Outline.marks, Outline.marksAll_eq_map, List.map_map, ← List.flatMap_def]
    rfl
  simp [fieldMarks, Outline.labelledMarks, Outline.marksAll, hlist]

theorem fieldMarks_pair (label label' : String) (field field' : Outline) :
    fieldMarks [label, label'] [field, field'] =
      marksOf label ++ .char ':' ::
        (field.marks ++ (marksOf label' ++ .char ':' :: field'.marks)) := by
  simp [fieldMarks, Outline.labelledMarks, Outline.marksAll]

/-! ## Reading diagrams off marks -/

/-- The diagram can be told from marks that begin with its own. -/
def Legible (d : Diagram) : Prop :=
  ∀ (e : Diagram) (ms ns : List Mark), d.marks ++ ms = e.marks ++ ns → d = e ∧ ms = ns

theorem marks_append_ne (d : Diagram) (ms ns : List Mark) :
    d.marks ++ ms ≠ .char ']' :: ns := by
  intro h
  obtain ⟨rest, hd⟩ := d.exists_marks_eq
  rw [hd, List.append_assoc] at h
  cases hkind : d.kind <;> rw [hkind] at h <;> cases h

/-- The diagrams of a list can be told from marks where a bracket follows them. -/
theorem legible_all {ds : List Diagram} (h : ∀ d ∈ ds, Legible d) {es : List Diagram}
    {ms ns : List Mark}
    (heq : ds.flatMap marks ++ .char ']' :: ms = es.flatMap marks ++ .char ']' :: ns) :
    ds = es ∧ ms = ns := by
  induction ds generalizing es with
  | nil =>
    cases es with
    | nil => exact ⟨rfl, (List.cons.inj heq).2⟩
    | cons e es =>
      rw [List.flatMap_cons, List.append_assoc] at heq
      exact absurd heq.symm (marks_append_ne e _ _)
  | cons d ds ih =>
    cases es with
    | nil =>
      rw [List.flatMap_cons, List.append_assoc] at heq
      exact absurd heq (marks_append_ne d _ _)
    | cons e es =>
      rw [List.flatMap_cons, List.flatMap_cons, List.append_assoc, List.append_assoc] at heq
      obtain ⟨rfl, hrest⟩ := h d List.mem_cons_self e _ _ heq
      obtain ⟨rfl, hms⟩ := ih (fun d hd => h d (List.mem_cons_of_mem _ hd)) hrest
      exact ⟨rfl, hms⟩

/-- The parts of a sequence or choice can be told from its marks. -/
theorem parts_eq_of_marks {kind : Kind} {ds es : List Diagram} {ms ns : List Mark}
    (hparts : ∀ d ∈ ds, Legible d)
    (h : (nodeOutline kind ["children"] [.list (ds.map outline)]).marks ++ ms =
      (nodeOutline kind ["children"] [.list (es.map outline)]).marks ++ ns) :
    ds = es ∧ ms = ns := by
  have hfields := fieldMarks_append_eq h
  simp only [fieldMarks_list, List.append_assoc, List.cons_append, List.append_cancel_left_eq,
    List.cons.injEq, true_and, List.nil_append] at hfields
  obtain ⟨rfl, hrest⟩ := legible_all hparts hfields
  exact ⟨rfl, by simpa using hrest⟩

/-- The kind and the text of a token can be told from its marks. -/
theorem token_eq_of_marks {t u : Token} {ms ns : List Mark}
    (h : (token t).marks ++ ms = (token u).marks ++ ns) : t = u ∧ ms = ns := by
  have hfields := fieldMarks_append_eq h
  simp only [fieldMarks_pair, Outline.marks, List.append_assoc, List.cons_append,
    List.append_cancel_left_eq, List.cons.injEq, true_and] at hfields
  obtain ⟨hkind, htext⟩ := TokenKind.name_append_inj hfields
  simp only [List.append_cancel_left_eq, List.cons.injEq, true_and, Mark.text.injEq,
    List.nil_append] at htext
  obtain ⟨kind, text⟩ := t
  obtain ⟨kind', text'⟩ := u
  cases hkind
  cases htext.1
  exact ⟨rfl, htext.2⟩

/-- The body and the delimiter of a loop can be told from its marks. -/
theorem loop_eq_of_marks {body delimiter body' delimiter' : Diagram} {ms ns : List Mark}
    (hbody : Legible body) (hdelimiter : Legible delimiter)
    (h : (loop body delimiter).marks ++ ms = (loop body' delimiter').marks ++ ns) :
    loop body delimiter = loop body' delimiter' ∧ ms = ns := by
  have hfields := fieldMarks_append_eq h
  simp only [fieldMarks_pair, List.append_assoc, List.cons_append, List.append_cancel_left_eq,
    List.cons.injEq, true_and] at hfields
  obtain ⟨rfl, hrest⟩ := hbody _ _ _ hfields
  simp only [List.append_cancel_left_eq, List.cons.injEq, true_and] at hrest
  obtain ⟨rfl, hms⟩ := hdelimiter _ _ _ hrest
  exact ⟨rfl, by simpa using hms⟩

theorem kind_eq_of_marks {d e : Diagram} {ms ns : List Mark} (h : d.marks ++ ms = e.marks ++ ns) :
    d.kind = e.kind := by
  obtain ⟨_, hd⟩ := d.exists_marks_eq
  obtain ⟨_, he⟩ := e.exists_marks_eq
  rw [hd, he, List.append_assoc, List.append_assoc] at h
  exact (Kind.name_append_inj h).1

/-- **A diagram can be told from marks that begin with its own.** -/
theorem legible (d : Diagram) : Legible d := by
  induction d using induction_on_children with
  | step d ih =>
    intro e ms ns h
    have hkind := kind_eq_of_marks h
    cases d with
    | nothing =>
      cases e with
      | nothing => exact ⟨rfl, List.append_cancel_left h⟩
      | _ => cases hkind
    | token t =>
      cases e with
      | token u =>
        obtain ⟨rfl, hrest⟩ := token_eq_of_marks h
        exact ⟨rfl, hrest⟩
      | _ => cases hkind
    | sequence parts =>
      cases e with
      | sequence others =>
        rw [marks, marks, outline_sequence, outline_sequence] at h
        obtain ⟨rfl, hrest⟩ := parts_eq_of_marks ih h
        exact ⟨rfl, hrest⟩
      | _ => cases hkind
    | choice branches =>
      cases e with
      | choice others =>
        rw [marks, marks, outline_choice, outline_choice] at h
        obtain ⟨rfl, hrest⟩ := parts_eq_of_marks ih h
        exact ⟨rfl, hrest⟩
      | _ => cases hkind
    | loop body delimiter =>
      cases e with
      | loop body' delimiter' =>
        exact loop_eq_of_marks (ih body List.mem_cons_self)
          (ih delimiter (List.mem_cons_of_mem body List.mem_cons_self)) h
      | _ => cases hkind

theorem eq_of_marks_eq {a b : Diagram} (h : a.outline.marks = b.outline.marks) : a = b :=
  (legible a b [] [] (congrArg (· ++ []) h)).1

/-- **Either layout identifies the diagram.** Diagrams have the same layout on one line if and only
if they are equal, and the same layout over several lines if and only if they are equal, whatever
the texts of their tokens. -/
theorem layouts_identify (a b : Diagram) :
    (a.outline.line = b.outline.line ↔ a = b) ∧ (a.outline.block = b.outline.block ↔ a = b) := by
  have ha := a.plain_outline
  have hb := b.plain_outline
  refine ⟨⟨fun h => eq_of_marks_eq (Outline.marks_eq_of_line_eq ha hb h), ?_⟩,
    ⟨fun h => eq_of_marks_eq (Outline.marks_eq_of_block_eq ha hb h), ?_⟩⟩
  · rintro rfl
    rfl
  · rintro rfl
    rfl

-- the text of a token can look like a layout
example : (token (.literal "a\" \x7d \x7d)")).outline.line =
    "Token(Token \x7b kind: Text, text: \"a\\\" \x7d \x7d)\" \x7d)" := by
  decide

end Diagram

end Railroad
