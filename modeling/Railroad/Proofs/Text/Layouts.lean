import Mathlib.Data.List.Forall2
import Railroad.Proofs.Text.Quotes
import Railroad.Text.Outline

/-!
# What layouts show

A layout puts blanks, line breaks and commas between the parts of an outline. Read without these,
it is a list of marks: the characters outside quotes one by one, and every quoted text as a whole,
so that nothing in a quoted text can pass for a part of the layout. An outline shows the same marks
in both of its layouts.

* `Reads`: the marks of a text. `Reads.unique`: a text has one list of marks at most.
* `Outline.marks`: the marks of an outline.
* `shows_line`, `shows_blockAt`: each layout shows the marks of its outline.
* `marks_eq_of_line_eq`, `marks_eq_of_block_eq`: layouts that are equal show the same marks.
-/

namespace Railroad

namespace Outline

/-! ## Marks of a text -/

/-- What is left of a layout without separators. -/
inductive Mark where
  /-- A character outside quotes. -/
  | char (c : Char)
  /-- A quoted text. -/
  | text (s : String)
  deriving DecidableEq

/-- Separates the parts of a layout. -/
def isSeparator (c : Char) : Bool :=
  c = ' ' || c = '\n' || c = ','

/-- The text is read as the marks. -/
inductive Reads : List Char → List Mark → Prop where
  | done : Reads [] []
  | separator {c : Char} {cs : List Char} {ms : List Mark} (hc : isSeparator c = true)
      (h : Reads cs ms) : Reads (c :: cs) ms
  | char {c : Char} {cs : List Char} {ms : List Mark} (hc : isSeparator c = false)
      (hquote : c ≠ '"') (h : Reads cs ms) : Reads (c :: cs) (.char c :: ms)
  | text {s : String} {cs : List Char} {ms : List Mark} (h : Reads cs ms) :
      Reads ((Text.quote s).toList ++ cs) (.text s :: ms)

theorem Reads.append {cs ds : List Char} {ms ns : List Mark} (h : Reads cs ms)
    (k : Reads ds ns) : Reads (cs ++ ds) (ms ++ ns) := by
  induction h with
  | done => exact k
  | separator hc _ ih => exact .separator hc ih
  | char hc hquote _ ih => exact .char hc hquote ih
  | text _ ih =>
    rw [List.append_assoc]
    exact .text ih

theorem Reads.of_nil {ms : List Mark} (h : Reads [] ms) : ms = [] := by
  generalize htext : [] = text at h
  cases h with
  | done => rfl
  | separator => cases htext
  | char => cases htext
  | text h => simp at htext

/-- What a text is read as, if it begins with a character outside quotes. -/
theorem Reads.of_cons {c : Char} {cs : List Char} {ms : List Mark} (hquote : c ≠ '"')
    (h : Reads (c :: cs) ms) :
    ∃ ns, Reads cs ns ∧ ms = if isSeparator c then ns else .char c :: ns := by
  generalize htext : c :: cs = text at h
  cases h with
  | done => cases htext
  | separator hc h =>
    cases htext
    exact ⟨ms, h, (if_pos hc).symm⟩
  | @char _ _ ns hc _ h =>
    cases htext
    exact ⟨ns, h, by rw [hc]; rfl⟩
  | text h =>
    rw [Text.toList_quote, List.cons_append, List.cons_append, List.cons.injEq] at htext
    exact absurd htext.1 hquote

/-- What a text is read as, if it begins with a quoted text. -/
theorem Reads.of_quote {s : String} {cs : List Char} {ms : List Mark}
    (h : Reads ((Text.quote s).toList ++ cs) ms) : ∃ ns, Reads cs ns ∧ ms = .text s :: ns := by
  generalize htext : (Text.quote s).toList ++ cs = text at h
  cases h with
  | done => simp at htext
  | separator hc h =>
    rw [Text.toList_quote, List.cons_append, List.cons_append, List.cons.injEq] at htext
    rw [← htext.1] at hc
    cases hc
  | char hc hquote h =>
    rw [Text.toList_quote, List.cons_append, List.cons_append, List.cons.injEq] at htext
    exact absurd htext.1.symm hquote
  | text h =>
    obtain ⟨rfl, rfl⟩ := Text.quote_append_inj htext
    exact ⟨_, h, rfl⟩

/-- **A text is read in one way only.** -/
theorem Reads.unique {cs : List Char} {ms ns : List Mark} (h : Reads cs ms) (k : Reads cs ns) :
    ms = ns := by
  induction h generalizing ns with
  | done => exact k.of_nil.symm
  | @separator c _ _ hc _ ih =>
    have hquote : c ≠ '"' := by
      rintro rfl
      cases hc
    obtain ⟨rest, hrest, rfl⟩ := k.of_cons hquote
    rw [if_pos hc]
    exact ih hrest
  | char hc hquote _ ih =>
    obtain ⟨rest, hrest, rfl⟩ := k.of_cons hquote
    rw [hc, ih hrest]
    rfl
  | text _ ih =>
    obtain ⟨rest, hrest, rfl⟩ := k.of_quote
    rw [ih hrest]

/-- The text shows the marks. -/
def Shows (text : String) (ms : List Mark) : Prop :=
  Reads text.toList ms

theorem Shows.append {s t : String} {ms ns : List Mark} (h : Shows s ms) (k : Shows t ns) :
    Shows (s ++ t) (ms ++ ns) := by
  unfold Shows
  rw [String.toList_append]
  exact Reads.append h k

theorem shows_quote (s : String) : Shows (Text.quote s) [.text s] := by
  have h := Reads.text (s := s) .done
  rwa [List.append_nil] at h

/-- There are no quotes in the text. -/
def unquoted (text : String) : Bool :=
  text.toList.all fun c => c != '"'

/-- The marks of a text without quotes. -/
def marksOf (text : String) : List Mark :=
  (text.toList.filter fun c => !isSeparator c).map .char

theorem reads_filter {cs : List Char} (h : (cs.all fun c => c != '"') = true) :
    Reads cs ((cs.filter fun c => !isSeparator c).map .char) := by
  induction cs with
  | nil => exact .done
  | cons c rest ih =>
    rw [List.all_cons, Bool.and_eq_true, bne_iff_ne] at h
    rw [List.filter_cons]
    split
    · next hc => exact .char (by simpa using hc) h.1 (ih h.2)
    · next hc => exact .separator (by simpa using hc) (ih h.2)

theorem shows_marksOf {text : String} (h : unquoted text = true) : Shows text (marksOf text) :=
  reads_filter h

/-! ## Marks of an outline -/

/-- Each part after its label and a colon. -/
def labelledMarks (labels parts : List (List Mark)) : List (List Mark) :=
  List.zipWith (fun label part => label ++ Mark.char ':' :: part) labels parts

mutual

/-- The marks of an outline. -/
def marks : Outline → List Mark
  | .word text => marksOf text
  | .quoted text => [.text text]
  | .wrap name part => marksOf name ++ marksOf "(" ++ [marks part].flatten ++ marksOf ")"
  | .record name labels parts =>
    marksOf name ++ marksOf "\x7b"
      ++ (labelledMarks (labels.map marksOf) (marksAll parts)).flatten ++ marksOf "\x7d"
  | .list parts => marksOf "[" ++ (marksAll parts).flatten ++ marksOf "]"
  | .table keys parts =>
    marksOf "\x7b" ++ (labelledMarks (keys.map fun key => [.text key]) (marksAll parts)).flatten
      ++ marksOf "\x7d"

/-- The marks of each outline of a list. -/
def marksAll : List Outline → List (List Mark)
  | [] => []
  | part :: rest => marks part :: marksAll rest

end

mutual

/-- There are no quotes in words, names and labels. -/
def plain : Outline → Bool
  | .word text => unquoted text
  | .quoted _ => true
  | .wrap name part => unquoted name && plain part
  | .record name labels parts => unquoted name && labels.all unquoted && plainAll parts
  | .list parts => plainAll parts
  | .table _ parts => plainAll parts

/-- There are no quotes in words, names and labels of the outlines of a list. -/
def plainAll : List Outline → Bool
  | [] => true
  | part :: rest => plain part && plainAll rest

end

theorem marksAll_eq_map (parts : List Outline) : marksAll parts = parts.map marks := by
  induction parts with
  | nil => rfl
  | cons part rest ih => simp [marksAll, ih]

theorem plainAll_eq_all (parts : List Outline) : plainAll parts = parts.all plain := by
  induction parts with
  | nil => rfl
  | cons part rest ih => simp [plainAll, ih]

/-! ## Groups of parts -/

variable {opening closing : String} {texts labels : List String} {os cs : List Mark}
  {mss : List (List Mark)}

theorem shows_intercalate (h : List.Forall₂ Shows texts mss) :
    Shows (String.intercalate ", " texts) mss.flatten := by
  have hcomma : Shows ", " [] := .separator rfl (.separator rfl .done)
  induction h with
  | nil => exact .done
  | @cons text ms texts mss hfirst hrest ih =>
    cases texts with
    | nil =>
      cases hrest
      rw [String.intercalate_singleton, List.flatten_singleton]
      exact hfirst
    | cons second texts =>
      have hparts := (hfirst.append hcomma).append ih
      rw [List.append_nil] at hparts
      rw [String.intercalate_cons_cons, List.flatten_cons]
      exact hparts

theorem shows_join (h : List.Forall₂ Shows texts mss) : Shows (String.join texts) mss.flatten := by
  induction h with
  | nil => exact .done
  | cons hfirst _ ih =>
    rw [String.join_cons, List.flatten_cons]
    exact hfirst.append ih

/-- The parts of a group on one line. -/
theorem shows_inLine (hopening : Shows opening os) (hclosing : Shows closing cs)
    (h : List.Forall₂ Shows texts mss) :
    Shows (inLine opening closing texts) (os ++ mss.flatten ++ cs) :=
  (hopening.append (shows_intercalate h)).append hclosing

theorem reads_replicate_blank (n : Nat) : Reads (List.replicate n ' ') [] := by
  induction n with
  | zero => exact .done
  | succ n ih => exact .separator rfl ih

theorem shows_newline (depth : Nat) : Shows (newline depth) [] := by
  have hbreak : Shows "\n" [] := .separator rfl .done
  have hblanks : Shows (String.ofList (List.replicate (4 * depth) ' ')) [] := by
    rw [Shows, String.toList_ofList]
    exact reads_replicate_blank _
  exact hbreak.append hblanks

/-- The parts of a group, each on a line of its own. -/
theorem shows_inBlock (hopening : Shows opening os) (hclosing : Shows closing cs) (depth : Nat)
    (h : List.Forall₂ Shows texts mss) :
    Shows (inBlock opening closing depth texts) (os ++ mss.flatten ++ cs) := by
  have hparts : List.Forall₂ Shows
      (texts.map fun text => newline (depth + 1) ++ text ++ ",") mss := by
    rw [List.forall₂_map_left_iff]
    refine h.imp fun text ms htext => ?_
    have hcomma : Shows "," [] := .separator rfl .done
    have hline := ((shows_newline (depth + 1)).append htext).append hcomma
    rwa [List.nil_append, List.append_nil] at hline
  have hbefore := (hopening.append (shows_join hparts)).append (shows_newline depth)
  rw [List.append_nil] at hbefore
  exact hbefore.append hclosing

/-- Parts behind what shows their labels. -/
theorem shows_labelled {lss : List (List Mark)} (hlabels : List.Forall₂ Shows labels lss)
    (h : List.Forall₂ Shows texts mss) :
    List.Forall₂ Shows (labelled labels texts) (labelledMarks lss mss) := by
  have hcolon : Shows ": " [.char ':'] := .char rfl (by decide) (.separator rfl .done)
  induction hlabels generalizing texts mss with
  | nil => exact .nil
  | cons hlabel hlabels ih =>
    cases h with
    | nil => exact .nil
    | cons htext h =>
      refine .cons ?_ (ih h)
      have hline := (hlabel.append hcolon).append htext
      rwa [List.append_assoc] at hline

theorem shows_labels (h : labels.all unquoted = true) :
    List.Forall₂ Shows labels (labels.map marksOf) := by
  rw [List.forall₂_map_right_iff, List.forall₂_same]
  exact fun label hlabel => shows_marksOf (List.all_eq_true.mp h label hlabel)

theorem shows_keys (keys : List String) :
    List.Forall₂ Shows (keys.map Text.quote) (keys.map fun key => [Mark.text key]) := by
  rw [List.forall₂_map_left_iff, List.forall₂_map_right_iff, List.forall₂_same]
  exact fun key _ => shows_quote key

/-! ## The two layouts -/

/-- A text of delimiters and separators shows what is left of it without the separators. -/
theorem shows_delimiter {text delimiter : String} (hquotes : unquoted text = true)
    (h : marksOf text = marksOf delimiter) : Shows text (marksOf delimiter) :=
  h ▸ shows_marksOf hquotes

mutual

/-- **The layout on one line** shows the marks of the outline. -/
theorem shows_line : ∀ o : Outline, o.plain = true → Shows o.line o.marks
  | .word _, h => shows_marksOf h
  | .quoted text, _ => shows_quote text
  | .wrap name part, h => by
    obtain ⟨hname, hpart⟩ := Bool.and_eq_true_iff.mp h
    exact shows_inLine ((shows_marksOf hname).append (shows_marksOf rfl)) (shows_marksOf rfl)
      (.cons (shows_line part hpart) .nil)
  | .record name labels parts, h => by
    obtain ⟨h, hparts⟩ := Bool.and_eq_true_iff.mp h
    obtain ⟨hname, hlabels⟩ := Bool.and_eq_true_iff.mp h
    exact shows_inLine ((shows_marksOf hname).append (shows_delimiter rfl rfl))
      (shows_delimiter rfl rfl) (shows_labelled (shows_labels hlabels) (shows_lines parts hparts))
  | .list parts, h => shows_inLine (shows_marksOf rfl) (shows_marksOf rfl) (shows_lines parts h)
  | .table keys parts, h =>
    shows_inLine (shows_marksOf rfl) (shows_marksOf rfl)
      (shows_labelled (shows_keys keys) (shows_lines parts h))

/-- The layouts on one line show the marks of their outlines. -/
theorem shows_lines : ∀ parts : List Outline, plainAll parts = true →
    List.Forall₂ Shows (lines parts) (marksAll parts)
  | [], _ => .nil
  | part :: rest, h => by
    obtain ⟨hpart, hrest⟩ := Bool.and_eq_true_iff.mp h
    exact .cons (shows_line part hpart) (shows_lines rest hrest)

end

mutual

/-- **The layout over several lines** shows the marks of the outline. -/
theorem shows_blockAt (depth : Nat) : ∀ o : Outline, o.plain = true →
    Shows (o.blockAt depth) o.marks
  | .word _, h => shows_marksOf h
  | .quoted text, _ => shows_quote text
  | .wrap name part, h => by
    obtain ⟨hname, hpart⟩ := Bool.and_eq_true_iff.mp h
    exact shows_inBlock ((shows_marksOf hname).append (shows_marksOf rfl)) (shows_marksOf rfl)
      depth (.cons (shows_blockAt (depth + 1) part hpart) .nil)
  | .record name labels parts, h => by
    obtain ⟨h, hparts⟩ := Bool.and_eq_true_iff.mp h
    obtain ⟨hname, hlabels⟩ := Bool.and_eq_true_iff.mp h
    exact shows_inBlock ((shows_marksOf hname).append (shows_delimiter rfl rfl))
      (shows_marksOf rfl) depth
      (shows_labelled (shows_labels hlabels) (shows_blocksAt (depth + 1) parts hparts))
  | .list [], _ => (shows_marksOf rfl : Shows "[]" (marksOf "[]"))
  | .list (part :: rest), h =>
    shows_inBlock (shows_marksOf rfl) (shows_marksOf rfl) depth
      (shows_blocksAt (depth + 1) (part :: rest) h)
  | .table keys [], _ => by
    rw [marks, marksAll, labelledMarks, List.zipWith_nil_right]
    exact (shows_marksOf rfl : Shows "\x7b\x7d" (marksOf "\x7b\x7d"))
  | .table keys (part :: rest), h =>
    shows_inBlock (shows_marksOf rfl) (shows_marksOf rfl) depth
      (shows_labelled (shows_keys keys) (shows_blocksAt (depth + 1) (part :: rest) h))

/-- The layouts over several lines show the marks of their outlines. -/
theorem shows_blocksAt (depth : Nat) : ∀ parts : List Outline, plainAll parts = true →
    List.Forall₂ Shows (blocksAt depth parts) (marksAll parts)
  | [], _ => .nil
  | part :: rest, h => by
    obtain ⟨hpart, hrest⟩ := Bool.and_eq_true_iff.mp h
    exact .cons (shows_blockAt depth part hpart) (shows_blocksAt depth rest hrest)

end

/-! ## Equal layouts -/

variable {o o' : Outline}

theorem marks_eq_of_line_eq (ho : o.plain = true) (ho' : o'.plain = true)
    (h : o.line = o'.line) : o.marks = o'.marks := by
  have hline := shows_line o ho
  rw [h] at hline
  exact Reads.unique hline (shows_line o' ho')

theorem marks_eq_of_block_eq (ho : o.plain = true) (ho' : o'.plain = true)
    (h : o.block = o'.block) : o.marks = o'.marks := by
  have hblock : Shows o.block o.marks := shows_blockAt 0 o ho
  rw [h] at hblock
  exact Reads.unique hblock (shows_blockAt 0 o' ho')

end Outline

end Railroad
