import Railroad.Text.Quoted

/-!
# Outlines: values laid out for reading

Model of what `Debug` writes. An outline is a value as a person inspects it: words, quoted texts,
and named or bracketed groups of further outlines. There are two layouts.

* `Outline.line`: everything on one line, parts separated by a comma and a space.
* `Outline.block`: one part a line, four spaces deeper than its group, each followed by a comma. An
  empty group stays on its line.
-/

namespace Railroad

/-- A value laid out for reading. -/
inductive Outline where
  /-- A name or a number, shown as it is. -/
  | word (text : String)
  /-- A text, shown between quotes. -/
  | quoted (text : String)
  /-- A name with one part in parentheses. -/
  | wrap (name : String) (part : Outline)
  /-- A name with labelled parts. -/
  | record (name : String) (labels : List String) (parts : List Outline)
  /-- Parts in brackets. -/
  | list (parts : List Outline)
  /-- Parts under quoted keys. -/
  | table (keys : List String) (parts : List Outline)

namespace Outline

/-- Each label, a colon, and the text that belongs to it. -/
def labelled (labels texts : List String) : List String :=
  List.zipWith (fun label text => label ++ ": " ++ text) labels texts

/-- Parts between two delimiters on one line. -/
def inLine (opening closing : String) (parts : List String) : String :=
  opening ++ String.intercalate ", " parts ++ closing

/-- The line break and the spaces in front of a part at `depth`. -/
def newline (depth : Nat) : String :=
  "\n" ++ String.ofList (List.replicate (4 * depth) ' ')

/-- Parts between two delimiters, each on a line of its own at `depth + 1`. -/
def inBlock (opening closing : String) (depth : Nat) (parts : List String) : String :=
  opening ++ String.join (parts.map fun part => newline (depth + 1) ++ part ++ ",")
    ++ newline depth ++ closing

mutual

/-- The layout on one line. -/
def line : Outline → String
  | .word text => text
  | .quoted text => Text.quote text
  | .wrap name part => inLine (name ++ "(") ")" [line part]
  | .record name labels parts => inLine (name ++ " \x7b ") " \x7d" (labelled labels (lines parts))
  | .list parts => inLine "[" "]" (lines parts)
  | .table keys parts => inLine "\x7b" "\x7d" (labelled (keys.map Text.quote) (lines parts))

/-- The layout of each part on one line. -/
def lines : List Outline → List String
  | [] => []
  | part :: rest => line part :: lines rest

end

mutual

/-- The layout over several lines of an outline that starts at `depth`. -/
def blockAt (depth : Nat) : Outline → String
  | .word text => text
  | .quoted text => Text.quote text
  | .wrap name part => inBlock (name ++ "(") ")" depth [blockAt (depth + 1) part]
  | .record name labels parts =>
    inBlock (name ++ " \x7b") "\x7d" depth (labelled labels (blocksAt (depth + 1) parts))
  | .list [] => "[]"
  | .list (part :: rest) =>
    inBlock "[" "]" depth (blockAt (depth + 1) part :: blocksAt (depth + 1) rest)
  | .table _ [] => "\x7b\x7d"
  | .table keys (part :: rest) =>
    inBlock "\x7b" "\x7d" depth (labelled (keys.map Text.quote)
      (blockAt (depth + 1) part :: blocksAt (depth + 1) rest))

/-- The layout over several lines of each part at `depth`. -/
def blocksAt (depth : Nat) : List Outline → List String
  | [] => []
  | part :: rest => blockAt depth part :: blocksAt depth rest

end

/-- The layout over several lines. -/
def block (o : Outline) : String :=
  o.blockAt 0

theorem lines_eq_map (parts : List Outline) : lines parts = parts.map line := by
  induction parts with
  | nil => rfl
  | cons part rest ih => simp [lines, ih]

end Outline

end Railroad
