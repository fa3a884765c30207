import Railroad.Source.TokenTree

/-!
# Readers of token trees

A reader takes trees from the beginning of a list and says how they are written out again: marks
that form one operator at once after one another, and all other marks apart. Trees that no reader
looks into are written as they were read.

* `startsWith` tells whether marks that belong together come next, `mark` takes them.
* `group` reads the inside of a group, `anyGroup` takes a group as it is.
* `repeated` and `entries` read a sequence, `lifetimesFirst` arranges one.
-/

namespace Railroad.Phrase

/-- Trees as they are written out. -/
abbrev Written := List TokenTree

/-- Takes trees from the beginning of a list and leaves the rest, or fails. -/
abbrev Reader (α : Type) := StateT (List TokenTree) Option α

/-! ## Looking ahead -/

/-- The trees begin with these marks, each but the last followed at once by the next. -/
def startsWith : List Char → List TokenTree → Bool
  | [], _ => true
  | [c], .mark d _ _ :: _ => c = d
  | c :: next :: cs, .mark d joint _ :: rest => c = d && joint && startsWith (next :: cs) rest
  | _, _ => false

/-- The trees begin with this word. -/
def startsWithWord (word : String) : List TokenTree → Bool
  | t :: _ => t.isWord word
  | [] => false

/-- The trees begin with a group between these delimiters. -/
def startsWithGroup (d : Delimiter) : List TokenTree → Bool
  | .group e _ _ _ :: _ => d = e
  | _ => false

/-- The trees begin with a lifetime. -/
def startsWithLifetime : List TokenTree → Bool
  | .lifetime _ _ :: _ => true
  | _ => false

/-- Words that name nothing unless they are raw. -/
def keywords : List String :=
  ["_", "abstract", "as", "async", "await", "become", "box", "break", "const", "continue", "crate",
   "do", "dyn", "else", "enum", "extern", "false", "final", "fn", "for", "if", "impl", "in", "let",
   "loop", "macro", "match", "mod", "move", "mut", "override", "priv", "pub", "ref", "return",
   "Self", "self", "static", "struct", "super", "trait", "true", "try", "type", "typeof", "unsafe",
   "unsized", "use", "virtual", "where", "while", "yield"]

/-- The word names something. -/
def isName (i : Ident) : Bool :=
  i.raw || !keywords.contains i.name

/-- The trees begin with a word that names something. -/
def startsWithName : List TokenTree → Bool
  | .ident i _ :: _ => isName i
  | _ => false

/-- The trees begin with a word of any kind. -/
def startsWithIdent : List TokenTree → Bool
  | .ident _ _ :: _ => true
  | _ => false

/-- The trees begin with a literal, which may have a minus sign or be a truth value. -/
def startsWithLiteral : List TokenTree → Bool
  | .literal _ _ :: _ => true
  | .mark '-' _ _ :: .literal l _ :: _ => l.form = .number
  | .ident i _ :: _ => i = ⟨false, "true"⟩ || i = ⟨false, "false"⟩
  | _ => false

/-- The test holds of what comes next. -/
def sees (test : List TokenTree → Bool) : Reader Bool :=
  return test (← get)

/-- These marks come next. -/
def seesMark (marks : String) : Reader Bool :=
  sees (startsWith marks.toList)

/-- This word comes next. -/
def seesWord (word : String) : Reader Bool :=
  sees (startsWithWord word)

/-- Nothing comes next. -/
def atEnd : Reader Bool :=
  sees List.isEmpty

/-! ## Taking trees -/

/-- The marks of one operator: each is at once followed by the next, the last one stands alone. -/
def operator : List TokenTree → Written
  | .mark c _ p :: next :: rest => .mark c true p :: operator (next :: rest)
  | [.mark c _ p] => [.mark c false p]
  | trees => trees

/-- Takes the marks of one operator. -/
def mark (marks : String) : Reader Written := fun trees =>
  if startsWith marks.toList trees then
    some (operator (trees.take marks.length), trees.drop marks.length)
  else none

/-- Takes one word. -/
def word (word : String) : Reader Written
  | t :: rest => if t.isWord word then some ([t], rest) else none
  | [] => none

/-- Takes a word that names something. -/
def name : Reader Written
  | .ident i p :: rest => if isName i then some ([.ident i p], rest) else none
  | _ => none

/-- Takes a word of any kind. -/
def anyIdent : Reader Written
  | .ident i p :: rest => some ([.ident i p], rest)
  | _ => none

/-- Takes a lifetime. -/
def lifetime : Reader Written
  | .lifetime i p :: rest => some ([.lifetime i p], rest)
  | _ => none

/-- Takes a literal. -/
def literal : Reader Written
  | .literal l p :: rest => some ([.literal l p], rest)
  | .mark '-' _ p :: .literal l q :: rest => some ([.mark '-' false p, .literal l q], rest)
  | .ident i p :: rest =>
    if startsWithLiteral [.ident i p] then some ([.ident i p], rest) else none
  | _ => none

/-- Takes a group and reads all of its inside. -/
def group (d : Delimiter) (inside : Reader Written) : Reader Written
  | .group e inner p q :: rest =>
    if d = e then
      match inside inner with
      | some (written, []) => some ([.group d written p q], rest)
      | _ => none
    else none
  | _ => none

/-- Takes a group as it is. -/
def anyGroup : Reader Written
  | .group d inner p q :: rest => some ([.group d inner p q], rest)
  | _ => none

/-- Takes one tree as it is. -/
def anyTree : Reader Written
  | t :: rest => some ([t], rest)
  | [] => none

/-- Takes what a reader takes as it is. -/
def verbatim {α : Type} (reader : Reader α) : Reader Written := fun trees =>
  (reader trees).map fun r => (trees.take (trees.length - r.2.length), r.2)

/-! ## Sequences -/

/-- Reads one thing after the other. -/
def inOrder : List (Reader Written) → Reader Written
  | [] => pure []
  | first :: rest => do
    let written ← first
    return written ++ (← inOrder rest)

/-- Reads something if the condition holds. -/
def given (condition : Reader Bool) (reader : Reader Written) : Reader Written := do
  if ← condition then reader else return []

/-- Takes marks if they come next. -/
def mark? (marks : String) : Reader Written :=
  given (seesMark marks) (mark marks)

/-- Takes a word if it comes next. -/
def word? (w : String) : Reader Written :=
  given (seesWord w) (word w)

/-- Reads until there is nothing more to read, but not more often than `limit` says. -/
def repeatedly {α : Type} (step : Reader (Option α)) : (limit : Nat) → Reader (List α)
  | 0 => pure []
  | limit + 1 => do
    match ← step with
    | none => return []
    | some a => return a :: (← repeatedly step limit)

/-- Reads until there is nothing more to read. Each step takes a tree. -/
def repeated {α : Type} (step : Reader (Option α)) : Reader (List α) := do
  repeatedly step ((← get).length + 1)

/-- Reads for as long as the condition holds. -/
def whileSeen (condition : Reader Bool) (reader : Reader Written) : Reader Written := do
  let parts ← repeated do
    if ← condition then return some (← reader) else return none
  return parts.flatten

/-- Reads until no trees are left. -/
def toEnd (reader : Reader Written) : Reader Written :=
  whileSeen (return !(← atEnd)) reader

/-- Something in a sequence, and the comma behind it if there is one. -/
structure Entry (α : Type) where
  item : α
  comma : Written

/-- Reads what is separated by commas, up to where the sequence ends. A comma may follow the last
one. -/
def entries {α : Type} (ended : Reader Bool) (reader : Reader α) : Reader (List (Entry α)) :=
  repeated do
    if ← ended then return none
    let item ← reader
    if ← ended then return some ⟨item, []⟩
    return some ⟨item, ← mark ","⟩

/-- Reads what is separated by commas and writes it in the same order. -/
def commaList (ended : Reader Bool) (reader : Reader Written) : Reader Written := do
  let all ← entries ended reader
  return all.flatMap fun e => e.item ++ e.comma

/-- Something in a sequence in which lifetimes come first. -/
structure Ranked where
  isLifetime : Bool
  written : Written

/-- A comma that is not read anywhere. -/
def newComma : TokenTree :=
  .mark ',' false .start

/-- Lifetimes and then all else, each with its own comma. A comma is put between the two if none
is there. -/
def lifetimesFirst (all : List (Entry Ranked)) : Written :=
  let write (part : List (Entry Ranked)) : Written :=
    part.flatMap fun e => e.item.written ++ e.comma
  let lifetimes := all.filter fun e => e.item.isLifetime
  let others := all.filter fun e => !e.item.isLifetime
  let closed := (lifetimes.getLast?.map fun e => !e.comma.isEmpty).getD true
  let between := if closed || others.isEmpty then [] else [newComma]
  write lifetimes ++ between ++ write others

end Railroad.Phrase
