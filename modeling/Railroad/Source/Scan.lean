import Railroad.Source.Extent
import Railroad.Source.Lexeme
import Railroad.Text.Quoted

/-!
# Cutting a text into lexemes

Blanks and comments separate lexemes, but a documentation comment stands for the attribute that
holds its text.

* `Lexeme.read` looks at one character and those after it, and says how many of the latter belong
  to the lexemes that begin there.
* `Lexeme.scan` cuts a whole text.
-/

namespace Railroad.Lexeme

open Source

/-- A text that cannot be cut into lexemes at this position. -/
structure Fault where
  place : Position

/-! ## Reading one lexeme -/

/-- Lexemes together with the number of characters after the first that they take up. -/
abbrev Reading := List Lexeme × Nat

/-- A literal that takes up `n` characters after `first`, with its suffix. -/
def literalReading (form : Literal.Form) (p : Position) (first : Char) (cs : List Char) (n : Nat) :
    Reading :=
  let length := n + suffixLength (cs.drop n)
  ([.literal ⟨form, String.ofList (first :: cs.take length)⟩ p], length)

/-- The text of a documentation comment as a literal. Apostrophes need no backslash there, and a
zero byte in front of an octal digit is written with two hexadecimal digits. -/
def documentationText : List Char → List Char
  | [] => []
  | '\x00' :: c :: cs =>
    if '0' ≤ c ∧ c ≤ '7' then ['\\', 'x', '0', '0'] ++ documentationText (c :: cs)
    else ['\\', '0'] ++ documentationText (c :: cs)
  | c :: cs => Text.escape c ++ documentationText cs

/-- The attribute that a documentation comment stands for. -/
def documentation (inner : Bool) (p : Position) (text : List Char) : List Lexeme :=
  let bang := if inner then [Lexeme.mark '!' false p] else []
  .mark '#' false p :: bang ++ [.opening .bracket p, .ident ⟨false, "doc"⟩ p, .mark '=' false p,
    .literal ⟨.text, String.ofList ('"' :: documentationText text ++ ['"'])⟩ p,
    .closing .bracket p]

/-- The text of a line without the carriage return in front of its line break, given what follows
the text. -/
def withoutReturn (rest text : List Char) : List Char :=
  if text.getLast? = some '\r' ∧ rest.isEmpty = false then text.dropLast else text

/-- A comment up to the end of the line, after its first slash. -/
def lineComment (p : Position) (cs : List Char) : Reading :=
  let n := lineLength cs
  match cs.take n with
  | '/' :: '/' :: '/' :: _ => ([], n)
  | '/' :: '/' :: text => (documentation false p (withoutReturn (cs.drop n) text), n)
  | '/' :: '!' :: text => (documentation true p (withoutReturn (cs.drop n) text), n)
  | _ => ([], n)

/-- A comment between slash and star, after its first slash. -/
def blockComment (p : Position) (cs : List Char) : Option Reading := do
  let n ← commentLength 0 (cs.drop 1)
  let text := (cs.drop 1).take (n - 2)
  match text with
  | '*' :: '*' :: _ => return ([], n + 1)
  | ['*'] => return ([], n + 1)
  | '*' :: inside => return (documentation false p inside, n + 1)
  | '!' :: inside => return (documentation true p inside, n + 1)
  | _ => return ([], n + 1)

/-- A raw text after `skipped` characters that come before its hash marks. -/
def rawText (form : Nat → Literal.Form) (p : Position) (first : Char) (cs : List Char)
    (skipped : Nat) : Option Reading :=
  let afterLetters := cs.drop skipped
  let hashes := (afterLetters.takeWhile (· = '#')).length
  match afterLetters.drop hashes with
  | '"' :: body =>
    (rawLength hashes body).map fun n =>
      literalReading (form hashes) p first cs (skipped + hashes + 1 + n)
  | _ => none

/-- A word, or a literal that begins with a letter. -/
def word (p : Position) (first : Char) (cs : List Char) : Option Reading :=
  let plain : Reading :=
    ([.ident ⟨false, String.ofList (first :: cs.take (wordLength cs))⟩ p], wordLength cs)
  let bytes (quote : Char) (skipped : Nat) : Option Reading :=
    (quotedLength quote (cs.drop skipped)).map fun n =>
      literalReading (if quote = '"' then .bytes else .character) p first cs (skipped + n)
  match first, cs with
  | 'r', '"' :: _ => rawText .rawText p first cs 0
  | 'r', '#' :: c :: rest =>
    if beginsWord c then
      some ([.ident ⟨true, String.ofList (c :: rest.take (wordLength rest))⟩ p],
        2 + wordLength rest)
    else rawText .rawText p first cs 0
  | 'b', '"' :: _ => bytes '"' 1
  | 'b', '\'' :: _ => bytes '\'' 1
  | 'b', 'r' :: '"' :: _ | 'b', 'r' :: '#' :: _ => rawText (fun _ => .bytes) p first cs 1
  | 'c', '"' :: _ => bytes '"' 1
  | 'c', 'r' :: '"' :: _ | 'c', 'r' :: '#' :: _ => rawText (fun _ => .bytes) p first cs 1
  | _, _ => some plain

/-- A character literal or a lifetime, after its apostrophe. -/
def apostrophe (p : Position) (cs : List Char) : Option Reading :=
  match cs with
  | '\\' :: _ :: rest =>
    (quotedLength '\'' rest).map fun n => literalReading .character p '\'' cs (n + 2)
  | _ :: '\'' :: _ => some (literalReading .character p '\'' cs 2)
  | 'r' :: '#' :: rest =>
    some ([.lifetime ⟨true, String.ofList (rest.take (wordLength rest))⟩ p], 2 + wordLength rest)
  | c :: rest =>
    if beginsWord c then
      some ([.lifetime ⟨false, String.ofList (c :: rest.take (wordLength rest))⟩ p],
        1 + wordLength rest)
    else none
  | [] => none

/-- Another mark or an apostrophe follows at once. -/
def marksFollow : List Char → Bool
  | '/' :: '/' :: _ => false
  | '/' :: '*' :: _ => false
  | c :: _ => marks.contains c || c = '\''
  | [] => false

/-- The lexemes that begin at the character `first`, which `cs` follow. -/
def read (p : Position) (first : Char) (cs : List Char) : Option Reading :=
  if isBlank first then some ([], 0)
  else match first, cs with
    | '/', '/' :: _ => some (lineComment p cs)
    | '/', '*' :: _ => blockComment p cs
    | '"', _ => (quotedLength '"' cs).map fun n => literalReading .text p first cs n
    | '\'', _ => apostrophe p cs
    | '(', '/' :: '*' :: 'E' :: 'R' :: 'R' :: 'O' :: 'R' :: '*' :: '/' :: ')' :: _ =>
      some ([.literal ⟨.unknown, "(/*ERROR*/)"⟩ p], 10)
    | '(', _ => some ([.opening .parenthesis p], 0)
    | '[', _ => some ([.opening .bracket p], 0)
    | '\x7b', _ => some ([.opening .brace p], 0)
    | ')', _ => some ([.closing .parenthesis p], 0)
    | ']', _ => some ([.closing .bracket p], 0)
    | '\x7d', _ => some ([.closing .brace p], 0)
    | _, _ =>
      if first.isDigit then
        some ([.literal ⟨.number, String.ofList (first :: cs.take (numberLength cs))⟩ p],
          numberLength cs)
      else if beginsWord first then word p first cs
      else if marks.contains first then some ([.mark first (marksFollow cs) p], 0)
      else none

/-- The lexemes of a text that begins at position `p`. -/
def scanFrom (p : Position) : List Char → Except Fault (List Lexeme)
  | [] => .ok []
  | c :: cs =>
    match read p c cs with
    | none => .error ⟨p⟩
    | some (lexemes, n) =>
      match scanFrom ((p.after c).past (cs.take n)) (cs.drop n) with
      | .ok rest => .ok (lexemes ++ rest)
      | .error fault => .error fault
termination_by cs => cs.length
decreasing_by
  simp only [List.length_drop, List.length_cons]
  omega

/-- The lexemes of a text. A byte order mark in front of it is not one of them. -/
def scan (source : String) : Except Fault (List Lexeme) :=
  match source.toList with
  | '\ufeff' :: cs => scanFrom (Position.start.after '\ufeff') cs
  | cs => scanFrom .start cs

end Railroad.Lexeme
