import Railroad.Phrase.Reader

/-!
# Places of fields

A field that is told apart by its place is written with the place as a plain decimal number, however
the place was spelled. Two places with a point between them may have been read as one number.

* `placeNumber` is the value of a spelling, `placeTrees` are the trees that several places are.
-/

namespace Railroad.Phrase

/-- The value of a digit in any base up to sixteen. -/
def digitValue (c : Char) : Nat :=
  if c.isDigit then c.toNat - '0'.toNat
  else if 'a' ≤ c ∧ c ≤ 'f' then c.toNat - 'a'.toNat + 10
  else c.toNat - 'A'.toNat + 10

/-- The value of digits in a base. Underscores among them count for nothing. -/
def digitsValue (base : Nat) (cs : List Char) : Nat :=
  (cs.filter (· ≠ '_')).foldl (fun n c => base * n + digitValue c) 0

/-- The number that a spelling is. -/
def placeNumber : List Char → Nat
  | '0' :: 'x' :: cs => digitsValue 16 cs
  | '0' :: 'o' :: cs => digitsValue 8 cs
  | '0' :: 'b' :: cs => digitsValue 2 cs
  | cs => digitsValue 10 cs

/-- A place as it is written. -/
def placeTree (p : Position) (spelling : List Char) : TokenTree :=
  .literal ⟨.number, toString (placeNumber spelling)⟩ p

/-- The spellings between points. -/
def pointSplit : List Char → List (List Char)
  | [] => [[]]
  | '.' :: cs => [] :: pointSplit cs
  | c :: cs =>
    match pointSplit cs with
    | [] => [[c]]
    | first :: rest => (c :: first) :: rest

/-- The places that one number is, each with a point in front of it but the first, and whether a
point follows the last one. -/
def placeTrees (p : Position) (spelling : String) : Written × Bool :=
  let spellings := pointSplit spelling.toList
  let dotted := spellings.length > 1 && spellings.getLast? = some []
  let all := if dotted then spellings.dropLast else spellings
  let trees := all.map (placeTree p)
  (trees.intersperse (.mark '.' false p) ++ if dotted then [.mark '.' false p] else [], dotted)

/-- Takes the place of a field. No point may be in it. -/
def place : Reader Written
  | .literal l p :: rest =>
    if l.form = .number ∧ '.' ∉ l.spelling.toList then some ([placeTree p l.spelling.toList], rest) else none
  | _ => none

/-- The trees begin with a number. -/
def startsWithNumber : List TokenTree → Bool
  | .literal l _ :: _ => l.form = .number
  | _ => false

/-- Takes the name or the place of a field. -/
def member : Reader Written := do
  if ← sees startsWithNumber then place else name

end Railroad.Phrase
