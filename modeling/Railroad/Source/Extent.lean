import Railroad.Source.Character

/-!
# The extent of lexemes

How many characters at the beginning of a text belong to a word, a literal or a comment. Functions
that look for an end give nothing if the text ends first.
-/

namespace Railroad.Source

/-- The number of characters of the word at the beginning. -/
def wordLength (cs : List Char) : Nat :=
  (cs.takeWhile continuesWord).length

/-- The number of characters of a suffix, if there is one. -/
def suffixLength : List Char → Nat
  | [] => 0
  | c :: cs => if beginsWord c then 1 + wordLength cs else 0

/-- The number of characters up to and with the first `quote` that follows no backslash. -/
def quotedLength (quote : Char) : List Char → Option Nat
  | [] => none
  | '\\' :: _ :: cs => (quotedLength quote cs).map (· + 2)
  | c :: cs => if c = quote then some 1 else (quotedLength quote cs).map (· + 1)

/-- The number of characters up to and with the first quote that `hashes` hash marks follow. -/
def rawLength (hashes : Nat) : List Char → Option Nat
  | [] => none
  | c :: cs =>
    if c = '"' ∧ (cs.take hashes) = List.replicate hashes '#' then some (1 + hashes)
    else (rawLength hashes cs).map (· + 1)

/-- The number of characters up to the end of the line. -/
def lineLength (cs : List Char) : Nat :=
  (cs.takeWhile (· ≠ '\n')).length

/-- The number of characters up to and with the end of a comment inside `depth` further ones. -/
def commentLength (depth : Nat) : List Char → Option Nat
  | '*' :: '/' :: cs =>
    match depth with
    | 0 => some 2
    | outer + 1 => (commentLength outer cs).map (· + 2)
  | '/' :: '*' :: cs => (commentLength (depth + 1) cs).map (· + 2)
  | _ :: cs => (commentLength depth cs).map (· + 1)
  | [] => none

/-! ## Numbers

A number with a point or an exponent is tried first; what is no such number is digits alone. Either
may have a suffix. -/

/-- The number of characters of the digits of an exponent, which a sign may stand in front of or
between but not behind a digit, and whether there is a digit. Nothing if there are two signs. -/
def exponentLength (signed valued : Bool) : List Char → Option (Nat × Bool)
  | [] => some (0, valued)
  | c :: cs =>
    if c = '+' ∨ c = '-' then
      if valued then some (0, valued)
      else if signed then none
      else (exponentLength true valued cs).map fun r => (r.1 + 1, r.2)
    else if c.isDigit then (exponentLength signed true cs).map fun r => (r.1 + 1, r.2)
    else if c = '_' then (exponentLength signed valued cs).map fun r => (r.1 + 1, r.2)
    else some (0, valued)

/-- The number of characters up to and with the exponent, which an `e` begins. An exponent without
a value is none, and the number ends before it, but then there must be a point in it. -/
def lengthWithExponent (point : Bool) (cs : List Char) : Option Nat :=
  match exponentLength false false cs with
  | some (n, true) => some (n + 1)
  | _ => if point then some 0 else none

/-- The number of characters, after the first digit, of a number with a point or an exponent. A
point that another point or a word follows belongs to no number. -/
def fractionLength (point : Bool) : List Char → Option Nat
  | [] => if point then some 0 else none
  | c :: cs =>
    if c.isDigit ∨ c = '_' then (fractionLength point cs).map (· + 1)
    else if c = 'e' ∨ c = 'E' then lengthWithExponent point cs
    else if c = '.' ∧ point = false then
      match cs.head? with
      | some d => if d = '.' ∨ beginsWord d then none else (fractionLength true cs).map (· + 1)
      | none => some 1
    else if point then some 0 else none

/-- The number of characters of a number after its first digit, with its suffix. -/
def numberLength (cs : List Char) : Nat :=
  match fractionLength false cs with
  | some n => n + suffixLength (cs.drop n)
  | none => wordLength cs

end Railroad.Source
