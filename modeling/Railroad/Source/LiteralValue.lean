import Railroad.Source.Extent
import Railroad.Source.Lexeme

/-!
# The value of a literal

Model of the text of a `LitStr`. The text that a literal stands for: its escapes are replaced by the
characters they mean, and a raw text is taken as it is.
-/

namespace Railroad

namespace Literal

/-- The value of a hexadecimal digit. -/
def hexDigit? (c : Char) : Option Nat :=
  if c.isDigit then some (c.toNat - '0'.toNat)
  else if 'a' ≤ c ∧ c ≤ 'f' then some (c.toNat - 'a'.toNat + 10)
  else if 'A' ≤ c ∧ c ≤ 'F' then some (c.toNat - 'A'.toNat + 10)
  else none

/-- Where the reader of a text with escapes stands. -/
inductive Reader where
  /-- At any character. -/
  | plain
  /-- Between the digits of a character's number, with the value so far. -/
  | number (value : Nat)
  /-- After a line break that does not belong to the text. -/
  | gap

/-- Replaces escapes by the characters they mean. -/
def unescape : Reader → List Char → Option (List Char)
  | .plain, [] => some []
  | .gap, [] => some []
  | .number _, [] => none
  | .number n, '\x7d' :: cs => (unescape .plain cs).map (Char.ofNat n :: ·)
  | .number n, '_' :: cs => unescape (.number n) cs
  | .number n, c :: cs => (hexDigit? c).bind fun d => unescape (.number (16 * n + d)) cs
  | .gap, ' ' :: cs => unescape .gap cs
  | .gap, '\n' :: cs => unescape .gap cs
  | .gap, '\t' :: cs => unescape .gap cs
  | .gap, '\r' :: cs => unescape .gap cs
  | _, '\\' :: 'n' :: cs => (unescape .plain cs).map ('\n' :: ·)
  | _, '\\' :: 'r' :: cs => (unescape .plain cs).map ('\r' :: ·)
  | _, '\\' :: 't' :: cs => (unescape .plain cs).map ('\t' :: ·)
  | _, '\\' :: '0' :: cs => (unescape .plain cs).map ('\x00' :: ·)
  | _, '\\' :: '\\' :: cs => (unescape .plain cs).map ('\\' :: ·)
  | _, '\\' :: '\'' :: cs => (unescape .plain cs).map ('\'' :: ·)
  | _, '\\' :: '"' :: cs => (unescape .plain cs).map ('"' :: ·)
  | _, '\\' :: '\n' :: cs => unescape .gap cs
  | _, '\\' :: 'x' :: a :: b :: cs => do
    let high ← hexDigit? a
    let low ← hexDigit? b
    let rest ← unescape .plain cs
    return Char.ofNat (16 * high + low) :: rest
  | _, '\\' :: 'u' :: '\x7b' :: cs => unescape (.number 0) cs
  | _, '\\' :: _ => none
  | _, c :: cs => (unescape .plain cs).map (c :: ·)

/-- The text that a literal stands for, if it stands for a text. A text with a suffix stands for
nothing. -/
def value? (l : Literal) : Option String :=
  match l.form with
  | .text => do
    let inside := l.spelling.toList.drop 1
    let n ← Source.quotedLength '"' inside
    let cs ← unescape .plain (inside.take (n - 1))
    if inside.length = n then return String.ofList cs else none
  | .rawText hashes => do
    let inside := l.spelling.toList.drop (2 + hashes)
    let n ← Source.rawLength hashes inside
    if inside.length = n then return String.ofList (inside.take (n - 1 - hashes)) else none
  | _ => none

end Literal

end Railroad
