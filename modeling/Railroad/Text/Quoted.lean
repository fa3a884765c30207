import Railroad.Text.Invisible

/-!
# Quoted text

Model of the `Debug` output of a text (`escape_debug`): a text shown between double quotes,
character by character: a quote and a backslash follow a backslash, the five common controls have a
letter each, any other invisible character is its hexadecimal number, and all else stands as it is.

* `Text.escape`: the written form of one character.
* `Text.quote`: the written form of a text.
-/

namespace Railroad.Text

/-- The lower case hexadecimal digits of a number. -/
def hexDigits (n : Nat) : List Char :=
  Nat.toDigits 16 n

/-- The written form of one character between quotes. -/
def escape (c : Char) : List Char :=
  if c = '"' then ['\\', '"']
  else if c = '\\' then ['\\', '\\']
  else if c = '\n' then ['\\', 'n']
  else if c = '\r' then ['\\', 'r']
  else if c = '\t' then ['\\', 't']
  else if c = '\x00' then ['\\', '0']
  else if isInvisible c then ['\\', 'u', '\x7b'] ++ hexDigits c.toNat ++ ['\x7d']
  else [c]

/-- A text between double quotes. -/
def quote (s : String) : String :=
  String.ofList ('"' :: s.toList.flatMap escape ++ ['"'])

@[simp] theorem toList_quote (s : String) :
    (quote s).toList = '"' :: s.toList.flatMap escape ++ ['"'] := by
  simp [quote]

end Railroad.Text
