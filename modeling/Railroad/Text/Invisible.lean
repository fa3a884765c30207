import Railroad.Text.Attached
import Railroad.Text.Unseen

/-!
# Characters without a visible form of their own

A character is invisible if it shows nothing, if it is drawn onto the character before it, or if it
is a letter that stands for the absence of a letter.

* `Text.isInvisible` decides this. Characters from the space to the tilde are visible, and nearly
  every text consists of them, so they are not looked up.
-/

namespace Railroad.Text

/-- Letters that fill the place of a missing one: the ignorable code points of Unicode 17 that are
letters. -/
def fillers : List Nat :=
  [0x115f, 0x1160, 0x3164, 0xffa0]

/-- `n` lies in one of the ranges. -/
def inRanges (ranges : List (Nat × Nat)) (n : Nat) : Bool :=
  ranges.any fun r => decide (r.1 ≤ n) && decide (n ≤ r.2)

/-- A character that has no visible form of its own. -/
def isInvisible (c : Char) : Bool :=
  if ' ' ≤ c ∧ c ≤ '~' then false
  else inRanges unseenRanges c.toNat || inRanges attachedRanges c.toNat || fillers.contains c.toNat

end Railroad.Text
