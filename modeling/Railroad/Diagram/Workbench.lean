import Railroad.Diagram.Basic

/-!
# A workbench for diagrams

A stack of diagrams on which commands build larger diagrams from the topmost ones, take them apart,
and answer questions about them.

* `Workbench.run` carries out one command. It fails without a change if the stack is too small or
  a token gets an unknown kind code.
-/

namespace Railroad

namespace Diagram

/-- The parts of a sequence or choice in reverse order, or a loop with its roles exchanged. -/
def reverse : Diagram → Diagram
  | .sequence parts => .sequence parts.reverse
  | .choice branches => .choice branches.reverse
  | .loop body delimiter => .loop delimiter body
  | d => d

/-- A sequence as a choice of its parts, and a choice as the sequence of its branches. -/
def flip : Diagram → Diagram
  | .sequence parts => .choice parts
  | .choice branches => .sequence branches
  | d => d

/-- The parts that a diagram falls into; a leaf stays whole. -/
def pieces : Diagram → List Diagram
  | .nothing => [.nothing]
  | .token t => [.token t]
  | d => d.children

end Diagram

/-- A stack of diagrams, the topmost first. -/
abbrev Workbench := List Diagram

namespace Workbench

/-- What can be done with the diagrams on top. -/
inductive Command where
  /-- Puts a diagram on top. -/
  | push (d : Diagram)
  /-- Makes a sequence of the topmost `n`, the deepest first. -/
  | sequence (n : Nat)
  /-- Makes a choice of the topmost `n`, the deepest first. -/
  | choice (n : Nat)
  /-- Makes a loop; the delimiter is on top of the body. -/
  | loop
  | optional
  | oneOrMore
  | zeroOrMore
  | duplicate
  | swap
  | drop
  /-- Replaces the topmost by its pieces, the first piece deepest. -/
  | split
  | reverse
  | flip
  /-- Gives the topmost. -/
  | look
  /-- Tells whether the two topmost are equal. -/
  | equal
  /-- Gives the `n`-th direct part of the topmost, counted from 0. -/
  | child (n : Nat)
  /-- Gives the topmost token another kind code. -/
  | recode (code : Int64)

/-- How many diagrams a command needs. -/
def Command.needs : Command → Nat
  | .push _ => 0
  | .sequence n | .choice n => n
  | .loop | .swap | .equal => 2
  | .optional | .oneOrMore | .zeroOrMore | .duplicate | .drop | .split | .reverse | .flip | .look
  | .child _ | .recode _ => 1

/-- The answer to a command. -/
inductive Reply where
  | done
  | diagram (d : Diagram)
  | equality (equal : Bool)
  | child (part : Option Diagram)
  /-- Only a token can get another kind code. -/
  | notToken

/-- Why a command cannot be carried out. -/
inductive Fault where
  /-- There are fewer diagrams than needed. -/
  | underflow (needs has : Nat)
  /-- A token was refused. -/
  | refused (refusal : Refusal)

/-- Carries out one command. -/
def run : Command → Workbench → Except Fault (Reply × Workbench)
  | .push d, bench => .ok (.done, d :: bench)
  | .sequence n, bench =>
    if n ≤ bench.length then .ok (.done, .sequence (bench.take n).reverse :: bench.drop n)
    else .error (.underflow n bench.length)
  | .choice n, bench =>
    if n ≤ bench.length then .ok (.done, .choice (bench.take n).reverse :: bench.drop n)
    else .error (.underflow n bench.length)
  | .loop, delimiter :: body :: rest => .ok (.done, .loop body delimiter :: rest)
  | .optional, d :: rest => .ok (.done, d.optional :: rest)
  | .oneOrMore, d :: rest => .ok (.done, d.oneOrMore :: rest)
  | .zeroOrMore, d :: rest => .ok (.done, d.zeroOrMore :: rest)
  | .duplicate, d :: rest => .ok (.done, d :: d :: rest)
  | .swap, d :: e :: rest => .ok (.done, e :: d :: rest)
  | .drop, _ :: rest => .ok (.done, rest)
  | .split, d :: rest => .ok (.done, d.pieces.reverse ++ rest)
  | .reverse, d :: rest => .ok (.done, d.reverse :: rest)
  | .flip, d :: rest => .ok (.done, d.flip :: rest)
  | .look, d :: rest => .ok (.diagram d, d :: rest)
  | .equal, d :: e :: rest => .ok (.equality (decide (d = e)), d :: e :: rest)
  | .child n, d :: rest => .ok (.child d.children[n]?, d :: rest)
  | .recode code, .token t :: rest =>
    match Token.ofCode code t.text with
    | .ok token => .ok (.done, .token token :: rest)
    | .error refusal => .error (.refused refusal)
  | .recode _, d :: rest => .ok (.notToken, d :: rest)
  | command, bench => .error (.underflow command.needs bench.length)

end Workbench

end Railroad
