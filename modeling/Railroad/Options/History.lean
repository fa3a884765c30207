import Railroad.Options.Basic

/-!
# Histories of options

Runs of `new`, `with`, `insert` and `from_iter`: the writes that options undergo one after the
other. `Options.apply` carries out one of them and hands back the value it replaces;
`Options.replay` carries out a whole history, beginning with no options.
-/

namespace Railroad.Options

/-- A write to options. -/
inductive Write where
  /-- Starts again without options. -/
  | clear
  /-- Starts again with entries, of which a later one wins over an earlier one. -/
  | load (entries : List OptionEntry)
  /-- Writes a value and asks for the one it replaces. -/
  | insert (name : String) (value : OptionValue)
  /-- Writes a value. -/
  | set (name : String) (value : OptionValue)

/-- Carries out a write, and hands back the replaced value if it was asked for. -/
def apply (o : Options) : Write → Option OptionValue × Options
  | .clear => (none, empty)
  | .load entries => (none, ofList entries)
  | .insert name value => o.insert name value
  | .set name value => (none, o.set name value)

/-- The options after a history of writes. -/
def replay (history : List Write) : Options :=
  history.foldl (fun o w => (o.apply w).2) empty

end Railroad.Options
