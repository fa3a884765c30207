/-!
# The events of a registry

The events that `register`, `create_railroad`, `create_railroad_of` and `delegate` log. What a
registry reports while it works: that a type is registered, that a drawing is left to a registered
type, and that a value is rejected because its type is not registered. Reports go into the state of
the program at the moment they are made.
-/

namespace Railroad.Registry

/-- A report of a registry. -/
inductive Event where
  /-- The type with this name is registered. -/
  | registering (typeName : String)
  /-- A value is drawn as the type with this name draws. -/
  | delegating (typeName : String)
  /-- A value of the type with this name is rejected. -/
  | rejectedType (typeName : String)
  /-- A value is rejected of whose type the identity alone is known. -/
  | rejectedIdentity (identity : String)
  deriving DecidableEq

/-- How important a report is. -/
inductive Level where
  | trace
  | debug
  deriving DecidableEq

namespace Event

/-- The importance of a report. -/
def level : Event → Level
  | .registering _ | .delegating _ => .trace
  | .rejectedType _ | .rejectedIdentity _ => .debug

/-- The wording of a report. -/
def message : Event → String
  | .registering _ => "registering railroadable type"
  | .delegating _ => "delegating create_railroad"
  | .rejectedType _ | .rejectedIdentity _ => "rejected value without railroad capability"

end Event

/-- The name of a level as it is shown. -/
def Level.name : Level → String
  | .trace => "TRACE"
  | .debug => "DEBUG"

/-- A state that takes reports. -/
class Recorder (σ : Type) where
  /-- The state after a report. -/
  record : Event → σ → σ

end Railroad.Registry
