import LineShell.Log.Level
import LineShell.Value

/-!
# Log entries

An entry is what the shell has to say at one point of its work: how much it matters, which part of
the shell speaks, the message, the process it is about and named details.
-/

namespace LineShell.Log

/-- One thing the shell has to say. -/
structure Entry where
  level : Level
  subsystem : Text
  message : Text
  pid : Option Int
  context : Fields
  deriving Inhabited

end LineShell.Log
