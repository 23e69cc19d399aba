import LineShell.Value

/-!
# Settings

The settings of the shell in three sections.  Each field holds a value as it was configured; what
kind of value is needed shows only where the field is used.
-/

namespace LineShell.Config

structure ShellSettings where
  promptSuffix : Value := .text "$ "
  lineBufferSize : Value := .int 256
  homeDirectory : Value := .text "/home"
  commentChar : Value := .text "#"
  deriving Inhabited, DecidableEq

/-- Settings of process management: seconds to wait for a child, with zero for as long as it takes,
and the exit status of a child that could not become its program. -/
structure ProcessSettings where
  waitTimeout : Value := .int 0
  execFailureStatus : Value := .int 1
  deriving Inhabited, DecidableEq

structure LoggingSettings where
  level : Value := .text "WARNING"
  logFile : Value := .null
  consoleOutput : Value := .bool true
  useColors : Value := .bool true
  deriving Inhabited, DecidableEq

end LineShell.Config
