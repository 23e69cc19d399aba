import LineShell.LineBuffer
import LineShell.Program
import LineShell.Service

/-!
# The session

What the shell keeps while it runs: its working directory, the child it waits for, and the buffer
that holds the current line.
-/

namespace LineShell

structure Session where
  /-- The working directory as the shell knows it. -/
  cwd : Text
  /-- The child that was started last and is not yet known to be gone. -/
  foreground : Option Int
  /-- The current line. -/
  line : LineBuffer
  deriving Inhabited

def Session.unstarted : Session := ⟨[], none, LineBuffer.empty 0⟩

/-- A computation of the shell. -/
abbrev Action := Program Session ServiceCall.Reply

def Action.ask (c : ServiceCall) : Action c.Reply := Program.request c

def Action.log (level : Log.Level) (subsystem message : Text) (pid : Option Int := none)
    (context : Fields := []) : Action Unit :=
  Program.log ⟨level, subsystem, message, pid, context⟩

end LineShell
