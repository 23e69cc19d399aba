import LineShell.Lookup
import LineShell.Shell.Session

/-!
# Children

Making a child, turning it into another program, waiting for it and ending it.  At most one child is
in the foreground: the one started last, until a wait reports that it is gone.
-/

namespace LineShell.Child

open Program LineShell.Action

/-- Whether the program named by a command is a path as it stands or is looked up. -/
inductive SearchMode where
  | literal
  | search
  deriving DecidableEq, Repr, Inhabited

namespace SearchMode

def all : List SearchMode := [literal, search]

def name : SearchMode → Text
  | literal => "LITERAL"
  | search => "SEARCH"

def value : SearchMode → Int
  | literal => 0
  | search => 1

end SearchMode

def say (level : Log.Level) (message : Text) (pid : Option Int) (context : Fields) : Action Unit :=
  Action.log level "process" message pid context

def isFile (path : Text) : Action Bool := ask (.fileExists path)

/-- Makes a child: zero in the child, its id in the parent, where it becomes the foreground. -/
def spawn : Action Int := do
  let pid ← (ask .fork).orElse fun e => do
    match e.reportOf? .forkFailed with
    | some r => say .debug (("fork failed: " : Text) ++ r.render) none []
    | none => pure ()
    fail e
  if 0 < pid then
    update fun s => { s with foreground := some pid }
    say .debug "Spawned child" (some pid) []
  return pid

def resolveProgram (name : Text) : SearchMode → Action Text
  | .literal => pure name
  | .search => do
    let pwd ← ask .getPwd
    let path ← ask .getPath
    Lookup.resolve isFile name pwd path

/-- Becomes the program of an argument vector.  It never returns: becoming the program fails even
when the service returns. -/
def replaceProgram (argv : List Text) (mode : SearchMode) : Action Unit := do
  let pid ← ask .getPid
  match argv with
  | [] => fail (.execFailed "Empty argument vector" pid none)
  | name :: _ => do
    let path ← resolveProgram name mode
    say .debug (("exec " : Text) ++ path) (some pid)
      [("argc", .int argv.length), ("mode", .text mode.name)]
    (ask (.exec path argv)).orElse fun e => do
      match e.reportOf? .execFailed with
      | some r =>
        say .debug (("exec failed: " : Text) ++ r.message.render) (some pid) [("path", .text path)]
      | none => pure ()
      fail e
    fail (.execFailed "exec returned" pid (some path))

/-- Waits for a child; when it is gone it is no longer in the foreground. -/
def wait (pid : Int) (timeout : Value) : Action WaitOutcome := do
  let outcome ← ask (.waitpid pid timeout)
  let s ← state
  if outcome.reaped && s.foreground == some pid then
    update fun s => { s with foreground := none }
  if outcome.completed then
    say .debug "Child finished" (some pid) []
  else
    say .info "Child did not complete normally" (some pid) [("outcome", .text outcome.name)]
  return outcome

def terminate (status : Value) : Action Unit := do
  let pid ← ask .getPid
  say .debug "Terminating" (some pid) [("status", status)]
  ask (.exit status)

end LineShell.Child
