import LineShell.Lookup
import LineShell.Shell.Session

/-!
# Built-in commands

Two commands are run by the shell itself: `exit` ends the interpreter and `cd` changes the working
directory.

`cd` either does all of its work or none: the directory is published to the services first, and the
shell takes it over only when that went well.  A target that is no directory is reported to the
user in one line.
-/

namespace LineShell

/-- The commands run by the shell itself. -/
inductive Builtin where
  | cd
  | exit
  deriving DecidableEq, Repr

namespace Builtin

open Program LineShell.Action

/-- What the interpreter does after a line was handed to the built-in commands. -/
inductive Verdict where
  /-- The line names no built-in command: a child runs it. -/
  | notBuiltin
  /-- The line is done with: the next one is read. -/
  | handled
  /-- All input is done with. -/
  | exit
  deriving DecidableEq, Repr, Inhabited

def all : List Builtin := [cd, exit]

def name : Builtin → Text
  | cd => "cd"
  | exit => "exit"

def ofName? (t : Text) : Option Builtin := all.find? fun b => b.name == t

/-- The target of a change of directory: the home directory without an argument, and else the first
argument, relative to the working directory. -/
def target (home : Value) (cwd : Text) : List Text → Value
  | [] => home
  | path :: _ => .text (Lookup.absolute path cwd)

/-- Changes the working directory, which has to be a directory.  Only text can name one. -/
def changeDirectory (home : Value) (arguments : List Text) : Action Verdict := do
  let s ← state
  let target := target home s.cwd arguments
  let isDirectory ← ask (.isDir target)
  match isDirectory, target with
  | true, .text path => do
    ask (.setPwd path)
    update fun s => { s with cwd := path }
    Action.log .debug "shell" (("Working directory is now " : Text) ++ path)
    return .handled
  | _, _ => fail (.notADirectory target [])

def run (home : Value) (arguments : List Text) : Builtin → Action Verdict
  | cd => changeDirectory home arguments
  | exit => pure .exit

/-- Runs a line as a built-in command if its first token names one.  A failure of the file family
is reported to the user, and the line is done with. -/
def dispatch (home : Value) (tokens : List Text) : Action Verdict :=
  let command := tokens.headD []
  match ofName? command with
  | none => pure .notBuiltin
  | some b =>
    (b.run home tokens.tail).orElse fun e =>
      match e.fileReport? with
      | none => fail e
      | some r => do
        Action.log .debug "shell" (command ++ ": " ++ r.render)
        ask (.write standardOutput (r.message.render ++ "\n"))
        return .handled

end Builtin

end LineShell
