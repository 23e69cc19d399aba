import LineShell.Config.Loader
import LineShell.Log.Journal
import LineShell.Program.Run
import LineShell.Shell
import LineShell.Text.UpperCase

/-!
# The start of the program

The program reads its configuration, sets up its journal and then runs the shell.  What is wrong
with the configuration is told in one line on standard error, and the exit status is one; any other
failure ends the program as it is.
-/

namespace LineShell.Launch

open Log

def programName : Text := "minish"

def refusedStatus : Int := 1

/-- The level a setting names, in capital letters or not. -/
def levelOf (setting : Value) : Except Failure Level :=
  match setting with
  | .text t =>
    let name := Text.toUpper t
    match Level.ofName? name with
    | some level => .ok level
    | none => .error (.unknownName name)
  | _ => .error .noSuchPart

def setUpJournal (settings : Config.LoggingSettings) (j : Journal) :
    Except Failure Unit × Journal :=
  match levelOf settings.level with
  | .error e => (.error e, j)
  | .ok level =>
    j.setUp ⟨.int level.value, settings.logFile, settings.consoleOutput, settings.useColors⟩

structure Settings where
  shell : Config.ShellSettings
  process : Config.ProcessSettings
  logging : Config.LoggingSettings

/-- The sections of a configuration, which all have to be there. -/
def Settings.ofConfig (c : Config) : Except Failure Settings :=
  match c.shell.settings?, c.process.settings?, c.logging.settings? with
  | some shell, some process, some logging => .ok ⟨shell, process, logging⟩
  | _, _, _ => .error .noSuchPart

/-- What the process has room for: so many bytes in a line buffer, and so many containers inside each
other in the configuration file. -/
structure Limits where
  memory : Nat
  nesting : Nat

/-- Reads the configuration from the file of a path, if there is one, and sets up the journal. -/
def prepare (limits : Limits) (configPath : Option Text) (j : Journal) :
    Except Failure Settings × Journal :=
  match (Config.Loader.loadIfThere {} limits.nesting j.disk configPath).1 >>= Settings.ofConfig with
  | .error e => (.error e, j)
  | .ok settings =>
    let (outcome, after) := setUpJournal settings.logging j
    (outcome.map fun _ => settings, after)

/-- The words for a failure that keeps the program from starting: a report about the configuration,
or a level that does not exist. -/
def reasonFor? : Failure → Option Text
  | .report r => if r.kind.family = .kernel then some r.render else none
  | .unknownName name => (Failure.unknownName name).message?
  | _ => none

inductive Start where
  /-- The shell can be run. -/
  | ready (settings : Settings)
  /-- What is wrong was told, and the program ends. -/
  | refused
  /-- The program ends with a failure. -/
  | failed (e : Failure)

/-- Prepares the program, and tells on standard error what is wrong with its configuration. -/
def start (limits : Limits) (configPath : Option Text) (j : Journal) : Start × Journal :=
  match prepare limits configPath j with
  | (.ok settings, after) => (.ready settings, after)
  | (.error e, after) =>
    match reasonFor? e with
    | some reason => (.refused, after.print (programName ++ ": cannot start: " ++ reason ++ "\n"))
    | none => (.failed e, after)

/-- Starts a shell, and runs the scripts and standard input. -/
def work (limits : Limits) (settings : Settings) (rounds : Nat) (scripts : List Text) :
    Action Int := do
  let shell ← Shell.start limits.memory settings.shell settings.process
  shell.run rounds scripts

/-- What is left of a program: how it ended, the world and what was seen of it, and the journal. -/
structure Result (World : Type) where
  ending : Ending Int
  world : World
  events : List (Event ServiceCall.Reply)
  journal : Journal

/-- Runs the program in a world, given how the world performs an action.  All log entries are made
at one moment. -/
def run {World : Type} (limits : Limits)
    (perform : ((rounds : Nat) → Action Int) → Session → World →
      Outcome Session World ServiceCall.Reply Int)
    (moment : Double) (configPath : Option Text) (scripts : List Text) (j : Journal) (w : World) :
    Result World :=
  match start limits configPath j with
  | (.refused, after) => ⟨.returned refusedStatus, w, [], after⟩
  | (.failed e, after) => ⟨.failed e, w, [], after⟩
  | (.ready settings, after) =>
    let o := perform (fun rounds => work limits settings rounds scripts) Session.unstarted w
    ⟨o.ending, o.world, o.events, after.takeEntries moment (Event.entries o.events)⟩

end LineShell.Launch
