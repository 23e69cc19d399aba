import LineShell.Config.Settings
import LineShell.Shell.Builtin
import LineShell.Shell.Child

/-!
# The shell

The shell reads lines from a source, runs the built-in commands itself and every other line in a
child, one at a time.  Scripts are run first, silently, each up to its end; then standard input is
run interactively: the working directory is shown before each line, and an interrupt while a line
is awaited only shows it again.

A line with the command `exit` ends everything.  A script is given up when no child can be made,
standard input is not.
-/

namespace LineShell

/-- The fixed parts of a running shell. -/
structure Shell where
  promptSuffix : Value
  home : Value
  marker : CodePoint
  waitTimeout : Value
  execFailureStatus : Value
  deriving Inhabited

namespace Shell

open Program LineShell.Action

def interruptedStatus : Int := 130

def say (level : Log.Level) (message : Text) (context : Fields := []) : Action Unit :=
  Action.log level "shell" message none context

/-- Starts a shell: its buffer and its comment marker come from the settings, its working directory
from the services. -/
def start (memory : Nat) (shell : Config.ShellSettings) (process : Config.ProcessSettings) :
    Action Shell := do
  let line ← ofExcept (LineBuffer.ofSetting memory shell.lineBufferSize)
  let marker ← ofExcept (LineBuffer.markerOfSetting shell.commentChar)
  let cwd ← ask .getPwd
  update fun _ => ⟨cwd, none, line⟩
  return ⟨shell.promptSuffix, shell.homeDirectory, marker, process.waitTimeout,
    process.execFailureStatus⟩

def print (text : Text) : Action Unit := ask (.write standardOutput text)

/-- Shows the working directory and the suffix of the prompt, which has to be text. -/
def prompt (shell : Shell) : Action Unit := do
  let s ← state
  match shell.promptSuffix with
  | .text suffix => print (s.cwd ++ suffix)
  | _ => fail .wrongKind

/-- Shows the prompt of an interactive source; any other source is silent. -/
def announce (shell : Shell) (interactive : Bool) : Action Unit :=
  if interactive then prompt shell else pure ()

/-- In the child: becomes the command, and ends the process in any case. -/
def becomeCommand (shell : Shell) (tokens : List Text) : Action Unit :=
  ((Child.replaceProgram tokens .search).orElse fun e =>
      match e.reportOf? .execFailed with
      | some _ => print "could not exec\n"
      | none => fail e).andFinally
    (Child.terminate shell.execFailureStatus)

/-- Makes a child; none when that fails, which the user is told. -/
def spawnOrReport : Action (Option Int) := do
  match ← Child.spawn.attempt with
  | .ok pid => return some pid
  | .error e =>
    match e.reportOf? .forkFailed with
    | some _ => do
      print "could not fork\n"
      return none
    | none => fail e

/-- Runs a command in a child and waits for it; false when no child could be made. -/
def runInChild (shell : Shell) (tokens : List Text) : Action Bool := do
  match ← spawnOrReport with
  | none => return false
  | some pid => do
    -- the child comes back from this only with a failure
    if pid = 0 then becomeCommand shell tokens
    let _ ← Child.wait pid shell.waitTimeout
    return true

/-- Puts a line that was read into the buffer and splits it into tokens. -/
def tokenize (shell : Shell) (chunk : Bytes) : Action (List Text) := do
  let s ← state
  let (_, filled) ← ofExcept (s.line.fill chunk)
  update fun s => { s with line := filled.stripNewline }
  -- the buffer keeps the line even where it cannot be split
  let (vector, split) ← ofExcept (filled.stripNewline.tokenize shell.marker)
  update fun s => { s with line := split }
  ofExcept (vector.tokens split)

inductive Reading where
  | line (chunk : Bytes)
  | interrupted
  | exhausted

/-- Reads the next line of a source.  An interrupt at the prompt only starts a new line on the
screen; an error of the operating system is the end of the source. -/
def readLine (interactive : Bool) (fd offset : Int) : Action Reading := do
  let s ← state
  match ← (ask (.readLine fd offset s.line.size)).attempt with
  | .ok [] => return .exhausted
  | .ok chunk => return .line chunk
  | .error .interrupt =>
    if interactive then do
      print "\n"
      return .interrupted
    else fail .interrupt
  | .error (.os errno text) => do
    say .error (("Read failed: " : Text) ++ Failure.osMessage errno text) [("fd", .int fd)]
    return .exhausted
  | .error e => fail e

/-- What is to be done after a line: go on with the source, leave it, or leave all of them. -/
inductive Next where
  | goOn
  | leaveSource
  | leaveAll
  deriving DecidableEq, Repr

/-- Goes on with a line that was handed to the built-in commands: a child runs it when it names none
of them. -/
def follow (shell : Shell) (interactive : Bool) (tokens : List Text) :
    Builtin.Verdict → Action Next
  | .exit => pure .leaveAll
  | .handled => pure .goOn
  | .notBuiltin => do
    if ← runInChild shell tokens then return .goOn
    return if interactive then .goOn else .leaveSource

/-- Runs the command of one line, which is handed to the built-in commands first. -/
def runLine (shell : Shell) (dispatch : List Text → Action Builtin.Verdict) (interactive : Bool)
    (chunk : Bytes) : Action Next := do
  let tokens ← tokenize shell chunk
  let verdict ← dispatch tokens
  follow shell interactive tokens verdict

/-- Runs the lines of a source from an offset on; false when `exit` was run. -/
def runFrom (shell : Shell) (dispatch : List Text → Action Builtin.Verdict) (fd : Int)
    (interactive : Bool) : (rounds : Nat) → Int → Action Bool
  | 0, _ => outOfRounds
  | rounds + 1, offset => do
    announce shell interactive
    match ← readLine interactive fd offset with
    | .exhausted => return true
    -- nothing was taken from the source, so the same line is read again
    | .interrupted => runFrom shell dispatch fd interactive rounds offset
    | .line chunk => do
      match ← runLine shell dispatch interactive chunk with
      | .leaveAll => return false
      | .leaveSource => return true
      | .goOn => runFrom shell dispatch fd interactive rounds (offset + chunk.length)

def runSource (shell : Shell) (rounds : Nat) (fd : Int) (interactive : Bool) : Action Bool :=
  runFrom shell (Builtin.dispatch shell.home) fd interactive rounds 0

/-- Opens a script; none when there is no such file, which is no error. -/
def openScript (path : Text) : Action (Option Int) := do
  match ← (ask (.openReadOnly path)).attempt with
  | .ok fd => return some fd
  | .error e =>
    match e.reportOf? .fileNotFound with
    | some r => do
      say .debug (("Skipping script: " : Text) ++ r.render)
      return none
    | none => fail e

/-- Runs a script and closes it; false when it ran `exit`. -/
def runScript (shell : Shell) (rounds : Nat) (script : Text) : Action Bool := do
  let s ← state
  let searchPath ← ask .getPath
  let path ← Lookup.resolve Child.isFile script s.cwd searchPath
  match ← openScript path with
  | none => return true
  | some fd => do
    say .debug (("Running script " : Text) ++ path) [("fd", .int fd)]
    -- closing comes last in any case, and its failure is the one that counts
    (runSource shell rounds fd false).andFinally (ask (.close fd))

/-- Hands the working directory to the services, so that children inherit it. -/
def publishCwd : Action Unit := do
  let s ← state
  (ask (.setPwd s.cwd)).orElse fun e =>
    match e.reportOf? .notADirectory with
    | some r => say .warning (("Cannot publish working directory: " : Text) ++ r.render)
    | none => fail e

def runScripts (shell : Shell) (rounds : Nat) : List Text → Action Bool
  | [] => pure true
  | script :: rest => do
    if ← runScript shell rounds script then runScripts shell rounds rest else return false

/-- Runs the scripts and then standard input, and gives the exit status. -/
def run (shell : Shell) (rounds : Nat) (scripts : List Text) : Action Int := do
  publishCwd
  let work : Action Int := do
    if ← runScripts shell rounds scripts then
      let _ ← runSource shell rounds standardInput true
    return 0
  work.orElse fun
    | .interrupt => do
      say .info "Interrupted"
      print "\n"
      return interruptedStatus
    | e => fail e

/-- The capacity of the buffer for a line that comes from nowhere. -/
def looseCapacity : Nat := 256

/-- Hands a line that comes from nowhere to the built-in commands, with `#` for the marker. -/
def dispatchLine (shell : Shell) (line : Bytes) : Action Builtin.Verdict := do
  let (_, filled) ← ofExcept ((LineBuffer.empty looseCapacity).fill line)
  -- other than a line that was read, it keeps its newline
  let (vector, split) ← ofExcept (filled.tokenize 0x23)
  Builtin.dispatch shell.home (← ofExcept (vector.tokens split))

def setCwd (cwd : Text) : Action Unit := update fun s => { s with cwd := cwd }

end Shell

end LineShell
