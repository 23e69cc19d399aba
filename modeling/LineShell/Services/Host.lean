import LineShell.Os.Call
import LineShell.Service
import LineShell.Text.Utf8

/-!
# Services of a host

The services carried out with calls to an operating system.

A line is read byte by byte, so that nothing beyond it leaves the source.  A source that can seek is
read from the given offset; any other one is read on.  Text is written until all of its bytes are
taken.  While the shell waits for a child, an interrupt goes to the child and the wait goes on; the
handler from before is given back however the wait ends.
-/

namespace LineShell.Host

open Program OsCall

variable {σ : Type}

def say (message : Text) (pid : Option Int) (context : Fields) : Program σ OsCall.Reply Unit :=
  log ⟨.debug, "syscalls", message, pid, context⟩

/-! ## Files -/

/-- Whether a source can be read from any place. -/
def isSeekable (fd : Int) : Program σ OsCall.Reply Bool := do
  match ← (ask (.seek fd 0 .current)).attempt with
  | .ok _ => return true
  | .error (.os ..) => return false
  | .error e => fail e

/-- Reads bytes up to a newline or the end of the source, `count` of them at most. -/
def readUpTo (fd : Int) : (count : Nat) → Program σ OsCall.Reply Bytes
  | 0 => done []
  | count + 1 => do
    match ← ask (.readBytes fd 1) with
    | [] => return []
    | byte =>
      if byte = [0x0A] then return byte
      return byte ++ (← readUpTo fd count)

/-- The number of bytes that are read while there are fewer than a capacity; a capacity without a
bound leaves it to the rounds. -/
def bytesBelow (rounds : Nat) (capacity : Value) : Except Failure Nat :=
  match capacity with
  -- no number of bytes is below NaN
  | .float .nan => .ok 0
  | .float (.infinite negative) => .ok (if negative then 0 else rounds)
  | .float x => .ok ((x.ceil?.getD 0).toNat)
  | v =>
    match v.toInt? with
    | some n => .ok n.toNat
    | none => .error .wrongKind

def readLine (rounds : Nat) (fd offset : Int) (capacity : Value) :
    Program σ OsCall.Reply Bytes := do
  if ← isSeekable fd then
    let _ ← ask (.seek fd offset .start)
  let count ← ofExcept (bytesBelow rounds capacity)
  readUpTo fd count

/-- Writes bytes until all of them are taken.  Where each round takes one at least, as many rounds
as there are bytes are enough; a round that takes none is tried again. -/
def writeAll (fd : Int) : (rounds : Nat) → Bytes → Program σ OsCall.Reply Unit
  | _, [] => done ()
  | 0, _ :: _ => outOfRounds
  | rounds + 1, bytes => do
    let taken ← ask (.writeBytes fd bytes)
    writeAll fd rounds (bytes.drop taken)

def write (spare : Nat) (fd : Int) (text : Text) : Program σ OsCall.Reply Unit :=
  match Text.Utf8.encode? text with
  | some bytes => writeAll fd (bytes.length + spare) bytes
  | none => fail .unencodable

def reason (v : Value) : Fields := [("reason", v)]

def explanation (errno : Option Int) (text : Text) : Value :=
  if errno.isSome then .text text else .null

def openReadOnly (path : Text) : Program σ OsCall.Reply Int := do
  -- a directory could be opened, but not read
  if ← ask (.isDir (.text path)) then
    fail (.fileNotFound path (reason (.text "is a directory")))
  else
    match ← (ask (.openFile path)).attempt with
    | .ok fd => do
      say (("Opened " : Text) ++ path) none [("fd", .int fd)]
      return fd
    | .error (.os errno text) => fail (.fileNotFound path (reason (explanation errno text)))
    | .error e => fail e

/-! ## The environment -/

def pwdVariable : Text := "PWD"

def pathVariable : Text := "PATH"

def variableOr (name other : Text) : Program σ OsCall.Reply Text := do
  let environment ← ask .environment
  return (environment.lookup name).getD other

/-- The working directory; when it was removed, the one in the environment. -/
def getPwd : Program σ OsCall.Reply Text := do
  match ← (ask .getcwd).attempt with
  | .ok path => return path
  | .error (.os ..) => variableOr pwdVariable "/"
  | .error e => fail e

/-- Enters a directory and puts it into the environment. -/
def setPwd (path : Text) : Program σ OsCall.Reply Unit := do
  match ← (ask (.chdir path)).attempt with
  | .ok () => ask (.setVariable pwdVariable path)
  | .error (.os errno text) =>
    fail (.notADirectory (.text path) (reason (explanation errno text)))
  | .error e => fail e

/-! ## Processes -/

/-- The words of an error of the operating system: its text, or the whole line when it has none. -/
def words (errno : Option Int) (text : Text) : Text :=
  if text.isEmpty then Failure.osMessage errno text else text

def fork : Program σ OsCall.Reply Int := do
  match ← (ask .fork).attempt with
  | .ok pid => return pid
  | .error (.os errno text) => do
    -- only a report needs to know whose child it would have been
    let parent ← ask .getpid
    fail (.forkFailed (words errno text) parent errno)
  | .error e => fail e

def reportExec (path message : Text) : Program σ OsCall.Reply Unit := do
  let pid ← ask .getpid
  fail (.execFailed message pid (some path))

def exec (path : Text) (argv : List Text) : Program σ OsCall.Reply Unit := do
  let environment ← ask .environment
  match ← (ask (.execve path argv environment)).attempt with
  | .ok () => return ()
  | .error (.os errno text) => reportExec path (words errno text)
  -- an argument or a variable with a NUL in it
  | .error (.badValue text) => reportExec path text
  | .error e => fail e

/-! ## Waiting -/

/-- Milliseconds between two looks at a child. -/
def pollInterval : Nat := 50

/-- Installs a handler.  Where that is not possible there is nothing to give back. -/
def install (handler : Handler) : Program σ OsCall.Reply (Option Handler) := do
  match ← (ask (.signal handler)).attempt with
  | .ok previous => return some previous
  | .error (.badValue _) => return none
  | .error e => fail e

/-- Gives a handler back; one that was not set becomes the default one. -/
def giveBack : Option Handler → Program σ OsCall.Reply Unit
  | none => done ()
  | some previous => do
    let _ ← ask (.signal (if previous = .unset then .default else previous))

/-- Hands interrupts on to a child while a program runs. -/
def forwarding {α : Type} (pid : Int) (p : Program σ OsCall.Reply α) :
    Program σ OsCall.Reply α := do
  let previous ← install (.forward pid)
  p.andFinally (giveBack previous)

/-- Looks at a child until it has a status or the clock has reached the deadline. -/
def poll (pid : Int) (deadline : Double) :
    (rounds : Nat) → Program σ OsCall.Reply (Option Int)
  | 0 => outOfRounds
  | rounds + 1 => do
    let (process, status) ← ask (.waitpid pid true)
    -- zero in place of a process says that the child has not ended
    if process ≠ 0 then return some status
    let now ← ask .clock
    if deadline.le now then return none
    ask (.sleep pollInterval)
    poll pid deadline rounds

/-- A number of seconds; an integer may be too large for it. -/
def seconds : Value → Except Failure Double
  | .bool b => .ok (Double.ofMilliseconds (if b then 1000 else 0))
  | .int n =>
    match Double.ofInt? n with
    | some x => .ok x
    | none => .error (.tooLarge "int too large to convert to float")
  | .float x => .ok x
  | _ => .error .wrongKind

/-- The status of a child; none when the time is up. -/
def awaitStatus (rounds : Nat) (pid : Int) (timeout : Value) :
    Program σ OsCall.Reply (Option Int) := do
  match timeout.leInt? 0 with
  | none => fail .wrongKind
  | some true => do
    let (_, status) ← ask (.waitpid pid false)
    return some status
  | some false => do
    let now ← ask .clock
    -- the clock was read already when the timeout turns out to be too large
    let timeout ← ofExcept (seconds timeout)
    poll pid (now.add timeout) rounds

def signalOf? (status : Int) : Option Int :=
  let number := status % 0x80
  if 0 < number ∧ number < 0x7F then some number else none

def exitCode (status : Int) : Except Failure Int :=
  if status % 0x80 = 0 then .ok (status / 0x100 % 0x100)
  -- the low byte of a child that was only stopped
  else if status % 0x100 = 0x7F then
    .error (.badValue (("process stopped by delivery of signal " : Text) ++
      Text.ofInt (status / 0x100 % 0x100)))
  else .error (.badValue (("invalid wait status: " : Text) ++ Text.ofInt status))

/-- A status, which has to fit into 32 bits. -/
def checkStatus (status : Int) : Except Failure Unit :=
  if -2147483648 ≤ status ∧ status ≤ 2147483647 then .ok ()
  else .error (.tooLarge "Python int too large to convert to C int")

def classify (pid status : Int) : Program σ OsCall.Reply WaitOutcome := do
  ofExcept (checkStatus status)
  match signalOf? status with
  | some number => do
    say "Child killed by signal" (some pid) [("signal", .int number)]
    return .killed
  | none => do
    let code ← ofExcept (exitCode status)
    say "Child exited" (some pid) [("status", .int code)]
    return .success

def waitpid (rounds : Nat) (pid : Int) (timeout : Value) :
    Program σ OsCall.Reply WaitOutcome := do
  match ← (forwarding pid (awaitStatus rounds pid timeout)).attempt with
  | .ok (some status) => classify pid status
  | .ok none => return .timeout
  -- where no handler could be installed the one from before may have raised it
  | .error .interrupt => return .interrupted
  | .error e => if e.hasErrno Failure.noChild then return .noSuchProcess else fail e

/-! ## All services -/

def carryOut (rounds : Nat) : (c : ServiceCall) → Program σ OsCall.Reply c.Reply
  | .readLine fd offset capacity => readLine rounds fd offset capacity
  | .write fd text => write rounds fd text
  | .fileExists path => ask (.isFile path)
  | .isDir path => ask (.isDir path)
  | .openReadOnly path => openReadOnly path
  | .close fd => ask (.close fd)
  | .getPwd => getPwd
  | .setPwd path => setPwd path
  | .getPath => variableOr pathVariable []
  | .getPid => ask .getpid
  | .fork => fork
  | .exec path argv => exec path argv
  | .waitpid pid timeout => waitpid rounds pid timeout
  | .exit status => ask (.exit status)

/-- A program over the services as a program over the operating system. -/
def onHost {α : Type} (rounds : Nat) (p : Program σ ServiceCall.Reply α) :
    Program σ OsCall.Reply α :=
  p.interpret (carryOut rounds)

end LineShell.Host
