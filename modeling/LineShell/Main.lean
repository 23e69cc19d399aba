import LineShell.Launch
import LineShell.Services.InMemory
import Std.Time.DateTime.Timestamp

/-!
# The command line

Runs the scripts that are named on the command line and then standard input.  The program reads
`config.json` beside itself, if it is there.

The process it runs in can read and write but cannot make another process: a command that is not
built in is answered like a child that could not be made.
-/

namespace LineShell.CommandLine

/-- What the process keeps between two calls. -/
structure Desk where
  pwd : Text
  searchPath : Text
  /-- The content of each open script. -/
  scripts : List (Int × Bytes)
  /-- The descriptor that is given out next. -/
  nextFd : Int
  journal : Log.Journal
  logFile : Option Text

/-- A step of the process: it reads and writes, and changes what it keeps. -/
abbrev Step := StateT Desk IO

/-! ## Files -/

def fileName? (t : Text) : Option String :=
  (Text.Utf8.encode? t).bind fun bytes => String.fromUTF8? ⟨bytes.toArray⟩

def contentOf (path : Text) : IO (Option Bytes) :=
  match fileName? path with
  | none => return none
  | some name =>
    try return some (← IO.FS.readBinFile name).toList
    catch _ => return none

/-- Whether something can be opened under a name. -/
def opens (path : Text) : IO Bool :=
  match fileName? path with
  | none => return false
  | some name =>
    try
      let _ ← IO.FS.Handle.mk name .read
      return true
    catch _ => return false

/-- Whether a path names a directory: then there is a `.` in it. -/
def isDirectory (path : Text) : IO Bool := opens (path ++ "/.")

/-- Adds bytes to a file, whose directory is made if it is missing. -/
def addTo (path : Text) (bytes : Bytes) : IO Unit :=
  match fileName? path, fileName? (Path.parent path) with
  | some name, some directory => do
    IO.FS.createDirAll directory
    (← IO.FS.Handle.mk name .append).write ⟨bytes.toArray⟩
  | _, _ => return ()

def put (out : IO.FS.Stream) (text : Text) : IO Unit := do
  out.write ⟨((Text.Utf8.encode? text).getD []).toArray⟩
  out.flush

/-- Bytes of standard input up to a newline or the end, `count` of them at most. -/
def readUpTo (input : IO.FS.Stream) : (count : Nat) → IO Bytes
  | 0 => return []
  | count + 1 => do
    match (← input.read 1).toList with
    | [] => return []
    | byte =>
      if byte = [0x0A] then return byte
      return byte ++ (← readUpTo input count)

/-! ## The journal -/

def written (journal : Log.Journal) (path : Text) : Bytes :=
  (journal.disk.contentOf? path).getD []

/-- Puts the journal in the place of the one before, and what is new in it to where it belongs. -/
def publish (after : Log.Journal) : Step Unit := do
  let d ← get
  put (← IO.getStderr) (after.stderr.drop d.journal.stderr.length)
  if let some path := d.logFile then
    addTo path ((written after path).drop (written d.journal path).length)
  set { d with journal := after }

def note (entry : Log.Entry) : Step Unit := do
  let now ← Std.Time.Timestamp.now
  publish ((← get).journal.take
    (Log.Record.ofEntry (Double.ofMilliseconds now.toMillisecondsSinceUnixEpoch.val) entry))

/-! ## Services -/

def ownPid : Int := 1

def noChildren : Failure := .forkFailed "Function not implemented" ownPid (some 38)

def answer : (c : ServiceCall) → Step (Except Failure c.Reply)
  | .readLine fd offset capacity => do
    match (← get).scripts.lookup fd, capacity.toInt? with
    | _, none => return .error .wrongKind
    | some content, some n => return .ok (InMemory.lineAt content offset n)
    | none, some n =>
      if fd = standardInput then return .ok (← readUpTo (← IO.getStdin) n.toNat)
      return .error (.os (some 9) "Bad file descriptor")
  | .write _ text => do
    put (← IO.getStdout) text
    return .ok ()
  | .fileExists path => do return .ok ((← opens path) && !(← isDirectory path))
  | .isDir (.text path) => do return .ok (← isDirectory path)
  | .isDir v => return if v.canBeKey then .ok false else .error .wrongKind
  | .openReadOnly path => do
    match ← contentOf path with
    | none => return .error (.fileNotFound path [])
    | some content =>
      let d ← get
      set { d with scripts := (d.nextFd, content) :: d.scripts, nextFd := d.nextFd + 1 }
      return .ok d.nextFd
  | .close fd => do
    modify fun d => { d with scripts := d.scripts.filter (·.1 != fd) }
    return .ok ()
  | .getPwd => do return .ok (← get).pwd
  | .setPwd path => do
    if ← isDirectory path then
      modify fun d => { d with pwd := path }
      return .ok ()
    return .error (.notADirectory (.text path) [])
  | .getPath => do return .ok (← get).searchPath
  | .getPid => return .ok ownPid
  | .fork => return .error noChildren
  | .exec path _ => return .error (.execFailed "Function not implemented" ownPid (some path))
  | .waitpid .. => return .ok .noSuchProcess
  | .exit status => return .error (.exit status)

def perform {α : Type} : Action α → Session → Step (Ending α)
  | .done a, _ => return .returned a
  | .fail e, _ => return .failed e
  | .outOfRounds, _ => return .outOfRounds
  | .read next, s => perform (next s) s
  | .write s next, _ => perform next s
  | .call c next, s => do perform (next (← answer c)) s
  | .note entry next, s => do
    note entry
    perform next s

/-- More lines than anyone can write. -/
def rounds : Nat := Nat.pow 2 62

def statusOf : Ending Int → UInt32
  | .returned status => UInt32.ofNat (status % 256).toNat
  | .failed (.exit (.int status)) => UInt32.ofNat (status % 256).toNat
  | .failed _ | .outOfRounds => 1

/-! ## The start -/

/-- What this process has room for. -/
def limits : Launch.Limits := ⟨68719476736, 985⟩

def configName : Text := "config.json"

/-- The disk with the configuration file beside the program, and the path of that file. -/
def configFile : IO (Disk × Text) := do
  let path := Lookup.join (Path.parent (Text.ofString (← IO.appPath).toString)) configName
  let files := match ← contentOf path with
    | some content => [(path, some content)]
    | none => []
  return (Disk.ofFiles files, path)

def variableOr (name : String) (other : Text) : IO Text := do
  return ((← IO.getEnv name).map Text.ofString).getD other

def logFileOf : Launch.Start → Option Text
  | .ready settings =>
    match settings.logging.logFile with
    | .text path => if path.isEmpty then none else some path
    | _ => none
  | _ => none

def runProgram (scripts : List Text) : IO UInt32 := do
  let (disk, path) ← configFile
  let console := if ← (← IO.getStderr).isTty then Log.Console.terminal else .other
  let blank : Log.Journal := { disk := disk, console := console }
  let (start, journal) := Launch.start limits (some path) blank
  let desk : Desk := ⟨← variableOr "PWD" "/", ← variableOr "PATH" [], [], 3, blank, logFileOf start⟩
  let work : Step (Ending Int) := do
    publish journal
    match start with
    | .ready settings => perform (Launch.work limits settings rounds scripts) Session.unstarted
    | .refused => return .returned Launch.refusedStatus
    | .failed e => return .failed e
  let (ending, _) ← work.run desk
  if let .failed e := ending then
    if let some message := e.message? then put (← IO.getStderr) (message ++ "\n")
  return statusOf ending

end LineShell.CommandLine

/-- Runs the scripts named by the arguments, and then standard input. -/
def main (arguments : List String) : IO UInt32 :=
  LineShell.CommandLine.runProgram (arguments.map LineShell.Text.ofString)
