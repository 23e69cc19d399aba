import LineShell.Disk
import LineShell.Log.Recent
import LineShell.Text.Utf8

/-!
# The journal

Where records go.  Before the journal is set up a record that matters enough is written bare to
standard error.  Setting it up gives it a level and sinks: the records in memory, the console, and a
file if one is named.  A record of that level or above goes to each sink; the level zero leaves the
choice to the usual level.

It is set up once; later attempts are ignored.  An attempt that fails on its level does nothing.  One
that fails on its file does not count as done, but the sinks it had already made stay.
-/

namespace LineShell.Log

inductive Console where
  /-- A terminal. -/
  | terminal
  /-- Something that is known not to be a terminal. -/
  | other
  /-- Something that cannot tell. -/
  | untold
  deriving DecidableEq, Repr, Inhabited

/-- Whether a line is coloured: colours have to be wanted and to show. -/
def Console.isColoured (c : Console) (wanted : Value) : Bool :=
  wanted.isTruthy && c = .terminal

inductive Sink where
  | memory (recent : Recent)
  | console (coloured : Bool)
  | file (place : List Text)

/-- A sink for records of a level and above. -/
structure Outlet where
  level : Int
  sink : Sink

structure Options where
  level : Value := .int Level.warning.value
  logFile : Value := .null
  consoleOutput : Value := .bool true
  useColours : Value := .bool true

/-- The journal, with the files it writes to and all that it wrote to standard error. -/
structure Journal where
  disk : Disk
  console : Console
  stderr : Text := []
  /-- The subsystems that have spoken, each by the name it used first. -/
  speakers : List Value := []
  isSetUp : Bool := false
  level : Int := 0
  outlets : List Outlet := []

namespace Journal

def usualLevel : Int := Level.warning.value

def effectiveLevel (j : Journal) : Int := if j.level = 0 then usualLevel else j.level

def print (j : Journal) (text : Text) : Journal := { j with stderr := j.stderr ++ text }

def addOutlet (j : Journal) (sink : Sink) : Journal :=
  { j with outlets := j.outlets ++ [⟨j.level, sink⟩] }

/-- Adds the outlet to a log file, which has to be named by text. -/
def addLogFile (j : Journal) (logFile : Value) : Except Failure Unit × Journal :=
  match logFile with
  | .text path =>
    match j.disk.makeDir (Path.parent path) with
    | (.error e, made) => (.error e, { j with disk := made })
    | (.ok (), made) =>
      match made.openToAdd path with
      -- the directories stay, whatever becomes of the file
      | .error e => (.error e, { j with disk := made })
      | .ok (opened, place) => (.ok (), { j with disk := opened }.addOutlet (.file place))
  | _ => (.error .wrongKind, j)

/-- Sets the journal up, unless that was done before. -/
def setUp (j : Journal) (o : Options) : Except Failure Unit × Journal :=
  if j.isSetUp then (.ok (), j)
  else
    match Level.ofSetting o.level with
    | .error e => (.error e, j)
    | .ok level =>
      let inMemory := { j with level := level }.addOutlet (.memory {})
      let onConsole :=
        if o.consoleOutput.isTruthy then
          inMemory.addOutlet (.console (j.console.isColoured o.useColours))
        else inMemory
      if o.logFile.isTruthy then
        match onConsole.addLogFile o.logFile with
        -- the outlets stay although nothing counts as set up
        | (.error e, after) => (.error e, after)
        | (.ok (), after) => (.ok (), { after with isSetUp := true })
      else (.ok (), { onConsole with isSetUp := true })

/-- The name that a subsystem speaks under: the one of an equal value that has spoken before.  A list
or a dictionary cannot speak. -/
def speaker (j : Journal) (name : Value) : Except Failure Value × Journal :=
  if !name.canBeKey then (.error .wrongKind, j)
  else
    match j.speakers.find? name.equals with
    | some known => (.ok known, j)
    | none => (.ok name, { j with speakers := j.speakers ++ [name] })

/-- The line of a record with its end; a record that cannot be written has none. -/
def lineOf (coloured : Bool) (r : Record) : Text :=
  match r.render coloured with
  | .ok line => line ++ "\n"
  | .error _ => []

/-- The bytes of a line in a file.  A line with a surrogate has none, even where that stands for a
byte. -/
def bytesOf (line : Text) : Bytes :=
  if line.any Text.isSurrogate then [] else (Text.Utf8.encode? line).getD []

def deliver (r : Record) (j : Journal) (outlet : Outlet) : Outlet × Journal :=
  if r.level < outlet.level then (outlet, j)
  else
    match outlet.sink with
    -- a record that cannot be trimmed for is kept all the same, and nobody is told
    | .memory recent => ({ outlet with sink := .memory (recent.add r).2 }, j)
    | .console coloured => (outlet, j.print (lineOf coloured r))
    | .file place => (outlet, { j with disk := j.disk.add place (bytesOf (lineOf false r)) })

def deliverAll (r : Record) : Journal → List Outlet → List Outlet × Journal
  | j, [] => ([], j)
  | j, outlet :: rest =>
    let (first, afterFirst) := deliver r j outlet
    let (others, last) := deliverAll r afterFirst rest
    (first :: others, last)

def take (j : Journal) (r : Record) : Journal :=
  if r.level < j.effectiveLevel then j
  else if j.outlets.isEmpty then
    -- nobody has said yet where records go
    if usualLevel ≤ r.level then j.print (r.renderBare ++ "\n") else j
  else
    let (outlets, after) := deliverAll r j j.outlets
    { after with outlets := outlets }

def takeEntries (j : Journal) (created : Double) (entries : List Entry) : Journal :=
  entries.foldl (fun j entry => j.take (Record.ofEntry created entry)) j

def recent? (j : Journal) : Option Recent :=
  (j.outlets.filterMap fun o =>
    match o.sink with
    | .memory recent => some recent
    | _ => none).getLast?

def get (j : Journal) (level subsystem count : Value) : Except Failure (List Kept) :=
  match j.recent? with
  | some recent => recent.get level subsystem count
  | none => .ok []

end Journal

end LineShell.Log
