import LineShell.Log.Entry
import LineShell.Log.Timestamp

/-!
# Log records

A record is an entry at a moment, ready to be kept or written.  A record from elsewhere may lack a
subsystem, a process or details, and may come with a failure that was being handled.

A record is written as one line: the moment, the level in a column of its own, the subsystem, the
process, the message and the details.  The failure stands on the lines below.
-/

namespace LineShell.Log

inductive Trace where
  /-- None was asked for. -/
  | absent
  /-- One was asked for, but none was being handled. -/
  | nothing
  /-- A failure by the name of its kind and its text. -/
  | failure (kind text : Text)
  deriving Inhabited

/-- What goes with a record that asks for a failure in any case. -/
def Trace.orNothing : Trace → Trace
  | absent => nothing
  | trace => trace

/-- The kind of failure whose text is shown in quotes. -/
def Trace.quotedKind : Text := "KeyError"

def Trace.render? : Trace → Option Text
  | absent => none
  | nothing => some "NoneType: None"
  | failure kind text =>
    let shown := if kind = quotedKind then Text.Quoted.encode text else text
    some (if shown.isEmpty then kind else kind ++ ": " ++ shown)

structure Record where
  level : Int
  /-- Seconds since the beginning of 1970. -/
  created : Double
  message : Text
  subsystem : Option Value := none
  pid : Option Value := none
  context : Option Value := none
  trace : Trace := .absent

namespace Record

def ofEntry (created : Double) (entry : Entry) : Record where
  level := entry.level.value
  created := created
  message := entry.message
  subsystem := some (.text entry.subsystem)
  pid := some (entry.pid.elim .null .int)
  context := some (.dict entry.context)

def colour? (level : Int) : Option Text :=
  match Level.ofValue? level with
  | some .debug => some "\x1b[36m"
  | some .info => some "\x1b[32m"
  | some .warning => some "\x1b[33m"
  | some .error => some "\x1b[31m"
  | some .critical => some "\x1b[35m"
  | none => none

def plain : Text := "\x1b[0m"

def levelWidth : Nat := 8

def levelColumn (coloured : Bool) (level : Int) : Text :=
  let name := Text.padRight levelWidth (Level.nameOf level)
  match coloured, colour? level with
  | true, some colour => colour ++ name ++ plain
  | _, _ => name

def subsystemPart (r : Record) : List Text :=
  r.subsystem.toList.map fun v => ("[" : Text) ++ v.render ++ "]"

def processPart (r : Record) : List Text :=
  match r.pid with
  | none | some .null => []
  | some v => [("(pid=" : Text) ++ v.render ++ ")"]

/-- The details in curly brackets, if there are any.  Only a dictionary has details. -/
def detailsPart (r : Record) : Except Failure (List Text) :=
  match r.context with
  | none => .ok []
  | some (.dict []) => .ok []
  | some (.dict fields) => .ok [("\x7b" : Text) ++ Fields.render " " fields ++ "\x7d"]
  | some v => if v.isTruthy then .error .noSuchPart else .ok []

def line (coloured : Bool) (r : Record) : Except Failure Text := do
  let moment ← Timestamp.render r.created
  let details ← detailsPart r
  return Text.intercalate " " ([("[" : Text) ++ moment ++ "]", levelColumn coloured r.level] ++
    subsystemPart r ++ processPart r ++ [r.message] ++ details)

def render (coloured : Bool) (r : Record) : Except Failure Text := do
  let line ← r.line coloured
  match r.trace.render? with
  | none => return line
  | some trace => return line ++ "\n" ++ trace

def renderBare (r : Record) : Text :=
  match r.trace.render? with
  | none => r.message
  | some trace =>
    if r.message.getLast? = some 0x0A then r.message ++ trace else r.message ++ "\n" ++ trace

end Record

end LineShell.Log
