import LineShell.Config.Settings
import LineShell.Failure

/-!
# The configuration

A configuration has three sections with fixed fields.  It can be seen as a dictionary of
dictionaries, and single values are reached by a path of names.

A whole section may be replaced by some value; then its fields are gone until the configuration is
loaded again.
-/

namespace LineShell

namespace Value

mutual

/-- A value made anew, item by item and entry by entry, where there is room for so many calls inside each
other.  Every value takes one of them, and a list or a dictionary one more around what is in it. -/
def rebuild : Value → (room : Nat) → Except Failure Value
  -- going through the items is a call of its own
  | list items, room + 2 => return list (← rebuildItems items room)
  | dict entries, room + 2 => return dict (← rebuildEntries entries room)
  | list _, _ | dict _, _ | _, 0 => .error .noRoom
  | v, _ + 1 => .ok v

def rebuildItems : List Value → (room : Nat) → Except Failure (List Value)
  | [], _ => .ok []
  | v :: rest, room => return (← rebuild v room) :: (← rebuildItems rest room)

def rebuildEntries : List (Text × Value) → (room : Nat) → Except Failure (List (Text × Value))
  | [], _ => .ok []
  | (key, v) :: rest, room => return (key, ← rebuild v room) :: (← rebuildEntries rest room)

end

end Value

namespace Config

/-- A field of a section: its name, and how it is read and replaced. -/
structure Field (S : Type) where
  name : Text
  get : S → Value
  set : S → Value → S

/-- A section by its fields, in order. -/
class Section (S : Type) where
  fields : List (Field S)
  default : S

instance : Section ShellSettings where
  fields := [
    ⟨"prompt_suffix", (·.promptSuffix), fun s v => { s with promptSuffix := v }⟩,
    ⟨"line_buffer_size", (·.lineBufferSize), fun s v => { s with lineBufferSize := v }⟩,
    ⟨"home_directory", (·.homeDirectory), fun s v => { s with homeDirectory := v }⟩,
    ⟨"comment_char", (·.commentChar), fun s v => { s with commentChar := v }⟩]
  default := {}

instance : Section ProcessSettings where
  fields := [
    ⟨"wait_timeout", (·.waitTimeout), fun s v => { s with waitTimeout := v }⟩,
    ⟨"exec_failure_status", (·.execFailureStatus), fun s v => { s with execFailureStatus := v }⟩]
  default := {}

instance : Section LoggingSettings where
  fields := [
    ⟨"level", (·.level), fun s v => { s with level := v }⟩,
    ⟨"log_file", (·.logFile), fun s v => { s with logFile := v }⟩,
    ⟨"console_output", (·.consoleOutput), fun s v => { s with consoleOutput := v }⟩,
    ⟨"use_colors", (·.useColors), fun s v => { s with useColors := v }⟩]
  default := {}

namespace Section

variable {S : Type} [Section S]

def field? (name : Text) : Option (Field S) := fields.find? fun f => f.name == name

def toFields (s : S) : Fields := fields.map fun f => (f.name, f.get s)

/-- The section with the given values, and its default values where none are given. -/
def ofFields (given : Fields) : S :=
  fields.foldl (fun s (f : Field S) => f.set s ((given.get? f.name).getD (f.get default))) default

end Section

/-- A place for a section: the section itself, or some value in its stead. -/
inductive Slot (S : Type) where
  | settings (s : S)
  | value (v : Value)
  deriving DecidableEq

namespace Slot

variable {S : Type} [Section S]

def toValue : Slot S → Value
  | settings s => .dict (Section.toFields s)
  | value v => v

/-- The value at a path below a section.  A value has no parts of its own. -/
def find? : Slot S → List Text → Option Value
  | slot, [] => some slot.toValue
  | settings s, [name] => (Section.field? (S := S) name).map fun f => f.get s
  | _, _ => none

/-- The place with another value at a path below it, if there is one at that path. -/
def replace? (v : Value) : Slot S → List Text → Option (Slot S)
  | _, [] => some (value v)
  | settings s, [name] => (Section.field? (S := S) name).map fun f => settings (f.set s v)
  | _, _ => none

def settings? : Slot S → Option S
  | settings s => some s
  | value _ => none

end Slot

end Config

structure Config where
  shell : Config.Slot Config.ShellSettings := .settings {}
  process : Config.Slot Config.ProcessSettings := .settings {}
  logging : Config.Slot Config.LoggingSettings := .settings {}
  deriving DecidableEq

namespace Config

def toFields (c : Config) : Fields :=
  [("shell", c.shell.toValue), ("process", c.process.toValue), ("logging", c.logging.toValue)]

/-- The configuration as a dictionary that has no part in common with it, made where there is room for so
many calls inside each other.  The configuration is gone through like a dictionary. -/
def toDict (c : Config) : (room : Nat) → Except Failure Fields
  | room + 2 => Value.rebuildEntries c.toFields room
  | _ => .error .noRoom

def find? (c : Config) : List Text → Option Value
  | [] => some (.dict c.toFields)
  | name :: rest =>
    if name = "shell" then c.shell.find? rest
    else if name = "process" then c.process.find? rest
    else if name = "logging" then c.logging.find? rest
    else none

/-- The configuration with another value at a path of names, if there is one at that path. -/
def replace? (c : Config) (v : Value) : List Text → Option Config
  | [] => none
  | name :: rest =>
    -- a section itself may be what is replaced
    if name = "shell" then (c.shell.replace? v rest).map fun s => { c with shell := s }
    else if name = "process" then (c.process.replace? v rest).map fun s => { c with process := s }
    else if name = "logging" then (c.logging.replace? v rest).map fun s => { c with logging := s }
    else none

/-! ## Reading a configuration from a dictionary -/

/-- The section under a name, which has to be a dictionary if it is there. -/
def sectionOf {S : Type} [Section S] (data : Fields) (name : Text) : Except Failure S :=
  match data.get? name with
  | none => .ok Section.default
  | some (.dict given) => .ok (Section.ofFields given)
  | some _ => .error .noSuchPart

/-- Refuses a setting when a condition on it holds.  The condition has no answer for a value of the
wrong kind. -/
def refuseIf (condition : Option Bool) (message key : Text) : Except Failure Unit :=
  match condition with
  | none => .error .wrongKind
  | some true => .error (.badSetting message key)
  | some false => .ok ()

def validate (shell : ShellSettings) (process : ProcessSettings) : Except Failure Unit := do
  refuseIf (shell.lineBufferSize.ltInt? 2)
    "Line buffer must hold at least two bytes" "shell.line_buffer_size"
  refuseIf (shell.commentChar.length?.map (· != 1))
    "Comment marker must be a single character" "shell.comment_char"
  refuseIf (process.waitTimeout.ltInt? 0)
    "Wait timeout cannot be negative" "process.wait_timeout"

def ofFields (data : Fields) : Except Failure Config := do
  let shell : ShellSettings ← sectionOf data "shell"
  let process : ProcessSettings ← sectionOf data "process"
  let logging : LoggingSettings ← sectionOf data "logging"
  -- all sections are taken apart before any setting is checked
  validate shell process
  return ⟨.settings shell, .settings process, .settings logging⟩

end Config

end LineShell
