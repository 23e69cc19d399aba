import LineShell.ErrorReport

/-!
# Failures

A `Failure` is the cause an operation ends with when it does not return: an interrupt from the
keyboard, an error of the operating system, a report of the shell's own, or a value that does not
fit.  A process that exits ends the same way, which is how its exit passes every level above it.
-/

namespace LineShell

/-- Why an operation did not return. -/
inductive Failure where
  /-- An interrupt from the keyboard. -/
  | interrupt
  /-- An error of the operating system, with its number if it has one. -/
  | os (errno : Option Int) (text : Text)
  /-- A report of the shell's own. -/
  | report (r : ErrorReport)
  /-- A value of the right kind that is not acceptable. -/
  | badValue (text : Text)
  /-- An operation at the wrong time. -/
  | badState (text : Text)
  /-- A position outside a sequence. -/
  | outOfRange (text : Text)
  /-- A number too large for its place. -/
  | tooLarge (text : Text)
  /-- More memory than there is. -/
  | outOfMemory
  /-- Data nested too deeply. -/
  | tooDeep (text : Text)
  /-- A name that stands for nothing. -/
  | unknownName (name : Text)
  /-- A value of the wrong kind. -/
  | wrongKind
  /-- A value without the part that was asked for. -/
  | noSuchPart
  /-- Bytes that are not well-formed text. -/
  | undecodable
  /-- Text that has no bytes. -/
  | unencodable
  /-- The process exits with a status. -/
  | exit (status : Value)
  deriving Inhabited

namespace Failure

/-- The number of the error for a call whose process does not exist. -/
def noSuchProcess : Int := 3

def noChild : Int := 10

/-- There is no room for one more call inside the others. -/
def noRoom : Failure := tooDeep "maximum recursion depth exceeded"

def osMessage (errno : Option Int) (text : Text) : Text :=
  match errno with
  | some n => ("[Errno " : Text) ++ Text.ofInt n ++ "] " ++ text
  | none => text

/-- The failure in one line; some kinds have no fixed wording. -/
def message? : Failure → Option Text
  | interrupt | outOfMemory => some []
  | os errno text => some (osMessage errno text)
  | report r => some r.render
  | badValue text | badState text | outOfRange text | tooLarge text | tooDeep text => some text
  | unknownName name => some (Text.Quoted.encode name)
  | wrongKind | noSuchPart | undecodable | unencodable => none
  | exit status => some (("exit(" : Text) ++ status.render ++ ")")

/-- The report behind a failure of the file family. -/
def fileReport? : Failure → Option ErrorReport
  | report r => if r.kind.family = .fileSystem then some r else none
  | _ => none

def reportOf? (kind : ErrorReport.Kind) : Failure → Option ErrorReport
  | report r => if r.kind = kind then some r else none
  | _ => none

def hasErrno (n : Int) : Failure → Bool
  | os (some m) _ => m == n
  | _ => false

def fileNotFound (path : Text) (context : Fields) : Failure :=
  report (.fileNotFound (.text path) (.dict context))

def notADirectory (path : Value) (context : Fields) : Failure :=
  report (.notADirectory path (.dict context))

def execFailed (message : Text) (pid : Int) (path : Option Text) : Failure :=
  report (.execFailed (.text message) (.int pid) (path.elim .null .text) .null)

def forkFailed (message : Text) (parent : Int) (errno : Option Int) : Failure :=
  report (.forkFailed (.text message) (.int parent) (errno.elim .null .int) .null)

def badSetting (message : Text) (key : Text) : Failure :=
  report (.badSetting (.text message) (.text key) .null)

def bootFailure (message : Text) : Failure :=
  report (.bootFailure (.text message) (.text "config") .null)

end Failure

end LineShell
