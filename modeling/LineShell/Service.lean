import LineShell.Value

/-!
# Services

The calls the shell is built on: reading lines and writing text, asking about files and
directories, the working directory and the search path, and making, replacing, awaiting and ending
processes.

Whoever answers `readLine` takes nothing beyond the line from its source: what is unread stays there
for a child.
-/

namespace LineShell

inductive WaitOutcome where
  /-- The child ran to completion. -/
  | success
  /-- The wait was interrupted before the child finished. -/
  | interrupted
  /-- There is no such child, or it was awaited before. -/
  | noSuchProcess
  /-- A signal ended the child. -/
  | killed
  /-- The time was up while the child was still running. -/
  | timeout
  deriving DecidableEq, Repr, Inhabited

namespace WaitOutcome

def all : List WaitOutcome := [success, interrupted, noSuchProcess, killed, timeout]

def name : WaitOutcome → Text
  | success => "SUCCESS"
  | interrupted => "INTERRUPTED"
  | noSuchProcess => "NO_SUCH_PROCESS"
  | killed => "KILLED"
  | timeout => "TIMEOUT"

def value : WaitOutcome → Int
  | success => 0
  | interrupted => 65531
  | noSuchProcess => 65532
  | killed => 65534
  | timeout => 65535

def completed (o : WaitOutcome) : Bool := o = success

/-- Whether the child is gone, so that it need not be awaited any more. -/
def reaped (o : WaitOutcome) : Bool := o = success || o = killed || o = noSuchProcess

end WaitOutcome

def standardInput : Int := 0

def standardOutput : Int := 1

def standardError : Int := 2

inductive ServiceCall where
  /-- The next line of a source, up to a number of bytes; empty when the source is exhausted. -/
  | readLine (fd offset : Int) (capacity : Value)
  /-- Writes text to a descriptor. -/
  | write (fd : Int) (text : Text)
  /-- Whether a path names a file. -/
  | fileExists (path : Text)
  /-- Whether a path names a directory. -/
  | isDir (path : Value)
  /-- Opens a file for reading. -/
  | openReadOnly (path : Text)
  /-- Closes a descriptor. -/
  | close (fd : Int)
  /-- The working directory of the process. -/
  | getPwd
  /-- Makes a directory the working directory that children inherit. -/
  | setPwd (path : Text)
  /-- The search path. -/
  | getPath
  /-- The id of the process. -/
  | getPid
  /-- Makes a child: zero in the child, its id in the parent. -/
  | fork
  /-- Becomes another program; returns only if it could not. -/
  | exec (path : Text) (argv : List Text)
  /-- Waits for a child, for some seconds or, with none, for as long as it takes. -/
  | waitpid (pid : Int) (timeout : Value)
  /-- Ends the process. -/
  | exit (status : Value)
  deriving Inhabited

namespace ServiceCall

/-- What each call is answered with. -/
@[reducible] def Reply : ServiceCall → Type
  | readLine .. => Bytes
  | fileExists .. | isDir .. => Bool
  | openReadOnly .. | getPid | fork => Int
  | getPwd | getPath => Text
  | waitpid .. => WaitOutcome
  | write .. | close .. | setPwd .. | exec .. | exit .. => Unit

inductive Name where
  | readLine
  | write
  | fileExists
  | isDir
  | openReadOnly
  | close
  | getPwd
  | setPwd
  | getPath
  | getPid
  | fork
  | exec
  | waitpid
  | exit
  deriving DecidableEq, Repr

def name : ServiceCall → Name
  | readLine .. => .readLine
  | write .. => .write
  | fileExists .. => .fileExists
  | isDir .. => .isDir
  | openReadOnly .. => .openReadOnly
  | close .. => .close
  | getPwd => .getPwd
  | setPwd .. => .setPwd
  | getPath => .getPath
  | getPid => .getPid
  | fork => .fork
  | exec .. => .exec
  | waitpid .. => .waitpid
  | exit .. => .exit

end ServiceCall

end LineShell
