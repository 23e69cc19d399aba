import LineShell.Double
import LineShell.Program

/-!
# Calls to the operating system

The calls that the services of a host are made from.  Besides the calls proper there are the clock
and the environment of the process, which are read and changed in the same way.

The handler of the keyboard interrupt belongs to the operating system, which runs it while the
process waits.  What a handler does is a program over these same calls.
-/

namespace LineShell

inductive Handler where
  /-- The interrupt is raised as a failure. -/
  | default
  /-- The interrupt is ignored. -/
  | ignore
  /-- There is no handler that the process knows of. -/
  | unset
  /-- The interrupt is handed on to a child. -/
  | forward (pid : Int)
  deriving DecidableEq, Repr, Inhabited

abbrev Environment := List (Text × Text)

inductive Whence where
  | current
  | start
  deriving DecidableEq, Repr

inductive OsCall where
  | isFile (path : Text)
  | isDir (path : Value)
  | openFile (path : Text)
  | close (fd : Int)
  | seek (fd position : Int) (whence : Whence)
  | readBytes (fd : Int) (count : Nat)
  | writeBytes (fd : Int) (bytes : Bytes)
  | getcwd
  | chdir (path : Text)
  | getpid
  | fork
  | execve (path : Text) (argv : List Text) (environment : Environment)
  | exit (status : Value)
  /-- Asks for the status of a child: now, or when it has one. -/
  | waitpid (pid : Int) (now : Bool)
  | kill (pid signal : Int)
  /-- Installs a handler of the keyboard interrupt. -/
  | signal (handler : Handler)
  | sleep (milliseconds : Nat)
  /-- The clock in seconds. -/
  | clock
  | environment
  | setVariable (name value : Text)
  deriving Inhabited

namespace OsCall

/-- What each call is answered with: for a seek the position, for a write the number of bytes taken,
for a wait the process and its status, for a signal the handler before. -/
@[reducible] def Reply : OsCall → Type
  | isFile .. | isDir .. => Bool
  | openFile .. | getpid | fork => Int
  | seek .. => Int
  | readBytes .. => Bytes
  | writeBytes .. => Nat
  | getcwd => Text
  | waitpid .. => Int × Int
  | signal .. => Handler
  | clock => Double
  | environment => Environment
  | close .. | chdir .. | execve .. | exit .. | kill .. | sleep .. | setVariable .. => Unit

inductive Name where
  | isFile
  | isDir
  | openFile
  | close
  | seek
  | readBytes
  | writeBytes
  | getcwd
  | chdir
  | getpid
  | fork
  | execve
  | exit
  | waitpid
  | kill
  | signal
  | sleep
  | clock
  | environment
  | setVariable
  deriving DecidableEq, Repr

def name : OsCall → Name
  | isFile .. => .isFile
  | isDir .. => .isDir
  | openFile .. => .openFile
  | close .. => .close
  | seek .. => .seek
  | readBytes .. => .readBytes
  | writeBytes .. => .writeBytes
  | getcwd => .getcwd
  | chdir .. => .chdir
  | getpid => .getpid
  | fork => .fork
  | execve .. => .execve
  | exit .. => .exit
  | waitpid .. => .waitpid
  | kill .. => .kill
  | signal .. => .signal
  | sleep .. => .sleep
  | clock => .clock
  | environment => .environment
  | setVariable .. => .setVariable

end OsCall

def interruptSignal : Int := 2

def OsCall.ask {σ : Type} (c : OsCall) : Program σ OsCall.Reply c.Reply := Program.request c

namespace Handler

open Program

/-- Hands an interrupt on to a child.  A child that has gone already needs none. -/
def forwardTo {σ : Type} (pid : Int) : Program σ OsCall.Reply Unit := do
  log ⟨.debug, "syscalls", "Forwarding interrupt", some pid, []⟩
  (OsCall.ask (.kill pid interruptSignal)).orElse fun e =>
    if e.hasErrno Failure.noSuchProcess then done () else fail e

def action? {σ : Type} : Handler → Option (Program σ OsCall.Reply Unit)
  | default => some (fail .interrupt)
  | ignore | unset => none
  | forward pid => some (forwardTo pid)

end Handler

end LineShell
