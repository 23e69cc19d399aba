import LineShell.Os.Call
import LineShell.Program.Run
import LineShell.Services.Fault

/-!
# An operating system in memory

A world that answers calls to the operating system from data.  Paths are looked up as they are
written.  A clock stands still except while the process sleeps.  What waiting for a child comes to
is a list, in which interrupts from the keyboard may stand between the statuses: they reach the
process when it waits, and the handler of the moment runs inside that wait.
-/

namespace LineShell

inductive WaitEvent where
  | interrupt
  | status (pid status : Int)
  deriving DecidableEq, Repr, Inhabited

/-- An open source: its bytes and the place the next read starts at. -/
structure OpenSource where
  content : Bytes
  position : Int

structure OsWorld where
  files : List (Text × Bytes)
  /-- The directories, each with the path that it is known by once it is entered. -/
  dirs : List (Text × Text)
  denied : List Text
  environment : Environment
  cwd : Text
  /-- The working directory was removed. -/
  cwdGone : Bool
  sources : List (Int × OpenSource)
  /-- Standard input cannot seek. -/
  stdinPipe : Bool
  /-- The most bytes that one write takes. -/
  writeMax : Option Nat
  nextFd : Int
  forks : List Int
  waits : List WaitEvent
  /-- What becoming another program fails with. -/
  execError : Failure
  handler : Handler
  /-- Handlers can be installed. -/
  mainThread : Bool
  /-- The clock in milliseconds. -/
  clock : Nat
  faults : List (Fault OsCall.Name)

namespace OsWorld

def badDescriptor : Failure := .os (some 9) "Bad file descriptor"

def noSuchFile : Failure := .os (some 2) "No such file or directory"

def permissionDenied : Failure := .os (some 13) "Permission denied"

def setSource (w : OsWorld) (fd : Int) (source : OpenSource) : OsWorld :=
  { w with sources := (fd, source) :: w.sources.filter (·.1 != fd) }

def setVariable (environment : Environment) (name value : Text) : Environment :=
  match environment with
  | [] => [(name, value)]
  | (key, old) :: rest =>
    if key = name then (key, value) :: rest else (key, old) :: setVariable rest name value

/-- Moves the place of the next read; a pipe cannot do so. -/
def seek (w : OsWorld) (fd position : Int) (whence : Whence) : Except Failure Int × OsWorld :=
  match w.sources.lookup fd with
  | none => (.error badDescriptor, w)
  | some source =>
    if fd = 0 ∧ w.stdinPipe then (.error (.os (some 29) "Illegal seek"), w)
    else
      match whence with
      | .current => (.ok (source.position + position),
          w.setSource fd { source with position := source.position + position })
      | .start =>
        if position < 0 then (.error (.os (some 22) "Invalid argument"), w)
        else (.ok position, w.setSource fd { source with position := position })

def readBytes (w : OsWorld) (fd : Int) (count : Nat) : Except Failure Bytes × OsWorld :=
  match w.sources.lookup fd with
  | none => (.error badDescriptor, w)
  | some source =>
    let bytes := (source.content.drop source.position.toNat).take count
    (.ok bytes, w.setSource fd { source with position := source.position + bytes.length })

def chdir (w : OsWorld) (path : Text) : Except Failure Unit × OsWorld :=
  if w.denied.contains path then (.error permissionDenied, w)
  else if (w.files.lookup path).isSome then (.error (.os (some 20) "Not a directory"), w)
  else
    match w.dirs.lookup path with
    | none => (.error noSuchFile, w)
    | some entered => (.ok (), { w with cwd := entered, cwdGone := false })

def takeStatus (w : OsWorld) : Except Failure (Int × Int) × OsWorld :=
  match w.waits with
  | .status pid status :: rest => (.ok (pid, status), { w with waits := rest })
  | _ => (.error (.os (some Failure.noChild) "No child processes"), w)

/-- Carries out a call that no fault hits. -/
def serve (w : OsWorld) : (c : OsCall) → Except Failure c.Reply × OsWorld
  | .isFile path => (.ok (w.files.lookup path).isSome, w)
  | .isDir path =>
    match path with
    | .text p => (.ok (w.dirs.lookup p).isSome, w)
    | v => (if v.canBeKey then .ok false else .error .wrongKind, w)
  | .openFile path =>
    if w.denied.contains path then (.error permissionDenied, w)
    else
      match w.files.lookup path with
      | none => (.error noSuchFile, w)
      | some content =>
        (.ok w.nextFd,
          { w with sources := (w.nextFd, ⟨content, 0⟩) :: w.sources, nextFd := w.nextFd + 1 })
  | .close fd =>
    if (w.sources.lookup fd).isSome then
      (.ok (), { w with sources := w.sources.filter (·.1 != fd) })
    else (.error badDescriptor, w)
  | .seek fd position whence => w.seek fd position whence
  | .readBytes fd count => w.readBytes fd count
  | .writeBytes _ bytes => (.ok (min bytes.length (w.writeMax.getD bytes.length)), w)
  | .getcwd => (if w.cwdGone then .error noSuchFile else .ok w.cwd, w)
  | .chdir path => w.chdir path
  | .getpid => (.ok 1, w)
  -- a child that the world says nothing about has this id
  | .fork => (.ok (w.forks.headD 101), { w with forks := w.forks.tail })
  | .execve .. => (.error w.execError, w)
  | .exit status => (.error (.exit status), w)
  | .waitpid .. => w.takeStatus
  | .kill .. => (.ok (), w)
  | .signal handler =>
    if w.mainThread then (.ok w.handler, { w with handler := handler })
    else (.error (.badValue "signal only works in main thread of the main interpreter"), w)
  | .sleep milliseconds => (.ok (), { w with clock := w.clock + milliseconds })
  | .clock => (.ok (Double.ofMilliseconds w.clock), w)
  | .environment => (.ok w.environment, w)
  | .setVariable name value =>
    (.ok (), { w with environment := setVariable w.environment name value })

/-- Answers a call during which no interrupt arrives. -/
def answerAtOnce (c : OsCall) (w : OsWorld) : Answer OsWorld OsCall.Reply c :=
  let ready := { w with faults := Fault.advance w.faults c.name }
  match Fault.hit? w.faults c.name with
  | some e => ⟨.error e, ready, []⟩
  | none =>
    let (outcome, after) := ready.serve c
    ⟨outcome, after, []⟩

/-- Lets the interrupts at the front of the list arrive, one after another, each at the handler of
the moment.  A handler that fails ends the wait. -/
def deliver : (waits : List WaitEvent) → OsWorld →
    Except Failure Unit × OsWorld × List (Event OsCall.Reply)
  | .interrupt :: rest, w =>
    -- the handler meets a world in which the interrupt has arrived
    let w := { w with waits := rest }
    match w.handler.action? with
    | none => deliver rest w
    | some action =>
      let o := Program.run answerAtOnce action () w
      match o.ending with
      | .returned () =>
        let (outcome, after, more) := deliver rest o.world
        (outcome, after, o.events ++ more)
      | .failed e => (.error e, o.world, o.events)
      -- no handler has a loop, so this does not happen
      | .outOfRounds => (.ok (), o.world, o.events)
  | _, w => (.ok (), w, [])

/-- Answers a wait that no fault hits: first the interrupts arrive, then the status is taken. -/
def answerWait (pid : Int) (now : Bool) (w : OsWorld) :
    Answer OsWorld OsCall.Reply (.waitpid pid now) :=
  let (delivered, after, inner) := deliver w.waits w
  match delivered with
  | .error e => ⟨.error e, after, inner⟩
  | .ok () =>
    let (outcome, last) := after.takeStatus
    ⟨outcome, last, inner⟩

def answer (c : OsCall) (w : OsWorld) : Answer OsWorld OsCall.Reply c :=
  match c with
  | .waitpid pid now =>
    match Fault.hit? w.faults .waitpid with
    | some e => ⟨.error e, { w with faults := Fault.advance w.faults .waitpid }, []⟩
    | none => answerWait pid now { w with faults := Fault.advance w.faults .waitpid }
  | c => answerAtOnce c w

def longestSource (w : OsWorld) : Nat :=
  ((w.sources.map (·.2.content.length)) ++ (w.files.map (·.2.length))).foldl max 0

/-- The number of calls that bring every fault. -/
def faultDistance (w : OsWorld) : Nat := w.faults.foldl (fun n f => n + f.countdown) 0

/-- More rounds than any loop can take: each takes a byte, takes a status or comes closer to a
fault. -/
def rounds (w : OsWorld) : Nat :=
  2 * w.longestSource + w.waits.length + w.faults.length + w.faultDistance + 2

/-- Runs a program with the clock at zero and with as many rounds for its loops as they can take. -/
def perform {σ α : Type} (p : (rounds : Nat) → Program σ OsCall.Reply α) (s : σ) (w : OsWorld) :
    Outcome σ OsWorld OsCall.Reply α :=
  (p w.rounds).run answer s { w with clock := 0 }

end OsWorld

end LineShell
