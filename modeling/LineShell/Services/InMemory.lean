import LineShell.Program.Run
import LineShell.Service
import LineShell.Services.Fault

/-!
# Services in memory

A world that answers the calls to the services from data: files and directories by their paths, a
working directory, standard input, and lists of what making a child and waiting for one come to.
Nothing else happens in it, which makes it the world to say exactly what the shell does.

Beyond its lists every child is made and every wait succeeds.  A program is never found, and ending
the process ends the run, unless the world says that these calls return.
-/

namespace LineShell

structure InMemory where
  files : List (Text × Bytes)
  dirs : List Text
  pwd : Text
  path : Text
  /-- The content of each open descriptor. -/
  sources : List (Int × Bytes)
  /-- The descriptor that is given out next. -/
  nextFd : Int
  /-- What making a child comes to, call by call. -/
  forks : List Int
  /-- The number of children made so far. -/
  forked : Nat
  /-- What waiting comes to, call by call. -/
  waits : List WaitOutcome
  execReturns : Bool
  exitReturns : Bool
  faults : List (Fault ServiceCall.Name)

namespace InMemory

def standardDirs : List Text := ["/", "/home"]

def create (files : List (Text × Bytes)) (dirs : List Text) (pwd path : Text) (stdin : Bytes)
    (forks : List Int) (waits : List WaitOutcome) (execReturns exitReturns : Bool)
    (faults : List (Fault ServiceCall.Name)) : InMemory where
  files := files
  dirs := dirs ++ standardDirs ++ [pwd]
  pwd := pwd
  path := path
  sources := [(standardInput, stdin)]
  nextFd := 3
  forks := forks
  forked := 0
  waits := waits
  execReturns := execReturns
  exitReturns := exitReturns
  faults := faults

def firstLine : Bytes → Bytes
  | [] => []
  | b :: rest => if b = 0x0A then [b] else b :: firstLine rest

def lineAt (source : Bytes) (offset capacity : Int) : Bytes :=
  firstLine ((source.drop offset.toNat).take capacity.toNat)

def pid : Int := 1

def serve (w : InMemory) : (c : ServiceCall) → Except Failure c.Reply × InMemory
  | .readLine fd offset capacity =>
    match w.sources.lookup fd, capacity.toInt? with
    | some source, some n => (.ok (lineAt source offset n), w)
    | some _, none => (.error .wrongKind, w)
    | none, _ => (.error (.os (some 9) "Bad file descriptor"), w)
  | .write .. => (.ok (), w)
  | .fileExists path => (.ok (w.files.lookup path).isSome, w)
  | .isDir path =>
    match path with
    | .text p => (.ok (w.dirs.contains p), w)
    | v => (if v.canBeKey then .ok false else .error .wrongKind, w)
  | .openReadOnly path =>
    match w.files.lookup path with
    | some content =>
      (.ok w.nextFd,
        { w with sources := (w.nextFd, content) :: w.sources, nextFd := w.nextFd + 1 })
    | none => (.error (.fileNotFound path []), w)
  | .close fd => (.ok (), { w with sources := w.sources.filter (·.1 != fd) })
  | .getPwd => (.ok w.pwd, w)
  | .setPwd path =>
    if w.dirs.contains path then (.ok (), { w with pwd := path })
    else (.error (.notADirectory (.text path) []), w)
  | .getPath => (.ok w.path, w)
  | .getPid => (.ok pid, w)
  | .fork =>
    let made := { w with forks := w.forks.tail, forked := w.forked + 1 }
    (.ok (w.forks.headD (100 + (w.forked + 1))), made)
  | .exec path _ =>
    (if w.execReturns then .ok ()
      else .error (.execFailed "No such file or directory" pid (some path)), w)
  | .waitpid .. => (.ok (w.waits.headD .success), { w with waits := w.waits.tail })
  | .exit status => (if w.exitReturns then .ok () else .error (.exit status), w)

/-- Answers a call: with the failure of a fault that it hits, or by carrying it out. -/
def answer (c : ServiceCall) (w : InMemory) : Answer InMemory ServiceCall.Reply c :=
  let ready := { w with faults := Fault.advance w.faults c.name }
  match Fault.hit? w.faults c.name with
  | some e => ⟨.error e, ready, []⟩
  | none =>
    let (outcome, after) := ready.serve c
    ⟨outcome, after, []⟩

def longestSource (w : InMemory) : Nat :=
  ((w.sources.map (·.2.length)) ++ (w.files.map (·.2.length))).foldl max 0

/-- More rounds than any source can take: each round but the last takes a byte or hits a fault. -/
def rounds (w : InMemory) : Nat := w.longestSource + w.faults.length + 2

def perform {σ α : Type} (p : (rounds : Nat) → Program σ ServiceCall.Reply α) (s : σ)
    (w : InMemory) : Outcome σ InMemory ServiceCall.Reply α :=
  (p w.rounds).run answer s w

end InMemory

end LineShell
