import LineShell.Proofs.Program.Footprint
import LineShell.Services.Host

/-!
# Footprints of the services of a host

`callsOf` lists the calls to the operating system that each service may make, and
`footprint_carryOut` says that it makes no others, leaves the state of the program alone, and uses up
its rounds only where it writes or waits.
-/

namespace LineShell.Host

open Program OsCall

variable {σ : Type}

/-- Some of the calls to the operating system. -/
def scope (names : List OsCall.Name) (stops : Bool := false) : Scope σ OsCall where
  calls c := names.contains c.name
  changes _ _ := False
  notes _ := True
  stops := stops

/-- The calls to the operating system that a service may make. -/
def callsOf : ServiceCall.Name → List OsCall.Name
  | .readLine => [.seek, .readBytes]
  | .write => [.writeBytes]
  | .fileExists => [.isFile]
  | .isDir => [.isDir]
  | .openReadOnly => [.isDir, .openFile]
  | .close => [.close]
  | .getPwd => [.getcwd, .environment]
  | .setPwd => [.chdir, .setVariable]
  | .getPath => [.environment]
  | .getPid => [.getpid]
  | .fork => [.fork, .getpid]
  | .exec => [.environment, .execve, .getpid]
  | .waitpid => [.signal, .waitpid, .clock, .sleep]
  | .exit => [.exit]

/-- Whether a service may use up its rounds. -/
def loops : ServiceCall.Name → Bool
  | .write | .waitpid => true
  | _ => false

section Parts

variable {names : List OsCall.Name} {stops : Bool}

theorem footprint_ask {c : OsCall} (h : names.contains c.name) :
    (ask c : Program σ OsCall.Reply c.Reply).Footprint (scope names stops) := Footprint.request h

theorem footprint_say (message : Text) (pid : Option Int) (context : Fields) :
    (say message pid context : Program σ OsCall.Reply Unit).Footprint (scope names stops) :=
  Footprint.log trivial

/-- Some calls are inside more of them. -/
theorem scope_inside {more : List OsCall.Name} (h : names ⊆ more) :
    (scope names stops : Scope σ OsCall).Inside (scope more stops) where
  calls _ hc := List.contains_iff_mem.mpr (h (List.contains_iff_mem.mp hc))
  changes _ _ hchange := hchange
  notes _ hentry := hentry
  stops hstops := hstops

end Parts

/-! ## Files -/

theorem footprint_readUpTo {names : List OsCall.Name} (h : names.contains .readBytes) (fd : Int)
    (count : Nat) : (readUpTo fd count : Program σ OsCall.Reply Bytes).Footprint (scope names) := by
  induction count with
  | zero => exact Footprint.done _
  | succ count ih =>
      refine Footprint.bind (footprint_ask h) fun byte => ?_
      cases byte with
      | nil => exact Footprint.done _
      | cons first rest =>
          by_cases hnewline : first :: rest = [0x0A]
          · simp only [hnewline, if_true]
            exact Footprint.done _
          · simp only [hnewline, if_false]
            exact Footprint.bind ih fun more => Footprint.done _

theorem footprint_readLine (rounds : Nat) (fd offset : Int) (capacity : Value) :
    (readLine rounds fd offset capacity : Program σ OsCall.Reply Bytes).Footprint
      (scope [.seek, .readBytes]) := by
  have hread : ((ofExcept (bytesBelow rounds capacity)).bind fun count =>
      readUpTo fd count : Program σ OsCall.Reply Bytes).Footprint (scope [.seek, .readBytes]) :=
    Footprint.bind (Footprint.ofExcept _) fun count => footprint_readUpTo rfl fd count
  refine Footprint.bind (Footprint.bind (Footprint.attempt (footprint_ask rfl)) fun place => ?_)
    fun seekable => ?_
  · rcases place with e | place
    · cases e with
      | os errno text => exact Footprint.done _
      | _ => exact Footprint.fail _
    · exact Footprint.done _
  · cases seekable with
    | true => exact Footprint.bind (footprint_ask rfl) fun _ => hread
    | false => exact hread

theorem footprint_writeAll (fd : Int) (rounds : Nat) (bytes : Bytes) :
    (writeAll fd rounds bytes : Program σ OsCall.Reply Unit).Footprint
      (scope [.writeBytes] true) := by
  induction rounds generalizing bytes with
  | zero =>
      cases bytes with
      | nil => exact Footprint.done _
      | cons => exact Footprint.outOfRounds rfl
  | succ rounds ih =>
      cases bytes with
      | nil => exact Footprint.done _
      | cons => exact Footprint.bind (footprint_ask rfl) fun taken => ih _

theorem footprint_write (spare : Nat) (fd : Int) (text : Text) :
    (write spare fd text : Program σ OsCall.Reply Unit).Footprint (scope [.writeBytes] true) := by
  simp only [write]
  cases Text.Utf8.encode? text with
  | none => exact Footprint.fail _
  | some bytes => exact footprint_writeAll fd _ bytes

theorem footprint_openReadOnly (path : Text) :
    (openReadOnly path : Program σ OsCall.Reply Int).Footprint (scope [.isDir, .openFile]) := by
  refine Footprint.bind (footprint_ask rfl) fun isDirectory => ?_
  cases isDirectory with
  | true => exact Footprint.fail _
  | false =>
      refine Footprint.bind (Footprint.attempt (footprint_ask rfl)) fun opened => ?_
      rcases opened with e | fd
      · cases e <;> exact Footprint.fail _
      · exact Footprint.bind (footprint_say _ _ _) fun _ => Footprint.done _

/-! ## The environment -/

theorem footprint_variableOr {names : List OsCall.Name} (name other : Text)
    (h : names.contains .environment) :
    (variableOr name other : Program σ OsCall.Reply Text).Footprint (scope names) :=
  Footprint.bind (footprint_ask h) fun _ => Footprint.done _

theorem footprint_getPwd :
    (getPwd : Program σ OsCall.Reply Text).Footprint (scope [.getcwd, .environment]) := by
  refine Footprint.bind (Footprint.attempt (footprint_ask rfl)) fun found => ?_
  rcases found with e | path
  · cases e with
    | os errno text => exact footprint_variableOr _ _ rfl
    | _ => exact Footprint.fail _
  · exact Footprint.done _

theorem footprint_setPwd (path : Text) :
    (setPwd path : Program σ OsCall.Reply Unit).Footprint (scope [.chdir, .setVariable]) := by
  refine Footprint.bind (Footprint.attempt (footprint_ask rfl)) fun entered => ?_
  rcases entered with e | ⟨⟩
  · cases e <;> exact Footprint.fail _
  · exact footprint_ask rfl

/-! ## Processes -/

theorem footprint_fork :
    (fork : Program σ OsCall.Reply Int).Footprint (scope [.fork, .getpid]) := by
  refine Footprint.bind (Footprint.attempt (footprint_ask rfl)) fun made => ?_
  rcases made with e | pid
  · cases e with
    | os errno text => exact Footprint.bind (footprint_ask rfl) fun parent => Footprint.fail _
    | _ => exact Footprint.fail _
  · exact Footprint.done _

theorem footprint_reportExec {names : List OsCall.Name} (path message : Text)
    (h : names.contains .getpid) :
    (reportExec path message : Program σ OsCall.Reply Unit).Footprint (scope names) :=
  Footprint.bind (footprint_ask h) fun _ => Footprint.fail _

theorem footprint_exec (path : Text) (argv : List Text) :
    (exec path argv : Program σ OsCall.Reply Unit).Footprint
      (scope [.environment, .execve, .getpid]) := by
  refine Footprint.bind (footprint_ask rfl) fun environment => ?_
  refine Footprint.bind (Footprint.attempt (footprint_ask rfl)) fun outcome => ?_
  rcases outcome with e | ⟨⟩
  · cases e with
    | os errno text => exact footprint_reportExec _ _ rfl
    | badValue text => exact footprint_reportExec _ _ rfl
    | _ => exact Footprint.fail _
  · exact Footprint.done _

/-! ## Waiting -/

/-- The calls that looking at a child may make. -/
def lookingCalls : List OsCall.Name := [.waitpid, .clock, .sleep]

/-- The calls that waiting may make. -/
def waitingCalls : List OsCall.Name := callsOf .waitpid

theorem footprint_install (handler : Handler) :
    (install handler : Program σ OsCall.Reply (Option Handler)).Footprint
      (scope waitingCalls true) := by
  refine Footprint.bind (Footprint.attempt (footprint_ask rfl)) fun outcome => ?_
  rcases outcome with e | previous
  · cases e with
    | badValue text => exact Footprint.done _
    | _ => exact Footprint.fail _
  · exact Footprint.done _

theorem footprint_giveBack (previous : Option Handler) :
    (giveBack previous : Program σ OsCall.Reply Unit).Footprint (scope waitingCalls true) := by
  cases previous with
  | none => exact Footprint.done _
  | some handler => exact Footprint.bind (footprint_ask rfl) fun _ => Footprint.done _

theorem footprint_poll (pid : Int) (deadline : Double) (rounds : Nat) :
    (poll pid deadline rounds : Program σ OsCall.Reply (Option Int)).Footprint
      (scope lookingCalls true) := by
  induction rounds with
  | zero => exact Footprint.outOfRounds rfl
  | succ rounds ih =>
      refine Footprint.bind (footprint_ask rfl) fun found => ?_
      obtain ⟨process, status⟩ := found
      dsimp only
      by_cases hprocess : process ≠ 0
      · simp only [if_pos hprocess]
        exact Footprint.done _
      · simp only [if_neg hprocess]
        refine Footprint.bind (footprint_ask rfl) fun now => ?_
        by_cases hdeadline : deadline.le now = true
        · simp only [if_pos hdeadline]
          exact Footprint.done _
        · simp only [if_neg hdeadline]
          exact Footprint.bind (footprint_ask rfl) fun _ => ih

theorem footprint_awaitStatus (rounds : Nat) (pid : Int) (timeout : Value) :
    (awaitStatus rounds pid timeout : Program σ OsCall.Reply (Option Int)).Footprint
      (scope lookingCalls true) := by
  simp only [awaitStatus]
  rcases timeout.leInt? 0 with _ | _ | _
  · exact Footprint.fail _
  · refine Footprint.bind (footprint_ask rfl) fun now => ?_
    exact Footprint.bind (Footprint.ofExcept _) fun timeout => footprint_poll pid _ rounds
  · exact Footprint.bind (footprint_ask rfl) fun found => Footprint.done _

theorem footprint_classify {names : List OsCall.Name} {stops : Bool} (pid status : Int) :
    (classify pid status : Program σ OsCall.Reply WaitOutcome).Footprint (scope names stops) := by
  refine Footprint.bind (Footprint.ofExcept _) fun _ => ?_
  cases signalOf? status with
  | some number => exact Footprint.bind (footprint_say _ _ _) fun _ => Footprint.done _
  | none =>
      refine Footprint.bind (Footprint.ofExcept _) fun code => ?_
      exact Footprint.bind (footprint_say _ _ _) fun _ => Footprint.done _

theorem footprint_waitpid (rounds : Nat) (pid : Int) (timeout : Value) :
    (waitpid rounds pid timeout : Program σ OsCall.Reply WaitOutcome).Footprint
      (scope waitingCalls true) := by
  have hawait : (awaitStatus rounds pid timeout : Program σ OsCall.Reply (Option Int)).Footprint
      (scope waitingCalls true) := (footprint_awaitStatus rounds pid timeout).mono
    (scope_inside (by decide))
  refine Footprint.bind (Footprint.attempt (Footprint.bind (footprint_install _) fun previous =>
    Footprint.andFinally hawait (footprint_giveBack previous))) fun outcome => ?_
  rcases outcome with e | status
  · have hother : (if e.hasErrno Failure.noChild then pure .noSuchProcess else fail e :
        Program σ OsCall.Reply WaitOutcome).Footprint (scope waitingCalls true) := by
      split
      · exact Footprint.done _
      · exact Footprint.fail _
    cases e with
    | interrupt => exact Footprint.done _
    | _ => exact hother
  · cases status with
    | none => exact Footprint.done _
    | some status => exact footprint_classify pid status

/-! ## All services -/

/-- Each service keeps to its calls. -/
theorem footprint_carryOut (rounds : Nat) (c : ServiceCall) :
    (carryOut rounds c : Program σ OsCall.Reply c.Reply).Footprint
      (scope (callsOf c.name) (loops c.name)) := by
  cases c with
  | readLine fd offset capacity => exact footprint_readLine rounds fd offset capacity
  | write fd text => exact footprint_write rounds fd text
  | fileExists path => exact footprint_ask rfl
  | isDir path => exact footprint_ask rfl
  | openReadOnly path => exact footprint_openReadOnly path
  | close fd => exact footprint_ask rfl
  | getPwd => exact footprint_getPwd
  | setPwd path => exact footprint_setPwd path
  | getPath => exact footprint_variableOr _ _ rfl
  | getPid => exact footprint_ask rfl
  | fork => exact footprint_fork
  | exec path argv => exact footprint_exec path argv
  | waitpid pid timeout => exact footprint_waitpid rounds pid timeout
  | exit status => exact footprint_ask rfl

end LineShell.Host
