import LineShell.Proofs.Services.InMemory
import LineShell.Proofs.Services.View

/-!
# Services of a host without faults

Without faults a service of a host comes to something fixed, and its run is given here: how it ends,
and the world behind it.  A line is read like one from memory, whether the source can seek or not
(`Host.run_readLine`), and a wait for as long as it takes comes to an outcome (`Host.run_waitpid`).
-/

namespace LineShell

open Program

namespace OsWorld

variable {σ : Type} {w v u : OsWorld} {c : OsCall}

theorem answer_of_faults_nil (h : w.faults = []) (hc : (c.name == .waitpid) = false) :
    answer c w = ⟨(w.serve c).1, (w.serve c).2, []⟩ := by
  refine answer_of_unhit ?_ (beq_eq_false_iff_ne.mp hc)
  rw [h]
  exact List.forall_mem_nil _

/-- Without faults every call but a wait is carried out. -/
theorem run_ask (s : σ) (h : w.faults = []) (hc : (c.name == .waitpid) = false) :
    (OsCall.ask c : Program σ OsCall.Reply c.Reply).run answer s w =
      ⟨endingOf (w.serve c).1, s, (w.serve c).2, [.called c (w.serve c).1]⟩ := by
  rw [OsCall.ask, run_request, answer_of_faults_nil h hc]

/-- A wait at which no interrupt has arrived takes the next status. -/
theorem answer_waitpid (h : w.faults = []) (hwaits : .interrupt ∉ w.waits) (pid : Int) (now : Bool) :
    answer (.waitpid pid now) w = ⟨w.takeStatus.1, w.takeStatus.2, []⟩ := by
  have hready : ({ w with faults := Fault.advance w.faults .waitpid } : OsWorld) = w := by
    cases w
    cases h
    rfl
  have hdeliver : deliver w.waits w = (.ok (), w, []) := by
    cases hfirst : w.waits with
    | nil => rfl
    | cons first rest =>
        cases first with
        | status child status => rfl
        | interrupt =>
            rw [hfirst] at hwaits
            exact absurd List.mem_cons_self hwaits
  unfold answer
  dsimp only
  rw [hready, h]
  simp only [Fault.hit?, List.find?_nil, Option.map_none, answerWait, hdeliver]

/-- A source was moved to a place, and nothing else happened. -/
structure Moved (fd : Int) (source : OpenSource) (w v : OsWorld) : Prop where
  rest : v = { w with sources := v.sources }
  here : v.sources.lookup fd = some source
  elsewhere : ∀ g, g ≠ fd → v.sources.lookup g = w.sources.lookup g

variable {fd : Int} {source other : OpenSource}

theorem Moved.faults (h : Moved fd source w v) : v.faults = w.faults := by
  rw [h.rest]

theorem Moved.trans (h : Moved fd source w v) (h' : Moved fd other v u) : Moved fd other w u where
  rest := by
    rw [h'.rest, h.rest]
  here := h'.here
  elsewhere g hg := (h'.elsewhere g hg).trans (h.elsewhere g hg)

theorem moved_refl (h : w.sources.lookup fd = some source) : Moved fd source w w :=
  ⟨rfl, h, fun _ _ => rfl⟩

theorem moved_setSource (w : OsWorld) (fd : Int) (source : OpenSource) :
    Moved fd source w (w.setSource fd source) where
  rest := rfl
  here := List.lookup_cons_self ..
  elsewhere g hg := by
    have hne : (g == fd) = false := by simp [hg]
    rw [setSource, List.lookup_cons, hne]
    rw [lookup_filter_key (· != fd), if_pos (bne_iff_ne.mpr hg)]

end OsWorld

namespace Host

open OsCall
open OsWorld (answer Moved moved_refl moved_setSource run_ask)

variable {σ : Type} (s : σ) {w : OsWorld} {fd : Int} {source : OpenSource} {content : Bytes}

/-! ## Reading -/

theorem run_readUpTo (count : Nat) {position : Nat} (hfaults : w.faults = [])
    (hsource : w.sources.lookup fd = some ⟨content, position⟩) :
    ∃ v events, (readUpTo fd count).run answer s w =
        ⟨.returned (InMemory.firstLine ((content.drop position).take count)), s, v, events⟩ ∧
      Moved fd ⟨content,
        position + (InMemory.firstLine ((content.drop position).take count)).length⟩ w v := by
  induction count generalizing w position with
  | zero =>
      refine ⟨w, [], rfl, ?_⟩
      exact moved_refl hsource
  | succ count ih =>
      have hserve : w.serve (.readBytes fd 1) = (.ok ((content.drop position).take 1),
          w.setSource fd ⟨content, position + ((content.drop position).take 1).length⟩) := by
        simp only [OsWorld.serve, OsWorld.readBytes, hsource, Int.toNat_natCast]
      have hask := run_ask (c := .readBytes fd 1) s hfaults rfl
      rw [hserve] at hask
      unfold readUpTo
      rw [bind_eq_bind, run_bind, hask]
      cases hleft : content.drop position with
      | nil => exact ⟨_, _, rfl, moved_setSource w fd _⟩
      | cons byte rest =>
          have hmoved := moved_setSource w fd ⟨content, position + ((byte :: rest).take 1).length⟩
          by_cases hbyte : byte = 0x0A
          · subst hbyte
            exact ⟨_, _, rfl, hmoved⟩
          · -- the bytes behind this one are read from the world in which it was read
            have hrest : content.drop (position + 1) = rest := by
              rw [← List.drop_drop, hleft]
              rfl
            have hplace :
                ((position : Int) + ((byte :: rest).take 1).length) = (position + 1 : Nat) := by
              simp
            rw [hplace] at hmoved
            obtain ⟨v, events, hrun, hlater⟩ := ih (hmoved.faults.trans hfaults) hmoved.here
            rw [hrest] at hrun hlater
            have hne : [byte] ≠ [0x0A] := fun h => hbyte (List.singleton_inj.mp h)
            have hline : InMemory.firstLine ((byte :: rest).take (count + 1)) =
                byte :: InMemory.firstLine (rest.take count) := by
              rw [List.take_succ_cons, InMemory.firstLine, if_neg hbyte]
            rw [hline]
            simp only [List.take_succ_cons, List.take_zero] at hplace ⊢
            simp only [Outcome.andThen, endingOf, if_neg hne, bind_eq_bind, run_bind, hplace, hrun]
            refine ⟨v, _, rfl, ?_⟩
            have hend : (position : Int) + (byte :: InMemory.firstLine (rest.take count)).length =
                (position + 1 : Nat) + (InMemory.firstLine (rest.take count)).length := by
              rw [List.length_cons]
              omega
            rw [hend]
            exact hmoved.trans hlater

theorem bytesBelow_of_toInt? {rounds : Nat} {capacity : Value} {n : Int}
    (h : capacity.toInt? = some n) : bytesBelow rounds capacity = .ok n.toNat := by
  cases capacity with
  | bool b => cases h; rfl
  | int m => cases h; rfl
  | _ => cases h

/-- A source that can seek is recognised, and stays where it is. -/
theorem run_isSeekable (hfaults : w.faults = []) (hsource : w.sources.lookup fd = some source) :
    ∃ v events, (isSeekable fd).run answer s w =
        ⟨.returned (!decide (fd = 0 ∧ w.stdinPipe)), s, v, events⟩ ∧ Moved fd source w v := by
  have hask := run_ask (c := .seek fd 0 .current) s hfaults rfl
  unfold isSeekable
  rw [bind_eq_bind, run_bind, run_attempt, hask]
  by_cases hpipe : fd = 0 ∧ w.stdinPipe
  · have hserve : w.serve (.seek fd 0 .current) = (.error (.os (some 29) "Illegal seek"), w) := by
      simp only [OsWorld.serve, OsWorld.seek, hsource, if_pos hpipe]
    rw [hserve, decide_eq_true hpipe]
    exact ⟨w, _, rfl, moved_refl hsource⟩
  · have hserve : w.serve (.seek fd 0 .current) =
        (.ok source.position, w.setSource fd source) := by
      simp only [OsWorld.serve, OsWorld.seek, hsource, if_neg hpipe, Int.add_zero]
    rw [hserve, decide_eq_false hpipe]
    exact ⟨_, _, rfl, moved_setSource w fd source⟩

/-- Goes to the place to read from, where the source can seek. -/
def rewind (fd offset : Int) : Program σ OsCall.Reply Unit :=
  (isSeekable fd).bind fun seekable =>
    if seekable then (ask (.seek fd offset .start)).bind fun _ => done () else done ()

theorem readLine_eq (rounds : Nat) (fd offset : Int) (capacity : Value) :
    (readLine rounds fd offset capacity : Program σ OsCall.Reply Bytes) =
      (rewind fd offset).bind fun _ =>
        (ofExcept (bytesBelow rounds capacity)).bind fun count => readUpTo fd count := by
  unfold readLine rewind
  rw [bind_eq_bind, bind_assoc]
  congr 1
  funext seekable
  cases seekable with
  | false => rfl
  | true =>
      dsimp only
      rw [if_pos rfl, if_pos rfl, bind_assoc]
      rfl

/-- A source that can seek is sent to the offset, and any other one stays where it is. -/
theorem run_rewind_from {offset place : Nat} (hfaults : w.faults = [])
    (hsource : w.sources.lookup fd = some source)
    (hpipe : fd = 0 ∧ w.stdinPipe → source.position = place)
    (hfree : ¬(fd = 0 ∧ w.stdinPipe) → offset = place) :
    ∃ v events, (rewind fd offset).run answer s w = ⟨.returned (), s, v, events⟩ ∧
      Moved fd ⟨source.content, place⟩ w v := by
  obtain ⟨v, events, hseekable, hmoved⟩ := run_isSeekable s hfaults hsource
  unfold rewind
  rw [run_bind, hseekable]
  by_cases hpiped : fd = 0 ∧ w.stdinPipe
  · rw [← hpipe hpiped]
    simp only [Outcome.andThen, decide_eq_true hpiped, Bool.not_true, Bool.false_eq_true, if_false,
      run_done]
    exact ⟨v, _, rfl, hmoved⟩
  · obtain rfl := hfree hpiped
    have hserve : v.serve (.seek fd offset .start) =
        (.ok (offset : Int), v.setSource fd ⟨source.content, offset⟩) := by
      have hsame : v.stdinPipe = w.stdinPipe := by rw [hmoved.rest]
      simp only [OsWorld.serve, OsWorld.seek, hmoved.here, hsame, if_neg hpiped,
        if_neg (Int.not_lt.mpr (Int.natCast_nonneg offset))]
    have hseek := run_ask (c := .seek fd offset .start) s (hmoved.faults.trans hfaults) rfl
    rw [hserve] at hseek
    simp only [Outcome.andThen, decide_eq_false hpiped, Bool.not_false, if_true, run_bind, hseek,
      endingOf, run_done]
    exact ⟨_, _, rfl, hmoved.trans (moved_setSource v fd ⟨source.content, offset⟩)⟩

/-- A line is read at a place: at the offset when the source can seek, and where it is when it cannot. -/
theorem run_readLine_from (rounds : Nat) {capacity : Value} {n : Int} (hsize : capacity.toInt? = some n)
    {offset place : Nat} (hfaults : w.faults = []) (hsource : w.sources.lookup fd = some source)
    (hpipe : fd = 0 ∧ w.stdinPipe → source.position = place)
    (hfree : ¬(fd = 0 ∧ w.stdinPipe) → offset = place) :
    ∃ v events, (readLine rounds fd offset capacity).run answer s w =
        ⟨.returned (InMemory.lineAt source.content place n), s, v, events⟩ ∧
      Moved fd ⟨source.content, place + (InMemory.lineAt source.content place n).length⟩ w v := by
  obtain ⟨v, events, hrewind, hmoved⟩ := run_rewind_from s hfaults hsource hpipe hfree
  obtain ⟨u, more, hread, hlater⟩ := run_readUpTo s n.toNat (hmoved.faults.trans hfaults) hmoved.here
  rw [readLine_eq, run_bind, hrewind, InMemory.lineAt, Int.toNat_natCast]
  simp only [Outcome.andThen, bytesBelow_of_toInt? hsize, run_bind, run_ofExcept_ok, hread]
  exact ⟨u, _, rfl, hmoved.trans hlater⟩

/-- A line is read at the offset.  A source that cannot seek has to be there already. -/
theorem run_readLine (rounds : Nat) {capacity : Value} {n : Int} (hsize : capacity.toInt? = some n)
    {offset : Nat} (hfaults : w.faults = []) (hsource : w.sources.lookup fd = some source)
    (hpipe : fd = 0 ∧ w.stdinPipe → source.position = offset) :
    ∃ v events, (readLine rounds fd offset capacity).run answer s w =
        ⟨.returned (InMemory.lineAt source.content offset n), s, v, events⟩ ∧
      Moved fd ⟨source.content, offset + (InMemory.lineAt source.content offset n).length⟩ w v :=
  run_readLine_from s rounds hsize hfaults hsource hpipe fun _ => rfl

/-! ## Files and the environment -/

/-- The world in which a file was opened. -/
def opened (w : OsWorld) (content : Bytes) : OsWorld :=
  { w with sources := (w.nextFd, ⟨content, 0⟩) :: w.sources, nextFd := w.nextFd + 1 }

/-- The world in which a directory was entered. -/
def entered (w : OsWorld) (path cwd : Text) : OsWorld :=
  { w with
    cwd := cwd
    cwdGone := false
    environment := OsWorld.setVariable w.environment pwdVariable path }

/-- A file that is no directory is opened behind the next descriptor. -/
theorem run_openReadOnly {path : Text} (hfaults : w.faults = [])
    (hdir : w.dirs.lookup path = none) (hdenied : w.denied.contains path = false)
    (hfile : w.files.lookup path = some content) :
    ∃ events, (openReadOnly path).run answer s w =
      ⟨.returned w.nextFd, s, opened w content, events⟩ := by
  have hisDir := run_ask (c := .isDir (.text path)) s hfaults rfl
  have hopen := run_ask (c := .openFile path) s hfaults rfl
  have hserve : w.serve (.openFile path) = (.ok w.nextFd, opened w content) := by
    simp only [OsWorld.serve, hfile, hdenied]
    rfl
  simp only [OsWorld.serve, hdir, Option.isSome_none] at hisDir
  rw [hserve] at hopen
  unfold openReadOnly
  simp only [bind_eq_bind, run_bind, hisDir, endingOf, Outcome.andThen, Bool.false_eq_true, if_false,
    run_attempt, hopen, Ending.attempt]
  exact ⟨_, rfl⟩

/-- What is no file or is a directory is reported as not found. -/
theorem run_openReadOnly_refused {path : Text} (hfaults : w.faults = [])
    (h : (w.dirs.lookup path).isSome ∨ w.files.lookup path = none)
    (hdenied : w.denied.contains path = false) :
    ∃ given events, (openReadOnly path).run answer s w =
      ⟨.failed (.fileNotFound path given), s, w, events⟩ := by
  have hisDir := run_ask (c := .isDir (.text path)) s hfaults rfl
  have hopen := run_ask (c := .openFile path) s hfaults rfl
  simp only [OsWorld.serve] at hisDir
  unfold openReadOnly
  -- a directory is refused before it is opened, and anything else is not there
  cases hdir : (w.dirs.lookup path).isSome with
  | true =>
      rw [hdir] at hisDir
      simp only [bind_eq_bind, run_bind, hisDir, endingOf, Outcome.andThen, if_true, run_fail]
      exact ⟨_, _, rfl⟩
  | false =>
      have hfile : w.files.lookup path = none := by
        rw [hdir] at h
        exact h.resolve_left Bool.false_ne_true
      have hserve : w.serve (.openFile path) = (.error OsWorld.noSuchFile, w) := by
        simp only [OsWorld.serve, hfile, hdenied]
        rfl
      rw [hdir] at hisDir
      rw [hserve] at hopen
      simp only [bind_eq_bind, run_bind, hisDir, endingOf, Outcome.andThen, Bool.false_eq_true,
        if_false, run_attempt, hopen, Ending.attempt, OsWorld.noSuchFile, run_fail]
      exact ⟨_, _, rfl⟩

theorem run_variableOr (name other : Text) (hfaults : w.faults = []) :
    ∃ events, (variableOr name other).run answer s w =
      ⟨.returned ((w.environment.lookup name).getD other), s, w, events⟩ := by
  have hask := run_ask (c := .environment) s hfaults rfl
  unfold variableOr
  simp only [bind_eq_bind, run_bind, hask, OsWorld.serve, endingOf, Outcome.andThen]
  exact ⟨_, rfl⟩

/-- The working directory is there unless it was removed. -/
theorem run_getPwd (hfaults : w.faults = []) (hgone : w.cwdGone = false) :
    ∃ events, getPwd.run answer s w = ⟨.returned w.cwd, s, w, events⟩ := by
  have hask := run_ask (c := .getcwd) s hfaults rfl
  simp only [OsWorld.serve, hgone, Bool.false_eq_true, if_false] at hask
  unfold getPwd
  simp only [bind_eq_bind, run_bind, run_attempt, hask, endingOf, Ending.attempt, Outcome.andThen]
  exact ⟨_, rfl⟩

/-- A directory that is no file is entered and put into the environment. -/
theorem run_setPwd {path cwd : Text} (hfaults : w.faults = [])
    (hdenied : w.denied.contains path = false) (hfile : w.files.lookup path = none)
    (hdir : w.dirs.lookup path = some cwd) :
    ∃ events, (setPwd path).run answer s w = ⟨.returned (), s, entered w path cwd, events⟩ := by
  have hchdir := run_ask (c := .chdir path) s hfaults rfl
  have hserve : w.serve (.chdir path) = (.ok (), { w with cwd := cwd, cwdGone := false }) := by
    simp only [OsWorld.serve, OsWorld.chdir, hfile, hdir, hdenied]
    rfl
  rw [hserve] at hchdir
  have hset := run_ask (c := .setVariable pwdVariable path)
    (w := { w with cwd := cwd, cwdGone := false }) s hfaults rfl
  unfold setPwd
  simp only [bind_eq_bind, run_bind, run_attempt, hchdir, endingOf, Ending.attempt, Outcome.andThen,
    hset]
  exact ⟨_, rfl⟩

/-- What is no directory is reported so. -/
theorem run_setPwd_refused {path : Text} (hfaults : w.faults = [])
    (hdenied : w.denied.contains path = false) (hdir : w.dirs.lookup path = none) :
    ∃ given events, (setPwd path).run answer s w =
      ⟨.failed (.notADirectory (.text path) given), s, w, events⟩ := by
  have hchdir := run_ask (c := .chdir path) s hfaults rfl
  unfold setPwd
  cases hfile : (w.files.lookup path).isSome with
  | true =>
      have hserve : w.serve (.chdir path) = (.error (.os (some 20) "Not a directory"), w) := by
        simp only [OsWorld.serve, OsWorld.chdir, hfile, hdenied]
        rfl
      rw [hserve] at hchdir
      simp only [bind_eq_bind, run_bind, run_attempt, hchdir, endingOf, Ending.attempt,
        Outcome.andThen, run_fail]
      exact ⟨_, _, rfl⟩
  | false =>
      have hserve : w.serve (.chdir path) = (.error OsWorld.noSuchFile, w) := by
        simp only [OsWorld.serve, OsWorld.chdir, hfile, hdir, hdenied]
        rfl
      rw [hserve] at hchdir
      simp only [bind_eq_bind, run_bind, run_attempt, hchdir, endingOf, Ending.attempt,
        Outcome.andThen, OsWorld.noSuchFile, run_fail]
      exact ⟨_, _, rfl⟩

/-! ## Processes -/

theorem run_fork (hfaults : w.faults = []) :
    fork.run answer s w = ⟨.returned (w.forks.headD 101), s, { w with forks := w.forks.tail },
      [.called .fork (.ok (w.forks.headD 101))]⟩ := by
  have hask := run_ask (c := .fork) s hfaults rfl
  simp only [OsWorld.serve] at hask
  unfold fork
  simp only [bind_eq_bind, run_bind, run_attempt, hask, endingOf, Ending.attempt, Outcome.andThen]
  rfl

/-- What becoming another program may fail with: an error of the operating system, a value that does
not fit, or a report of the failure itself. -/
def FromExec (e : Failure) : Prop :=
  (∃ errno text, e = .os errno text) ∨ (∃ text, e = .badValue text) ∨
    ∃ r, e.reportOf? .execFailed = some r

/-- Becoming another program is tried once, and reported as failed. -/
theorem run_exec (path : Text) (argv : List Text) (hfaults : w.faults = [])
    (herror : FromExec w.execError) :
    ∃ e r events, (exec path argv).run answer s w = ⟨.failed e, s, w, events⟩ ∧
      e.reportOf? .execFailed = some r ∧ View.system.output events = [] ∧
      View.system.deeds events = [.executed path argv] := by
  have henvironment := run_ask (c := .environment) s hfaults rfl
  have hexecve := run_ask (c := .execve path argv w.environment) s hfaults rfl
  have hgetpid := run_ask (c := .getpid) s hfaults rfl
  simp only [OsWorld.serve] at henvironment hexecve hgetpid
  unfold exec
  simp only [bind_eq_bind, run_bind, henvironment, endingOf, Outcome.andThen, run_attempt, hexecve,
    Ending.attempt]
  rcases herror with ⟨errno, text, he⟩ | ⟨text, he⟩ | ⟨r, hr⟩
  · rw [he]
    simp only [reportExec, bind_eq_bind, run_bind, hgetpid, endingOf, Outcome.andThen, run_fail]
    exact ⟨_, _, _, rfl, rfl, rfl, rfl⟩
  · rw [he]
    simp only [reportExec, bind_eq_bind, run_bind, hgetpid, endingOf, Outcome.andThen, run_fail]
    exact ⟨_, _, _, rfl, rfl, rfl, rfl⟩
  · cases he : w.execError with
    | report report =>
        rw [he] at hr
        exact ⟨_, r, _, rfl, hr, rfl, rfl⟩
    | _ => rw [he] at hr; cases hr

/-! ## Waiting -/

/-- A child that has ended: with an exit code or by a signal. -/
def Final (status : Int) : Prop := checkStatus status = .ok () ∧ status % 0x80 ≠ 0x7F

/-- What a child that has ended is reported as. -/
def outcomeOf (status : Int) : WaitOutcome :=
  match signalOf? status with
  | some _ => .killed
  | none => .success

/-- What the status of a child that has ended means is known. -/
theorem run_classify (pid : Int) {status : Int} (h : Final status) :
    ∃ entry, (classify pid status).run answer s w =
      ⟨.returned (outcomeOf status), s, w, [.logged entry]⟩ := by
  unfold classify outcomeOf
  rw [bind_eq_bind, h.1]
  cases hsignal : signalOf? status with
  | some number => exact ⟨_, rfl⟩
  | none =>
      have hcode : exitCode status = .ok (status / 0x100 % 0x100) := by
        have hother := h.2
        have hzero : status % 0x80 = 0 := by
          unfold signalOf? at hsignal
          dsimp only at hsignal
          split at hsignal
          · cases hsignal
          · omega
        rw [exitCode, if_pos hzero]
      rw [hcode]
      exact ⟨_, rfl⟩

/-- A wait takes the next status, or there is none left. -/
theorem run_awaitStatus (rounds : Nat) (pid : Int) (hfaults : w.faults = [])
    (hwaits : .interrupt ∉ w.waits) :
    (awaitStatus rounds pid (.int 0)).run answer s w =
      ⟨endingOf (w.takeStatus.1.map fun found => some found.2), s, w.takeStatus.2,
        [.called (.waitpid pid false) w.takeStatus.1]⟩ := by
  have hzero : (Value.int 0).leInt? 0 = some true := rfl
  simp only [awaitStatus, hzero, bind_eq_bind, run_bind, ask, run_request,
    OsWorld.answer_waitpid hfaults hwaits]
  cases w.takeStatus.1 <;> rfl

theorem run_signal (handler : Handler) (hfaults : w.faults = []) (hmain : w.mainThread = true) :
    (ask (.signal handler) : Program σ OsCall.Reply Handler).run answer s w =
      ⟨.returned w.handler, s, { w with handler := handler },
        [.called (.signal handler) (.ok w.handler)]⟩ := by
  have hserve : w.serve (.signal handler) = (.ok w.handler, { w with handler := handler }) := by
    rw [OsWorld.serve, if_pos hmain]
  have hask := run_ask (c := .signal handler) s hfaults rfl
  rwa [hserve] at hask

/-- A handler was to be installed, if anything was done at all. -/
def Installing (events : List (Event OsCall.Reply)) : Prop :=
  events = [] ∨ ∃ handler outcome, events = [.called (.signal handler) outcome]

theorem Installing.dark {events : List (Event OsCall.Reply)} (h : Installing events) :
    View.system.Dark events := by
  rcases h with rfl | ⟨handler, outcome, rfl⟩ <;> exact ⟨rfl, rfl⟩

/-- While a program runs interrupts are handed on; it runs as it would without that, and what is seen
is what it shows. -/
theorem run_forwarding {α : Type} (pid : Int) {p : Program σ OsCall.Reply α} {ending : Ending α}
    {waits : List WaitEvent} {clock : Nat} {events : Handler → List (Event OsCall.Reply)}
    (hfaults : w.faults = []) (hends : ending ≠ .outOfRounds)
    (hp : ∀ handler, p.run answer s { w with handler := handler } =
      ⟨ending, s, { w with waits := waits, clock := clock, handler := handler }, events handler⟩) :
    ∃ inside handler before after, (forwarding pid p).run answer s w =
        ⟨ending, s, { w with waits := waits, clock := clock, handler := handler },
          before ++ (events inside ++ after)⟩ ∧
      Installing before ∧ Installing after := by
  unfold forwarding install
  by_cases hmain : w.mainThread = true
  · have hinstall := run_signal s (.forward pid) hfaults hmain
    let back : Handler := if w.handler = .unset then .default else w.handler
    let behind : OsWorld := { w with waits := waits, clock := clock, handler := .forward pid }
    have hback := run_signal s back (w := behind) hfaults hmain
    have hlast : (giveBack (some w.handler)).run answer s behind = ⟨.returned (), s,
        { behind with handler := back }, [.called (.signal back) (.ok (.forward pid))]⟩ := by
      rw [giveBack, bind_eq_bind, run_bind, hback]
      rfl
    refine ⟨.forward pid, back, [.called (.signal (.forward pid)) (.ok w.handler)],
      [.called (.signal back) (.ok (.forward pid))], ?_, .inr ⟨_, _, rfl⟩, .inr ⟨_, _, rfl⟩⟩
    simp only [bind_eq_bind, pure_eq_done, run_bind, run_attempt, hinstall, Ending.attempt,
      Outcome.andThen, run_done, run_andFinally _ (hp (.forward pid)) hends hlast]
    rfl
  · -- no handler can be installed, and there is none to give back
    let refused : Failure := .badValue "signal only works in main thread of the main interpreter"
    have hserve : w.serve (.signal (.forward pid)) = (.error refused, w) := by
      rw [OsWorld.serve, if_neg hmain]
    have hask := run_ask (c := .signal (.forward pid)) s hfaults rfl
    rw [hserve] at hask
    refine ⟨w.handler, w.handler, [.called (.signal (.forward pid)) (.error refused)], [], ?_,
      .inr ⟨_, _, rfl⟩, .inl rfl⟩
    let behind : OsWorld := { w with waits := waits, clock := clock, handler := w.handler }
    have hlast : (giveBack none).run answer s behind = ⟨.returned (), s, behind, []⟩ := rfl
    simp only [bind_eq_bind, pure_eq_done, run_bind, run_attempt, hask, endingOf, Ending.attempt,
      Outcome.andThen, refused, run_done, run_andFinally _ (hp w.handler) hends hlast]
    rfl

/-- A wait for as long as it takes comes to an outcome, and is all that is seen. -/
theorem run_waitpid (rounds : Nat) (pid : Int) (hfaults : w.faults = [])
    (hwaits : ∀ e ∈ w.waits, ∃ child status, e = .status child status ∧ Final status) :
    ∃ outcome waits handler events, (waitpid rounds pid (.int 0)).run answer s w =
        ⟨.returned outcome, s, { w with waits := waits, handler := handler }, events⟩ ∧
      waits ⊆ w.waits ∧ View.system.output events = [] ∧
      View.system.deeds events = [.awaited pid] := by
  have hquiet : .interrupt ∉ w.waits := by
    intro hmem
    obtain ⟨child, status, heq, -⟩ := hwaits _ hmem
    cases heq
  have hdeed : ∀ {outcome} {before after events : List (Event OsCall.Reply)},
      View.system.Dark before → View.system.Dark after → View.system.Dark events →
        View.system.output
          (before ++ ([.called (.waitpid pid false) outcome] ++ after) ++ events) = [] ∧
        View.system.deeds (before ++ ([.called (.waitpid pid false) outcome] ++ after) ++ events) =
          [.awaited pid] := by
    intro outcome before after events hbefore hafter hevents
    refine ⟨?_, ?_⟩
    · rw [hevents.output_append, View.output_append, hbefore.output, hafter.output_append]
      rfl
    · rw [hevents.deeds_append, View.deeds_append, hbefore.deeds, hafter.deeds_append]
      rfl
  unfold waitpid
  rw [bind_eq_bind, run_bind, run_attempt]
  cases hleft : w.waits with
  | nil =>
      -- no status is left, so the system knows of no child
      let gone : Failure := .os (some Failure.noChild) "No child processes"
      have hawait : ∀ handler, (awaitStatus rounds pid (.int 0)).run answer s
          { w with handler := handler } = ⟨.failed gone, s, { w with
            waits := w.waits
            handler := handler }, [.called (.waitpid pid false) (.error gone)]⟩ := by
        intro handler
        have hrun := run_awaitStatus s rounds pid (w := { w with handler := handler }) hfaults hquiet
        rwa [OsWorld.takeStatus_of_nil (w := { w with handler := handler }) hleft] at hrun
      have hends : (Ending.failed gone : Ending (Option Int)) ≠ .outOfRounds := nofun
      obtain ⟨-, handler, before, after, hrun, hbefore, hafter⟩ :=
        run_forwarding s pid hfaults hends hawait
      rw [hrun]
      refine ⟨.noSuchProcess, w.waits, handler, _, rfl, ?_, hdeed hbefore.dark hafter.dark View.dark_nil⟩
      rw [hleft]
      exact List.Subset.refl []
  | cons first rest =>
      obtain ⟨child, status, rfl, hfinal⟩ := hwaits first (hleft ▸ List.mem_cons_self)
      have hawait : ∀ handler, (awaitStatus rounds pid (.int 0)).run answer s
          { w with handler := handler } = ⟨.returned (some status), s, { w with
            waits := rest
            handler := handler }, [.called (.waitpid pid false) (.ok (child, status))]⟩ := by
        intro handler
        have hrun := run_awaitStatus s rounds pid (w := { w with handler := handler }) hfaults hquiet
        rwa [OsWorld.takeStatus_of_cons (w := { w with handler := handler }) hleft] at hrun
      have hends : (Ending.returned (some status) : Ending (Option Int)) ≠ .outOfRounds := nofun
      obtain ⟨-, handler, before, after, hrun, hbefore, hafter⟩ :=
        run_forwarding s pid hfaults hends hawait
      obtain ⟨entry, hclassify⟩ :=
        run_classify s pid hfinal (w := { w with waits := rest, handler := handler })
      rw [hrun]
      simp only [Ending.attempt, Outcome.andThen, hclassify]
      refine ⟨outcomeOf status, rest, handler, _, rfl, ?_, hdeed hbefore.dark hafter.dark ⟨rfl, rfl⟩⟩
      exact List.subset_cons_self _ rest

end Host

end LineShell
