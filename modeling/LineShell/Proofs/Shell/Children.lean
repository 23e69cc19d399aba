import LineShell.Proofs.Program.Custody
import LineShell.Proofs.Services.InMemory
import LineShell.Proofs.Shell.Footprint
import LineShell.Proofs.Shell.Seen
import LineShell.Proofs.Shell.Start

/-!
# One child at a time

Each child is waited for as soon as it was made, and before another one is made or a line is read.  So
the waits that were answered are those for the children that were made, in order, but for the child
that is being waited for now.

Whether a child is gone after its wait is another matter: the shell goes on whatever waiting came to.
A child whose wait was interrupted, or whose time was up, is left behind, and no later wait is for it.
So the children that were made so far are all gone just when each wait so far found its child gone.

The main result is `Shell.run_childrenAwaited`.
-/

namespace LineShell

open Program LineShell.Action

/-- What waiting came to, child by child. -/
def waitReplies (events : List (Event ServiceCall.Reply)) : List (Int × WaitOutcome) :=
  events.filterMap fun
    | .called (.waitpid pid _) (.ok outcome) => some (pid, outcome)
    | _ => none

/-- The children that were made; a child itself is told zero. -/
def childrenMade (events : List (Event ServiceCall.Reply)) : List Int :=
  (forkReplies events).filter (0 < ·)

/-- The children that were reported gone. -/
def childrenGone (events : List (Event ServiceCall.Reply)) : List Int :=
  ((waitReplies events).filter fun wait => 0 < wait.1 && wait.2.reaped).map (·.1)

namespace Children

open Shell

/-- A child that is made is taken, and waiting for it gives it back.  When a child is made or a line is
read no other child may be held. -/
def custody : Custody ServiceCall.Reply where
  taken?
    | .called .fork (.ok pid) => some pid
    | _ => none
  given?
    | .called (.waitpid pid _) (.ok _) => some pid
    | _ => none
  bare
    | .called c _ => c = .fork ∨ c.name = .readLine
    | .logged _ => False

theorem custody_taken (events : List (Event ServiceCall.Reply)) :
    custody.taken events = forkReplies events := rfl

theorem custody_given (events : List (Event ServiceCall.Reply)) :
    custody.given events = (waitReplies events).map (·.1) := by
  rw [waitReplies, List.map_filterMap, Custody.given]
  congr 1
  funext e
  cases e with
  | called c outcome => cases c <;> cases outcome <;> rfl
  | logged entry => rfl

/-- Of things that come in order, some are left out just when not all of them are chosen. -/
theorem gone_eq_made_iff {events : List (Event ServiceCall.Reply)}
    (h : (waitReplies events).map (·.1) = forkReplies events) :
    childrenGone events = childrenMade events ↔
      ∀ wait ∈ waitReplies events, 0 < wait.1 → wait.2.reaped = true := by
  have hmade : childrenMade events =
      ((waitReplies events).filter fun wait => 0 < wait.1).map (·.1) := by
    rw [childrenMade, ← h, List.filter_map]
    rfl
  have hgone : childrenGone events =
      (((waitReplies events).filter fun wait => 0 < wait.1).filter fun wait => wait.2.reaped).map
        (·.1) := by
    rw [childrenGone, List.filter_filter]
    simp only [Bool.and_comm]
  rw [hmade, hgone]
  constructor
  · intro heq wait hwait hpos
    -- as many waits are chosen as there are, so all of them are
    have hlength := congrArg List.length heq
    rw [List.length_map, List.length_map, List.length_filter_eq_length_iff] at hlength
    exact hlength wait (List.mem_filter.mpr ⟨hwait, decide_eq_true hpos⟩)
  · intro hall
    rw [List.filter_eq_self.mpr]
    intro wait hwait
    obtain ⟨hmem, hpos⟩ := List.mem_filter.mp hwait
    exact hall wait hmem (of_decide_eq_true hpos)

/-- The services that neither make a child nor wait for one nor read a line. -/
def childlessServices : List ServiceCall.Name :=
  [.write, .fileExists, .isDir, .openReadOnly, .close, .getPwd, .setPwd, .getPath, .getPid, .exec,
    .exit]

theorem aside_called {c : ServiceCall} (h : childlessServices.contains c.name)
    (outcome : Except Failure c.Reply) : custody.Aside (.called c outcome) := by
  cases c with
  | fork => cases h
  | waitpid pid timeout => cases h
  | readLine fd offset size => cases h
  | _ => exact ⟨rfl, rfl, fun hbare => by rcases hbare with hbare | hbare <;> cases hbare⟩

theorem aside_logged (entry : Log.Entry) : custody.Aside (.logged entry) :=
  ⟨rfl, rfl, id⟩

variable {shell : Shell} {held : Option Int}

/-- One child or none is made and not awaited yet. -/
def Awaiting (held : Option Int) : Assertion Session InMemory ServiceCall.Reply :=
  fun past _ _ => custody.At held past

/-- At most one child is made and not awaited yet. -/
def AwaitingOne : Assertion Session InMemory ServiceCall.Reply :=
  fun past s w => ∃ held, Awaiting held past s w

theorem Awaiting.one {past : List (Event ServiceCall.Reply)} {s : Session} {w : InMemory}
    (h : Awaiting held past s w) : AwaitingOne past s w := ⟨held, h⟩

theorem indifferent_awaiting : Child.Indifferent (Awaiting held) where
  foreground _ _ _ _ h := h
  logged entry _ _ _ _ h := Custody.At.aside (aside_logged entry) h

theorem ensures_awaiting {α : Type} {p : Action α} {names : List ServiceCall.Name}
    {parts : List Session.Part} (hp : p.Footprint (scope names parts))
    (hnames : names.all childlessServices.contains) :
    Ensures InMemory.answer (Awaiting held) p (fun _ => Awaiting held) (fun _ => Awaiting held)
      Never := by
  refine (Custody.ensures_aside hp InMemory.answer_inner (fun c hc outcome => ?_)
    aside_logged).mono (fun _ _ _ h => h) (fun _ _ _ _ h => h) (fun _ _ _ _ h => h)
    fun _ _ _ h => nomatch h.1
  exact aside_called (List.all_eq_true.mp hnames _ (List.contains_iff_mem.mp hc)) outcome

/-- The same where it is only known that at most one child is awaited. -/
theorem ensures_awaitingOne {α : Type} {p : Action α} {names : List ServiceCall.Name}
    {parts : List Session.Part} (hp : p.Footprint (scope names parts))
    (hnames : names.all childlessServices.contains) :
    Ensures InMemory.answer AwaitingOne p (fun _ => AwaitingOne) (fun _ => AwaitingOne) Never := by
  refine Ensures.exists_pre fun held => ?_
  exact (ensures_awaiting hp hnames).mono (fun _ _ _ h => h) (fun _ _ _ _ h => h.one)
    (fun _ _ _ _ h => h.one) fun _ _ _ h => h

/-! ## A child -/

/-- The child that was made is awaited from now on. -/
theorem ensures_spawn :
    Ensures InMemory.answer (Awaiting none) Child.spawn (fun pid => Awaiting (some pid))
      (fun _ => Awaiting none) Never := by
  have hfork : Ensures InMemory.answer (Awaiting none) (ask .fork)
      (fun (pid : Int) => Awaiting (some pid)) (fun _ => Awaiting none) Never :=
    Ensures.request_alone (InMemory.answer_inner _) (fun _ _ _ _ h _ => Custody.At.take rfl rfl h)
      fun _ _ _ _ h _ => Custody.At.miss rfl rfl h
  rw [Child.spawn_eq]
  refine Ensures.bind (hfork.orElse fun e => ?_) fun pid => ?_
  · unfold Child.unmade
    cases e.reportOf? .forkFailed with
    | none => exact Ensures.fail fun _ _ _ h => h
    | some report =>
        refine Ensures.bind (ensures_awaiting (@footprint_childSay [] [] false _ _ _ _) rfl)
          fun _ => ?_
        exact Ensures.fail fun _ _ _ h => h
  · refine Ensures.bind ((indifferent_awaiting.ensures_made pid).mono_fails fun _ _ _ _ h => h.elim)
      fun _ => ?_
    exact Ensures.done fun _ _ _ h => h

theorem ensures_spawnOrReport :
    Ensures InMemory.answer (Awaiting none) spawnOrReport Awaiting (fun _ => Awaiting none) Never := by
  refine Ensures.bind ensures_spawn.attempt fun outcome => ?_
  cases outcome with
  | ok pid => exact Ensures.done fun _ _ _ h => h
  | error e =>
      dsimp only
      cases e.reportOf? .forkFailed with
      | none => exact Ensures.fail fun _ _ _ h => h
      | some report =>
          refine Ensures.bind (ensures_awaiting (footprint_print "could not fork\n") rfl) fun _ => ?_
          exact Ensures.done fun _ _ _ h => h

/-- A wait that is answered is for the child that was made last, whatever the answer is. -/
theorem ensures_wait (pid : Int) (timeout : Value) :
    Ensures InMemory.answer (Awaiting (some pid)) (Child.wait pid timeout) (fun _ => Awaiting none)
      (fun _ => AwaitingOne) Never := by
  have hbare : ∀ outcome, ¬custody.bare (.called (.waitpid pid timeout) outcome) := by
    rintro outcome (h | h) <;> cases h
  have hwait : Ensures InMemory.answer (Awaiting (some pid)) (ask (.waitpid pid timeout))
      (fun _ => Awaiting none) (fun _ => AwaitingOne) Never := by
    refine Ensures.request_alone (InMemory.answer_inner _) (fun past s w outcome h _ => ?_)
      fun past s w e h _ => ?_
    · exact Custody.At.give (hbare _) rfl rfl h
    · exact ⟨some pid, Custody.At.aside ⟨rfl, rfl, hbare _⟩ h⟩
  rw [Child.wait_eq]
  exact hwait.bind fun outcome =>
    (ensures_awaiting (footprint_awaited pid outcome) rfl).mono_fails fun _ _ _ _ h => h.one

theorem ensures_runInChild (tokens : List Text) :
    Ensures InMemory.answer (Awaiting none) (shell.runInChild tokens) (fun _ => Awaiting none)
      (fun _ => AwaitingOne) Never := by
  refine Ensures.bind (ensures_spawnOrReport.mono_fails fun _ _ _ _ h => h.one)
    fun child => ?_
  cases child with
  | none => exact Ensures.done fun _ _ _ h => h
  | some pid =>
      have hwaited : Ensures InMemory.answer (Awaiting (some pid))
          ((Child.wait pid shell.waitTimeout).bind fun _ => done true) (fun _ => Awaiting none)
          (fun _ => AwaitingOne) Never :=
        Ensures.bind (ensures_wait pid shell.waitTimeout) fun _ => Ensures.done fun _ _ _ h => h
      simp only [bind_eq_bind, pure_eq_done]
      split
      · refine Ensures.bind ?_ fun _ => hwaited
        exact (ensures_awaiting (shell.footprint_becomeCommand tokens) rfl).mono_fails
          fun _ _ _ _ h => h.one
      · exact hwaited

/-! ## Sources -/

/-- A line is read when no child is awaited, and reading makes none. -/
theorem ensures_readLine (interactive : Bool) (fd offset : Int) :
    Ensures InMemory.answer (Awaiting none) (readLine interactive fd offset) (fun _ => Awaiting none)
      (fun _ => Awaiting none) Never := by
  rw [readLine_eq]
  refine Ensures.state_bind fun s => Ensures.weaken ?_ fun _ _ _ h => h.2
  have hread : Ensures InMemory.answer (Awaiting none) (ask (.readLine fd offset s.line.size))
      (fun _ => Awaiting none) (fun _ => Awaiting none) Never :=
    Ensures.request_alone (InMemory.answer_inner _) (fun _ _ _ _ h _ => Custody.At.miss rfl rfl h)
      fun _ _ _ _ h _ => Custody.At.miss rfl rfl h
  refine Ensures.bind hread.attempt fun outcome => ?_
  have hreading := @ensures_awaiting none _ _ _ _ (footprint_readingOf interactive fd outcome) rfl
  cases outcome <;> exact hreading

theorem ensures_follow (interactive : Bool) (tokens : List Text) (verdict : Builtin.Verdict) :
    Ensures InMemory.answer (Awaiting none) (shell.follow interactive tokens verdict)
      (fun _ => Awaiting none) (fun _ => AwaitingOne) Never := by
  cases verdict with
  | exit => exact Ensures.done fun _ _ _ h => h
  | handled => exact Ensures.done fun _ _ _ h => h
  | notBuiltin =>
      refine Ensures.bind (ensures_runInChild tokens) fun made => ?_
      cases made <;> exact Ensures.done fun _ _ _ h => h

/-- Between two lines no child is awaited. -/
theorem runFrom_awaiting (fd : Int) (interactive : Bool) (rounds : Nat) (offset : Int) :
    Ensures InMemory.answer (Awaiting none)
      (shell.runFrom (Builtin.dispatch shell.home) fd interactive rounds offset)
      (fun _ => Awaiting none) (fun _ => AwaitingOne) AwaitingOne := by
  have hone : ∀ {past s w}, Awaiting none past s w → AwaitingOne past s w := fun h =>
    h.one
  -- between two lines nobody is waited for
  induction rounds generalizing offset with
  | zero => exact Ensures.outOfRounds fun _ _ _ h => hone h
  | succ rounds ih =>
      refine Ensures.bind ((ensures_awaiting (shell.footprint_announce interactive) rfl).part
        fun _ _ _ _ h => hone h) fun _ => ?_
      refine Ensures.bind ((ensures_readLine interactive fd offset).part
        fun _ _ _ _ h => hone h) fun reading => ?_
      cases reading with
      | exhausted => exact Ensures.done fun _ _ _ h => h
      | interrupted => exact ih offset
      | line chunk =>
          have hline : Ensures InMemory.answer (Awaiting none)
              (shell.runLine (Builtin.dispatch shell.home) interactive chunk) (fun _ => Awaiting none)
              (fun _ => AwaitingOne) AwaitingOne := by
            refine Ensures.bind ((ensures_awaiting (shell.footprint_tokenize chunk) rfl).part
              fun _ _ _ _ h => hone h) fun tokens => ?_
            refine Ensures.bind ((ensures_awaiting (footprint_dispatch shell.home tokens) rfl).part
              fun _ _ _ _ h => hone h) fun verdict => ?_
            exact (ensures_follow interactive tokens verdict).part fun _ _ _ _ h => h
          refine Ensures.bind hline fun next => ?_
          cases next with
          | leaveAll => exact Ensures.done fun _ _ _ h => h
          | leaveSource => exact Ensures.done fun _ _ _ h => h
          | goOn => exact ih _

/-! ## Runs -/

theorem runScripts_awaiting (rounds : Nat) (scripts : List Text) :
    Ensures InMemory.answer (Awaiting none) (shell.runScripts rounds scripts) (fun _ => Awaiting none)
      (fun _ => AwaitingOne) AwaitingOne := by
  have haside : ∀ {α : Type} {p : Action α} {names : List ServiceCall.Name}
      {parts : List Session.Part}, p.Footprint (scope names parts) →
      names.all childlessServices.contains →
      Ensures InMemory.answer (Awaiting none) p (fun _ => Awaiting none) (fun _ => AwaitingOne)
        AwaitingOne := fun hp hnames =>
    (ensures_awaiting hp hnames).part fun _ _ _ _ h => h.one
  -- a script is nothing but its lines as far as children are concerned
  have hscript : ∀ script, Ensures InMemory.answer (Awaiting none) (shell.runScript rounds script)
      (fun _ => Awaiting none) (fun _ => AwaitingOne) AwaitingOne := by
    intro script
    refine Ensures.state_bind fun s => Ensures.weaken ?_ fun _ _ _ h => h.2
    refine Ensures.bind (haside (@footprint_ask [.getPath] [] false .getPath rfl) rfl)
      fun searchPath => ?_
    refine Ensures.bind (haside (footprint_resolve script s.cwd searchPath) rfl) fun path => ?_
    refine Ensures.bind (haside (footprint_openScript path) rfl) fun opened => ?_
    cases opened with
    | none => exact Ensures.done fun _ _ _ h => h
    | some fd =>
        refine Ensures.bind (haside (@footprint_say [] [] false _ _ _) rfl) fun _ => ?_
        have hclose := @footprint_ask [.close] [] false (.close fd) rfl
        refine Ensures.andFinally (runFrom_awaiting fd false rounds 0) (fun _ => haside hclose rfl)
          fun _ => ?_
        exact (ensures_awaitingOne hclose rfl).part fun _ _ _ _ h => h
  induction scripts with
  | nil => exact Ensures.done fun _ _ _ h => h
  | cons script rest ih =>
      refine Ensures.bind (hscript script) fun goOn => ?_
      cases goOn with
      | true => exact ih
      | false => exact Ensures.done fun _ _ _ h => h

theorem run_awaiting (rounds : Nat) (scripts : List Text) :
    Ensures InMemory.answer (Awaiting none) (shell.run rounds scripts) (fun _ => AwaitingOne)
      (fun _ => AwaitingOne) AwaitingOne := by
  refine Ensures.bind ((ensures_awaiting footprint_publishCwd rfl).part
    fun _ _ _ _ h => h.one) fun _ => ?_
  refine Ensures.orElse (m := fun _ => AwaitingOne) ?_ fun e => ?_
  · refine Ensures.bind (runScripts_awaiting rounds scripts) fun goOn => ?_
    cases goOn with
    | false => exact Ensures.done fun _ _ _ h => h.one
    | true =>
        refine Ensures.bind (runFrom_awaiting standardInput true rounds 0) fun _ => ?_
        exact Ensures.done fun _ _ _ h => h.one
  · cases e with
    | interrupt =>
        refine Ensures.bind ((ensures_awaitingOne (@footprint_say [] [] false _ _ _) rfl).part
          fun _ _ _ _ h => h) fun _ => ?_
        refine Ensures.bind ((ensures_awaitingOne (footprint_print "\n") rfl).part
          fun _ _ _ _ h => h) fun _ => ?_
        exact Ensures.done fun _ _ _ h => h
    | _ => exact Ensures.fail fun _ _ _ h => h

end Children

namespace Shell

open Children in
/-- Whatever calls are answered with, at most one child is made and not awaited yet, and none when a
child is made or a line is read.  All the children made by then are gone just when each wait by then
found its child gone. -/
theorem run_childrenAwaited (shell : Shell) (rounds : Nat) (scripts : List Text) (s : Session)
    (w : InMemory) :
    let o := (shell.run rounds scripts).run InMemory.answer s w
    (∀ before after, o.events = before ++ after → ∃ current : Option Int,
      forkReplies before = (waitReplies before).map (·.1) ++ current.toList) ∧
    ∀ before c outcome after, o.events = before ++ .called c outcome :: after →
      c = .fork ∨ c.name = .readLine →
        (waitReplies before).map (·.1) = forkReplies before ∧
          (childrenGone before = childrenMade before ↔
            ∀ wait ∈ waitReplies before, 0 < wait.1 → wait.2.reaped = true) := by
  intro o
  have hone : AwaitingOne o.events o.state o.world :=
    (run_awaiting rounds scripts).always (fun _ _ _ _ h => h) (fun _ _ _ _ h => h) (fun _ _ _ h => h)
      Custody.at_nil
  obtain ⟨held, hat⟩ := hone
  -- a child in custody is one that was made and not yet waited for
  have howing : ∀ held past, custody.Owing held past →
      forkReplies past = (waitReplies past).map (·.1) ++ held.toList := by
    intro held past h
    rw [← custody_taken, ← custody_given]
    exact h
  constructor
  · intro before after hsplit
    obtain ⟨current, hbefore⟩ := hat.orderly.single before after hsplit
    exact ⟨current, howing current before hbefore⟩
  · intro before c outcome after hsplit hc
    have hbefore := howing none before (hat.orderly.bare before _ after hsplit hc)
    rw [Option.toList_none, List.append_nil] at hbefore
    exact ⟨hbefore.symm, gone_eq_made_iff hbefore.symm⟩

/-- A shell that waits a second for a child. -/
def impatient : Shell := { Shell.default with waitTimeout := .int 1 }

/-- A world in which the time is up for the first of two children. -/
def timeUp : InMemory :=
  .create [] [] "/" "" [0x6C, 0x73, 0x0A, 0x6C, 0x73, 0x0A] [] [.timeout] false false []

/-- A child is made while the first one, which was waited for, is still running. -/
theorem run_childrenAwaited_of_timeUp :
    let o := (impatient.run 8 []).run InMemory.answer (.default "/") timeUp
    ∃ before outcome after, o.events = before ++ .called .fork outcome :: after ∧
      (waitReplies before).map (·.1) = forkReplies before ∧
      childrenMade before = [101] ∧ childrenGone before = [] := by
  intro o
  have hsplit : o.events = o.events.take 9 ++ .called .fork (.ok 102) :: o.events.drop 10 := rfl
  have hawaited := (run_childrenAwaited impatient 8 [] (.default "/") timeUp).2 _ .fork _ _ hsplit
    (.inl rfl)
  exact ⟨o.events.take 9, _, o.events.drop 10, hsplit, hawaited.1, rfl, rfl⟩

end Shell

end LineShell
