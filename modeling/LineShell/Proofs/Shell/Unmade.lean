import LineShell.Proofs.Shell.Sequel

/-!
# Children that cannot be made

When no child can be made the user is told, and that is all that happens: nothing is waited for, and the
session is as it was.  What it costs is the rest of the script that the line came from, and nothing where
the line came from standard input.

A failure of the call goes up through the programs around it and is taken for a report on its way
(`unmade`).  What is left of each part of the shell by then is said from `sequel_spawnOrReport` to
`sequel_runFrom`, and so is what is left of a run (`Shell.sequel_unmade`).
-/

namespace LineShell

open Program LineShell.Action

/-- What the user and the log are told when no child can be made. -/
def unmadeEvents (r : ErrorReport) : List (Event ServiceCall.Reply) :=
  [.logged ⟨.debug, "process", ("fork failed: " : Text) ++ r.render, none, []⟩,
    .called (.write standardOutput "could not fork\n") (.ok ())]

/-- Behind a child that cannot be made something is left when that was told, and nothing else happens. -/
def unmade {World : Type} (answer : (c : ServiceCall) → World → Answer World ServiceCall.Reply c) :
    Sequel Session ServiceCall.Reply where
  calls c := c = .fork
  leaves _ next t k := ∀ e r u, e.reportOf? .forkFailed = some r →
    answer (.write standardOutput "could not fork\n") u = ⟨.ok (), u, []⟩ →
      Passes answer ⟨next (.error e), t, u⟩ (unmadeEvents r) ⟨k, t, u⟩
  bind f h := by
    intro e r u hr hwrite
    exact (h e r u hr hwrite).bind f
  attempt h := by
    intro e r u hr hwrite
    exact (h e r u hr hwrite).attempt

/-! ## Children -/

section Parts

variable {World : Type} {answer : (c : ServiceCall) → World → Answer World ServiceCall.Reply c}
  {s t : Session} {w v : World}

namespace Shell

/-- What is made of the child that there is now, or of the failure to make one. -/
def spawned (outcome : Except Failure Int) : Action (Option Int) :=
  (((ofExcept outcome).orElse Child.unmade).bind fun pid =>
    (Child.made pid).bind fun _ => done pid).attempt.bind fun
      | .ok pid => done (some pid)
      | .error e =>
        match e.reportOf? .forkFailed with
        | some _ => (print "could not fork\n").bind fun _ => done none
        | none => fail e

theorem spawnOrReport_eq : spawnOrReport = (ask .fork).attempt.bind spawned := by
  rw [spawnOrReport, Child.spawn_eq]
  change call ServiceCall.fork _ = call ServiceCall.fork _
  congr 1
  funext outcome
  cases outcome <;> rfl

theorem footprint_spawned (outcome : Except Failure Int) :
    (spawned outcome).Footprint (scope [.write] [.foreground]) := by
  refine Footprint.bind (Footprint.attempt (Footprint.bind (Footprint.orElse (Footprint.ofExcept _)
    fun e => widen (footprint_unmade e) rfl rfl rfl) fun pid => ?_)) fun made => ?_
  · exact Footprint.bind (widen (footprint_made pid) rfl rfl rfl) fun _ => Footprint.done _
  · rcases made with e | pid
    · dsimp only
      cases e.reportOf? .forkFailed with
      | none => exact Footprint.fail _
      | some r =>
          exact Footprint.bind (widen (footprint_print _) rfl rfl rfl) fun _ => Footprint.done _
    · exact Footprint.done _

/-- The user and the log are told that no child can be made. -/
theorem run_spawned_error {e : Failure} {r : ErrorReport} (hr : e.reportOf? .forkFailed = some r)
    (hwrite : answer (.write standardOutput "could not fork\n") w = ⟨.ok (), w, []⟩) :
    (spawned (.error e)).run answer s w = ⟨.returned none, s, w, unmadeEvents r⟩ := by
  have hunmade : Child.unmade e =
      (Child.say .debug (("fork failed: " : Text) ++ r.render) none []).bind fun _ => fail e := by
    simp only [Child.unmade, hr]
    rfl
  have hfirst : (ofExcept (.error e) : Action Int).orElse Child.unmade = Child.unmade e := rfl
  have hprint : (print "could not fork\n").run answer s w = ⟨.returned (), s, w,
      [.called (.write standardOutput "could not fork\n") (.ok ())]⟩ := by
    rw [print, ask, run_request, hwrite]
    rfl
  rw [spawned, hfirst, hunmade]
  simp only [Child.say, Action.log, run_bind, run_attempt, run_log, run_fail, Outcome.andThen,
    Ending.attempt, hr, hprint, run_done]
  rfl

/-- When no child can be made there is none. -/
theorem sequel_spawnOrReport :
    (unmade answer).Of answer (fun past _ k => past = [] ∧ k = done none) spawnOrReport s w := by
  rintro past _ next t v hpass rfl
  rw [spawnOrReport_eq] at hpass
  rcases hpass.attempt_request_cases with ⟨rfl, hstart⟩ | ⟨later, -, hpass⟩
  · cases hstart
    refine ⟨done none, ⟨rfl, rfl⟩, fun e r u hr hwrite => ?_⟩
    have htold := passes_run answer (spawned (.error e)) s u
    rw [run_spawned_error hr hwrite] at htold
    exact htold
  · have hfork := (hpass.within (footprint_spawned _ _)).1
    cases hfork

variable (shell : Shell)

/-- What is done with the child there is, if there is one. -/
def withChild (tokens : List Text) : Option Int → Action Bool
  | none => done false
  | some pid => do
    if pid = 0 then shell.becomeCommand tokens
    let _ ← Child.wait pid shell.waitTimeout
    return true

theorem footprint_withChild (tokens : List Text) (child : Option Int) :
    (shell.withChild tokens child).Footprint
      (scope [.waitpid, .getPid, .getPwd, .getPath, .fileExists, .exec, .write, .exit]
        [.foreground]) := by
  cases child with
  | none => exact Footprint.done _
  | some pid =>
      simp only [withChild, bind_eq_bind, pure_eq_done]
      have hwait := Footprint.bind (widen (footprint_wait pid shell.waitTimeout) rfl rfl rfl) fun _ =>
        Footprint.done (S := scope [.waitpid, .getPid, .getPwd, .getPath, .fileExists, .exec, .write,
          .exit] [.foreground]) true
      split
      · exact Footprint.bind (widen (shell.footprint_becomeCommand tokens) rfl rfl rfl) fun _ => hwait
      · exact hwait

/-- What is done behind a line for which no child can be made: a script is left. -/
def unmadeNext (interactive : Bool) : Next := if interactive then .goOn else .leaveSource

/-- What makes no child. -/
theorem no_fork {names : List ServiceCall.Name} {parts : List Session.Part} {stops : Bool}
    (hnames : names.contains .fork = false) (c : ServiceCall) (hc : (scope names parts stops).calls c) :
    ¬(unmade answer).calls c := by
  rintro rfl
  exact name_ne_of_mem hc hnames rfl

theorem sequel_runInChild (tokens : List Text) :
    (unmade answer).Of answer (fun past _ k => past = [] ∧ k = done false) (shell.runInChild tokens) s w := by
  have heq : shell.runInChild tokens = spawnOrReport.bind (shell.withChild tokens) := by
    rw [runInChild, bind_eq_bind]
    congr 1
  rw [heq]
  refine sequel_spawnOrReport.bind ?_ fun child t v before _ =>
    .of_footprint (shell.footprint_withChild tokens child) (no_fork rfl)
  rintro past c k ⟨rfl, rfl⟩
  exact ⟨rfl, rfl⟩

theorem sequel_follow (interactive : Bool) (tokens : List Text) (verdict : Builtin.Verdict) :
    (unmade answer).Of answer (fun past _ k => past = [] ∧ k = done (unmadeNext interactive))
      (shell.follow interactive tokens verdict) s w := by
  cases verdict with
  | exit => exact .done _
  | handled => exact .done _
  | notBuiltin =>
      refine (shell.sequel_runInChild tokens).bind ?_ fun made t v before _ => ?_
      · rintro past c k ⟨rfl, rfl⟩
        cases interactive <;> exact ⟨rfl, rfl⟩
      · cases made <;> exact .done _

/-- A line that names no command of the shell is handed to a child at once. -/
theorem sequel_runLine (interactive : Bool) (chunk : Bytes) :
    (unmade answer).Of answer (fun past _ k => past = [] ∧ k = done (unmadeNext interactive))
      (shell.runLine (Builtin.dispatch shell.home) interactive chunk) s w := by
  refine .behind (shell.footprint_tokenize chunk) (no_fork rfl) fun tokens t v before htokens => ?_
  obtain rfl : before = [] := by
    obtain ⟨ending, line, -, hrun, -⟩ := run_tokenize_cases answer request shell chunk s w
    rw [interpret_self] at hrun
    have hevents := congrArg Outcome.events (htokens.run_eq.symm.trans hrun)
    exact (List.append_nil before).symm.trans hevents
  refine .behind (footprint_dispatch shell.home tokens) (no_fork rfl)
    fun verdict t' v' before hverdict => ?_
  cases hcommand : Builtin.ofName? (tokens.headD []) with
  | none =>
      have hdispatch : Builtin.dispatch shell.home tokens = Program.done .notBuiltin := by
        simp only [Builtin.dispatch, hcommand]
        rfl
      rw [hdispatch] at hverdict
      obtain ⟨rfl, hend⟩ := hverdict.eq_of_end rfl
      cases hend
      exact shell.sequel_follow interactive tokens .notBuiltin
  | some b =>
      -- the shell runs its own commands itself
      have hran : Ensures answer (fun _ _ _ => True) (Builtin.dispatch shell.home tokens)
          (fun verdict _ _ _ => verdict = Builtin.verdictOf (some b)) (fun _ _ _ _ => True)
          fun _ _ _ => True := by
        rw [← interpret_self (Builtin.dispatch shell.home tokens), ← hcommand]
        exact Builtin.ensures_dispatch_verdict shell.home tokens
      have hrun := hran [] t v trivial
      rw [hverdict.run_eq] at hrun
      obtain rfl : verdict = Builtin.verdictOf (some b) := hrun
      cases b <;> exact .done _

/-- A read that fails comes to no line. -/
theorem not_line_of_error {interactive : Bool} {fd : Int} {e : Failure} {chunk : Bytes} :
    ((readingOf interactive fd (.error e)).run answer s w).ending ≠ .returned (.line chunk) := by
  cases e with
  | interrupt =>
      cases interactive with
      | false =>
          intro h
          cases h
      | true =>
          intro h
          have hprinted : (((print "\n").bind fun _ => done Reading.interrupted).run answer s w).ending =
            .returned (.line chunk) := h
          rw [run_bind, Outcome.andThen] at hprinted
          split at hprinted <;> cases hprinted
  | _ =>
      intro h
      cases h

/-- A line that was read was read just before. -/
theorem readLine_line (hinner : ∀ c w, (answer c w).inner = []) {interactive : Bool} {fd offset : Int}
    {chunk : Bytes} {before : List (Event ServiceCall.Reply)}
    (h : Passes answer ⟨readLine interactive fd offset, s, w⟩ before ⟨.done (.line chunk), t, v⟩) :
    before = [.called (.readLine fd offset s.line.size) (.ok chunk)] := by
  rw [readLine_eq] at h
  rcases h.start_cases with ⟨-, hstart⟩ | ⟨y, later, hy, rfl, hasked⟩
  · cases hstart
  cases hy
  rcases hasked.attempt_request_cases with ⟨-, hstart⟩ | ⟨after, rfl, hread⟩
  · cases hstart
  rw [hinner]
  cases houtcome : (answer (.readLine fd offset s.line.size) w).outcome with
  | error e =>
      rw [houtcome] at hread
      exact absurd (congrArg Outcome.ending hread.run_eq) not_line_of_error
  | ok line =>
      rw [houtcome] at hread
      cases line with
      | nil =>
          obtain ⟨-, hend⟩ := hread.eq_of_end rfl
          cases hend
      | cons byte rest =>
          obtain ⟨rfl, hend⟩ := hread.eq_of_end rfl
          cases hend
          rfl

/-- What was seen behind a line that was read last. -/
def ReadLast (fd : Int) (past : List (Event ServiceCall.Reply)) : Prop :=
  ∃ before offset capacity line, past = before ++ [.called (.readLine fd offset capacity) (.ok line)]

/-- What is left of a source behind a line for which no child can be made: nothing is left of a script, and
in standard input the next line is awaited. -/
def LeftOfSource (fd : Int) (interactive : Bool) (past : List (Event ServiceCall.Reply))
    (k : Action Bool) : Prop :=
  ∃ before offset capacity line rounds,
    past = before ++ [.called (.readLine fd offset capacity) (.ok line)] ∧
    k = if interactive then
      shell.runFrom (Builtin.dispatch shell.home) fd interactive rounds (offset + line.length)
    else done true

theorem LeftOfSource.prepend {shell : Shell} {fd : Int} {interactive : Bool}
    {past : List (Event ServiceCall.Reply)} {k : Action Bool} (h : shell.LeftOfSource fd interactive past k)
    (earlier : List (Event ServiceCall.Reply)) : shell.LeftOfSource fd interactive (earlier ++ past) k := by
  obtain ⟨before, offset, capacity, line, rounds, rfl, hk⟩ := h
  exact ⟨earlier ++ before, offset, capacity, line, rounds, (List.append_assoc _ _ _).symm, hk⟩

theorem sequel_runFrom (hinner : ∀ c w, (answer c w).inner = []) (fd : Int) (interactive : Bool)
    (rounds : Nat) (offset : Int) :
    (unmade answer).Of answer (fun past _ => shell.LeftOfSource fd interactive past)
      (shell.runFrom (Builtin.dispatch shell.home) fd interactive rounds offset) s w := by
  induction rounds generalizing offset s w with
  | zero => exact .outOfRounds
  | succ rounds ih =>
      refine .behind (shell.footprint_announce interactive) (no_fork rfl) fun _ t v before _ => ?_
      refine .behind (footprint_readLine interactive fd offset) (no_fork rfl)
        fun reading t' v' before' hread => ?_
      cases reading with
      | exhausted => exact .done _
      | interrupted => exact (ih offset).mono fun past c k hk => (hk.prepend _).prepend _
      | line chunk =>
          obtain rfl := readLine_line hinner hread
          refine (shell.sequel_runLine interactive chunk).bind ?_ fun next t v _ _ => ?_
          · rintro past c k ⟨rfl, rfl⟩
            refine ⟨before, offset, t.line.size, chunk, rounds, ?_, ?_⟩
            · rw [List.append_nil]
            · cases interactive <;> rfl
          · cases next with
            | leaveAll => exact .done _
            | leaveSource => exact .done _
            | goOn => exact (ih _).mono fun past c k hk => ((hk.prepend _).prepend _).prepend _

/-- When no child can be made for a line of a script the script is closed and the next one has its turn;
when none can be made for a line of standard input the next line is awaited. -/
theorem sequel_unmade (hinner : ∀ c w, (answer c w).inner = []) (rounds : Nat) (scripts : List Text) :
    (unmade answer).Of answer (fun past c k => ∃ rest, k = rest.orElse lastWords ∧
        ((∃ left, shell.LeftOfSource standardInput true past left ∧ rest = left.bind fun _ => done 0) ∨
          BehindScript (fun fd past _ => ReadLast fd past)
            (shell.work rounds (scripts.drop (openings past).length)) past c rest))
      (shell.run rounds scripts) s w := by
  refine sequel_run hinner shell (by rintro _ rfl; decide) (fun fd rounds s w => ?_)
    (fun fd before past c h => ?_) (fun rounds s w => shell.sequel_runFrom hinner _ _ rounds 0)
    (fun before past c k h => h.prepend before) rounds scripts
  · refine (shell.sequel_runFrom hinner fd false rounds 0).mono ?_
    rintro past c k ⟨before, offset, capacity, line, left, hpast, rfl⟩
    exact ⟨⟨before, offset, capacity, line, hpast⟩, rfl⟩
  · obtain ⟨earlier, offset, capacity, line, rfl⟩ := h
    exact ⟨before ++ earlier, offset, capacity, line, (List.append_assoc _ _ _).symm⟩

end Shell

end Parts

end LineShell
