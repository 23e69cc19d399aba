import LineShell.Proofs.Child.Acts
import LineShell.Proofs.Shell.Footprint

/-!
# The child of a shell

`Carries` says what each call to the services does to a run that is read for children, and
`Carries.run` is the result: a shell that makes a child becomes the command in it and leaves, and
never gets back to its lines.

The child takes one way through `becomeCommand`, which always fails, and the failure is not caught
before the end of the run: what stands in between only closes the script and starts a new line.
-/

namespace LineShell.Child

open Program LineShell.Action

variable {Call World : Type} {Reply : Call → Type}

/-- The services that say nothing about where a child is headed. -/
def quietServices : List ServiceCall.Name := [.write, .fileExists, .close, .getPwd, .getPath]

/-- Behind a fork: in the child, or still in the parent. -/
def Forked (R : Reading Reply) (sound : World → Prop) (pid : Int) : Assertion Session World Reply :=
  if pid = 0 then InChild R sound (· = []) else InParent R sound

theorem forked_zero {R : Reading Reply} {sound : World → Prop} :
    Forked R sound 0 = InChild R sound (· = []) := if_pos rfl

theorem forked_of_ne {R : Reading Reply} {sound : World → Prop} {pid : Int} (h : pid ≠ 0) :
    Forked R sound pid = InParent R sound := if_neg h

/-- The run is in the parent, or the child has left. -/
def Over (R : Reading Reply) (sound : World → Prop) (status : Value) :
    Assertion Session World Reply :=
  fun past s w => InParent R sound past s w ∨ InChild R sound (LeavesOnce status) past s w

/-- What a child does by the services: calls are carried out as they are named. -/
structure Carries (R : Reading Reply) (sound : World → Prop)
    (answer : (c : Call) → World → Answer World Reply c)
    (carryOut : (c : ServiceCall) → Program Session Reply c.Reply) : Prop where
  steady : ∀ c s w, ((carryOut c).run answer s w).state = s
  parent : ∀ c : ServiceCall, c.name ≠ .fork →
    Ensures answer (InParent R sound) (carryOut c) (fun _ => InParent R sound)
      (fun _ => InParent R sound) (InParent R sound)
  fork : Ensures answer (InParent R sound) (carryOut .fork) (Forked R sound)
    (fun _ => InParent R sound) (InParent R sound)
  quiet : ∀ (c : ServiceCall), quietServices.contains c.name → ∀ T,
    Ensures answer (InChild R sound T) (carryOut c) (fun _ => InChild R sound T)
      (fun _ => InChild R sound T) Never
  getPid : ∀ T, Ensures answer (InChild R sound T) (carryOut .getPid)
    (fun _ => InChild R sound (Then T (.identify true)))
    (fun _ => InChild R sound (Then T (.identify false))) Never
  exec : ∀ path argv, Ensures answer (InChild R sound (· = [.identify true]))
    (carryOut (.exec path argv)) (fun _ => InChild R sound Prepares)
    (fun _ => InChild R sound Prepares) Never
  exit : ∀ status T, Ensures answer (InChild R sound T) (carryOut (.exit status)) (fun _ => Never)
    (fun _ => InChild R sound (Then T (.leave status))) Never

variable {R : Reading Reply} {sound : World → Prop}
  {answer : (c : Call) → World → Answer World Reply c}
  {carryOut : (c : ServiceCall) → Program Session Reply c.Reply}

namespace Carries

variable (H : Carries R sound answer carryOut)

include H

/-- Without a fork the parent stays the parent. -/
theorem staysParent {α : Type} {p : Action α} {names : List ServiceCall.Name}
    {parts : List Session.Part} {stops : Bool} (hp : p.Footprint (Shell.scope names parts stops))
    (hfork : names.contains .fork = false) :
    Ensures answer (InParent R sound) (p.interpret carryOut) (fun _ => InParent R sound)
      (fun _ => InParent R sound) (InParent R sound) := by
  refine hp.ensures_interpret (fun c hc => H.parent c ?_) H.steady (fun _ _ _ _ _ h => h)
    (fun _ _ _ _ _ h => h.logged) fun _ _ _ _ h => h
  intro hname
  have hmem : names.contains c.name = true := hc
  rw [hname, hfork] at hmem
  exact Bool.noConfusion hmem

/-- With nothing but quiet services the child does not get further. -/
theorem staysChild {α : Type} {p : Action α} {names : List ServiceCall.Name}
    {parts : List Session.Part} (hp : p.Footprint (Shell.scope names parts))
    (hquiet : names.all quietServices.contains) (T : List Act → Prop) :
    Ensures answer (InChild R sound T) (p.interpret carryOut) (fun _ => InChild R sound T)
      (fun _ => InChild R sound T) Never := by
  refine hp.ensures_interpret (fun c hc => H.quiet c ?_ T) H.steady
    (fun _ _ _ _ _ h => h.mono fun _ h => h) (fun _ _ _ _ _ h => h.logged)
    fun hstops => nomatch hstops
  exact List.all_eq_true.mp hquiet _ (List.contains_iff_mem.mp hc)

/-! ## In the child -/

theorem replaceProgram (argv : List Text) (mode : SearchMode) :
    Ensures answer (InChild R sound (· = [])) ((replaceProgram argv mode).interpret carryOut)
      (fun _ => Never) (fun _ => InChild R sound Prepares) Never := by
  have hasked : ∀ answered acts, Then (· = []) (.identify answered) acts →
      acts = [.identify answered] := by
    rintro answered acts ⟨early, rfl, rfl⟩
    rfl
  have hknown : ∀ acts, acts = [.identify true] → Prepares acts := by
    rintro acts rfl
    exact .asked true
  refine Ensures.interpret_bind (m := fun _ => InChild R sound (· = [.identify true])) ?_
    fun pid => ?_
  · refine Ensures.interpret_request ((H.getPid (· = [])).mono (fun _ _ _ h => h) ?_ ?_
      fun _ _ _ h => h)
    · exact fun _ _ _ _ h => h.mono (hasked true)
    · exact fun _ _ _ _ h => h.mono fun acts hacts => hasked false acts hacts ▸ .asked false
  -- the id is known from here on, and becoming another program is still to be tried
  cases argv with
  | nil => exact Ensures.fail fun _ _ _ h => h.mono hknown
  | cons name rest =>
      refine Ensures.interpret_bind (m := fun _ => InChild R sound (· = [.identify true])) ?_
        fun path => ?_
      · refine (H.staysChild (footprint_resolveProgram name mode) rfl _).mono_fails ?_
        exact fun _ _ _ _ h => h.mono hknown
      refine Ensures.interpret_bind (m := fun _ => InChild R sound (· = [.identify true])) ?_
        fun _ => ?_
      · exact Ensures.log fun _ _ _ h => h.logged
      refine Ensures.interpret_bind (m := fun _ => InChild R sound Prepares) ?_ fun _ =>
        Ensures.fail fun _ _ _ h => h
      refine Ensures.interpret_orElse (Ensures.interpret_request (H.exec path _)) fun e => ?_
      cases e.reportOf? .execFailed with
      | none => exact Ensures.fail fun _ _ _ h => h
      | some r =>
          refine Ensures.interpret_bind (m := fun _ => InChild R sound Prepares) ?_ fun _ =>
            Ensures.fail fun _ _ _ h => h
          exact Ensures.log fun _ _ _ h => h.logged

theorem terminate (status : Value) :
    Ensures answer (InChild R sound Prepares) ((terminate status).interpret carryOut)
      (fun _ => Never) (fun _ => InChild R sound (LeavesOnce status)) Never := by
  refine Ensures.interpret_bind
    (m := fun _ => InChild R sound (Then Prepares (.identify true))) ?_ fun pid => ?_
  · refine Ensures.interpret_request ((H.getPid Prepares).mono_fails ?_)
    exact fun _ _ _ _ h => h.mono fun _ => LeavesOnce.unidentified
  refine Ensures.interpret_bind
    (m := fun _ => InChild R sound (Then Prepares (.identify true))) ?_ fun _ => ?_
  · exact Ensures.log fun _ _ _ h => h.logged
  · refine Ensures.interpret_request ((H.exit status _).mono_fails ?_)
    exact fun _ _ _ _ h => h.mono fun _ => LeavesOnce.leave

/-- The child does not get beyond becoming the command. -/
theorem becomeCommand (shell : Shell) (tokens : List Text) :
    Ensures answer (InChild R sound (· = [])) ((shell.becomeCommand tokens).interpret carryOut)
      (fun _ => Never) (fun _ => InChild R sound (LeavesOnce shell.execFailureStatus)) Never := by
  -- whichever way the attempt ends, the child terminates after it
  refine Ensures.interpret_andFinally (m := fun _ => InChild R sound Prepares)
    (n := fun _ => InChild R sound Prepares) ?_ (fun _ => H.terminate _)
    fun _ => Ensures.of_never (H.terminate _)
  refine Ensures.interpret_orElse (m := fun _ => InChild R sound Prepares)
    (Ensures.of_never (H.replaceProgram tokens .search)) fun e => ?_
  cases e.reportOf? .execFailed with
  | none => exact Ensures.fail fun _ _ _ h => h
  | some r => exact H.staysChild (Shell.footprint_print _) rfl Prepares

/-! ## In the parent -/

theorem spawn :
    Ensures answer (InParent R sound) (spawn.interpret carryOut) (Forked R sound)
      (fun _ => InParent R sound) (InParent R sound) := by
  refine Ensures.interpret_bind (m := Forked R sound) ?_ fun pid => ?_
  · refine Ensures.interpret_orElse (Ensures.interpret_request H.fork) fun e => ?_
    cases e.reportOf? .forkFailed with
    | none => exact Ensures.fail fun _ _ _ h => h
    | some r =>
        refine Ensures.interpret_bind (m := fun _ => InParent R sound) ?_ fun _ =>
          Ensures.fail fun _ _ _ h => h
        exact Ensures.log fun _ _ _ h => h.logged
  · by_cases hpos : 0 < pid
    · have hparent : Forked R sound pid = InParent R sound := forked_of_ne (by omega)
      simp only [if_pos hpos, hparent]
      refine Ensures.interpret_bind (m := fun _ => InParent R sound) ?_ fun _ => ?_
      · exact Ensures.update fun _ _ _ h => h
      refine Ensures.interpret_bind (m := fun _ => InParent R sound) ?_ fun _ =>
        Ensures.done fun _ _ _ h => hparent ▸ h
      exact Ensures.log fun _ _ _ h => h.logged
    · simp only [if_neg hpos]
      exact Ensures.done fun _ _ _ h => h

/-- Failing after a fork: the parent fails as before, and the child has left. -/
theorem runInChild (shell : Shell) (tokens : List Text) :
    Ensures answer (InParent R sound) ((shell.runInChild tokens).interpret carryOut)
      (fun _ => InParent R sound) (fun _ => Over R sound shell.execFailureStatus)
      (InParent R sound) := by
  refine Ensures.interpret_bind (m := fun child => child.elim (InParent R sound) (Forked R sound))
    ?_ fun child => ?_
  · refine Ensures.interpret_bind (Ensures.interpret_attempt H.spawn) fun outcome => ?_
    cases outcome with
    | ok pid => exact Ensures.done fun _ _ _ h => h
    | error e =>
        dsimp only
        cases e.reportOf? .forkFailed with
        | none => exact Ensures.fail fun _ _ _ h => .inl h
        | some r =>
            have hprint := H.staysParent (Shell.footprint_print "could not fork\n") rfl
            refine Ensures.interpret_bind (hprint.mono_fails fun _ _ _ _ h => .inl h) fun _ => ?_
            exact Ensures.done fun _ _ _ h => h
  cases child with
  | none => exact Ensures.done fun _ _ _ h => h
  | some pid =>
      have hwait : Ensures answer (InParent R sound)
          (((wait pid shell.waitTimeout).bind fun _ => done true).interpret carryOut)
          (fun _ => InParent R sound) (fun _ => Over R sound shell.execFailureStatus)
          (InParent R sound) := by
        have hfootprint := Footprint.bind (footprint_wait pid shell.waitTimeout) fun _ =>
          Footprint.done true
        exact (H.staysParent hfootprint rfl).mono_fails fun _ _ _ _ h => .inl h
      by_cases hpid : pid = 0
      · -- in the child nothing is left to wait for
        simp only [if_pos hpid]
        refine Ensures.interpret_bind (m := fun _ => Never) ?_ fun _ =>
          hwait.weaken fun _ _ _ h => h.elim
        subst hpid
        simp only [Option.elim_some, forked_zero]
        exact (Ensures.of_never (H.becomeCommand shell tokens)).mono_fails fun _ _ _ _ h => .inr h
      · simp only [if_neg hpid, Option.elim_some, forked_of_ne hpid]
        exact hwait

/-- A part of the shell that makes no child, as a step of one that may. -/
theorem step {α : Type} {p : Action α} {names : List ServiceCall.Name}
    {parts : List Session.Part} {stops : Bool} (hp : p.Footprint (Shell.scope names parts stops))
    (hfork : names.contains .fork = false) (status : Value) :
    Ensures answer (InParent R sound) (p.interpret carryOut) (fun _ => InParent R sound)
      (fun _ => Over R sound status) (InParent R sound) :=
  (H.staysParent hp hfork).mono_fails fun _ _ _ _ h => .inl h

/-- Quiet services do not bring a child back. -/
theorem staysOver {α : Type} {p : Action α} {names : List ServiceCall.Name}
    {parts : List Session.Part} (hp : p.Footprint (Shell.scope names parts))
    (hfork : names.contains .fork = false) (hquiet : names.all quietServices.contains)
    (status : Value) :
    Ensures answer (Over R sound status) (p.interpret carryOut) (fun _ => Over R sound status)
      (fun _ => Over R sound status) (InParent R sound) := by
  refine Ensures.or_pre ?_ ?_
  · exact (H.staysParent hp hfork).mono (fun _ _ _ h => h) (fun _ _ _ _ h => .inl h)
      (fun _ _ _ _ h => .inl h) fun _ _ _ h => h
  · exact (H.staysChild hp hquiet _).mono (fun _ _ _ h => h) (fun _ _ _ _ h => .inr h)
      (fun _ _ _ _ h => .inr h) fun _ _ _ h => h.elim

variable (shell : Shell)

theorem runLine (interactive : Bool) (chunk : Bytes) :
    Ensures answer (InParent R sound)
      ((shell.runLine (Builtin.dispatch shell.home) interactive chunk).interpret carryOut)
      (fun _ => InParent R sound) (fun _ => Over R sound shell.execFailureStatus)
      (InParent R sound) := by
  refine Ensures.interpret_bind (H.step (shell.footprint_tokenize chunk) rfl _) fun tokens => ?_
  refine Ensures.interpret_bind (H.step (footprint_dispatch shell.home tokens) rfl _)
    fun verdict => ?_
  cases verdict with
  | exit => exact Ensures.done fun _ _ _ h => h
  | handled => exact Ensures.done fun _ _ _ h => h
  | notBuiltin =>
      refine Ensures.interpret_bind (H.runInChild shell tokens) fun made => ?_
      cases made <;> exact Ensures.done fun _ _ _ h => h

theorem runFrom (fd : Int) (interactive : Bool) (rounds : Nat) (offset : Int) :
    Ensures answer (InParent R sound)
      ((shell.runFrom (Builtin.dispatch shell.home) fd interactive rounds offset).interpret
        carryOut)
      (fun _ => InParent R sound) (fun _ => Over R sound shell.execFailureStatus)
      (InParent R sound) := by
  induction rounds generalizing offset with
  | zero => exact Ensures.outOfRounds fun _ _ _ h => h
  | succ rounds ih =>
      refine Ensures.interpret_bind (H.step (shell.footprint_announce interactive) rfl _)
        fun _ => ?_
      refine Ensures.interpret_bind
        (H.step (Shell.footprint_readLine interactive fd offset) rfl _) fun reading => ?_
      cases reading with
      | exhausted => exact Ensures.done fun _ _ _ h => h
      | interrupted => exact ih offset
      | line chunk =>
          refine Ensures.interpret_bind (H.runLine shell interactive chunk) fun next => ?_
          cases next with
          | leaveAll => exact Ensures.done fun _ _ _ h => h
          | leaveSource => exact Ensures.done fun _ _ _ h => h
          | goOn => exact ih _

theorem runScript (rounds : Nat) (script : Text) :
    Ensures answer (InParent R sound) ((shell.runScript rounds script).interpret carryOut)
      (fun _ => InParent R sound) (fun _ => Over R sound shell.execFailureStatus)
      (InParent R sound) := by
  refine Ensures.state_bind fun s => Ensures.weaken ?_ fun _ _ _ h => h.2
  have hgetPath : (ask .getPath).Footprint (Shell.scope [.getPath] []) := footprint_ask rfl
  refine Ensures.interpret_bind (H.step hgetPath rfl _) fun searchPath => ?_
  refine Ensures.interpret_bind (H.step (footprint_resolve script s.cwd searchPath) rfl _)
    fun path => ?_
  refine Ensures.interpret_bind (H.step (Shell.footprint_openScript path) rfl _) fun opened => ?_
  cases opened with
  | none => exact Ensures.done fun _ _ _ h => h
  | some fd =>
      refine Ensures.interpret_bind (m := fun _ => InParent R sound) ?_ fun _ => ?_
      · exact Ensures.log fun _ _ _ h => h.logged
      have hclose : (ask (.close fd)).Footprint (Shell.scope [.close] []) := footprint_ask rfl
      exact Ensures.interpret_andFinally (H.runFrom shell fd false rounds 0)
        (fun _ => H.step hclose rfl _) fun _ => H.staysOver hclose rfl rfl _

theorem runScripts (rounds : Nat) (scripts : List Text) :
    Ensures answer (InParent R sound) ((shell.runScripts rounds scripts).interpret carryOut)
      (fun _ => InParent R sound) (fun _ => Over R sound shell.execFailureStatus)
      (InParent R sound) := by
  induction scripts with
  | nil => exact Ensures.done fun _ _ _ h => h
  | cons script rest ih =>
      refine Ensures.interpret_bind (H.runScript shell rounds script) fun goOn => ?_
      cases goOn with
      | true => exact ih
      | false => exact Ensures.done fun _ _ _ h => h

/-- However a run ends, either nobody but the parent was there, or a child was born and left. -/
theorem run (rounds : Nat) (scripts : List Text) :
    Ensures answer (InParent R sound) ((shell.run rounds scripts).interpret carryOut)
      (fun _ => Over R sound shell.execFailureStatus)
      (fun _ => Over R sound shell.execFailureStatus) (InParent R sound) := by
  refine Ensures.interpret_bind (H.step Shell.footprint_publishCwd rfl _) fun _ => ?_
  refine Ensures.interpret_orElse (m := fun _ => Over R sound shell.execFailureStatus) ?_
    fun e => ?_
  · refine Ensures.interpret_bind (H.runScripts shell rounds scripts) fun goOn => ?_
    cases goOn with
    | false => exact Ensures.done fun _ _ _ h => .inl h
    | true =>
        refine Ensures.interpret_bind (H.runFrom shell standardInput true rounds 0) fun _ => ?_
        exact Ensures.done fun _ _ _ h => .inl h
  · -- only an interrupt is caught here, and then nothing is done but to say so
    cases e with
    | interrupt =>
        have hnewline := Footprint.bind (footprint_say .info "Interrupted" []) fun _ =>
          (Shell.footprint_print "\n").bind fun _ => Footprint.done Shell.interruptedStatus
        exact H.staysOver hnewline rfl rfl _
    | _ => exact Ensures.fail fun _ _ _ h => h

end Carries

end LineShell.Child
