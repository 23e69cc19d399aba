import LineShell.Proofs.Program.Passage
import LineShell.Proofs.Shell.Footprint

/-!
# Publishing the working directory

Whatever carries out its calls, a shell changes its working directory in two ways only: at its start it
hands over the one it has, and `cd` hands over another one and takes it over when that went well.

A condition on the run `Publishes` when the calls other than handing over a directory keep it, and when
handing over a directory keeps it for the shell that has taken the directory over, or changes nothing.
Such a condition holds at all points of a run (`Publishes.run`) but those inside the hand-over and
those between the hand-over and the assignment behind it.
-/

namespace LineShell

open Program LineShell.Action

variable {σ Call World : Type} {Reply : Call → Type} {α β : Type}

/-- The next thing to be done, before anything is called, is to put another state in place of this
one. -/
inductive Point.Assigns (f : σ → σ) : Point σ World Reply α → Prop
  | read {next : σ → Program σ Reply α} {rest : Program σ Reply α} {s : σ} {w : World}
      (h : next s = .write (f s) rest) : Assigns f ⟨.read next, s, w⟩
  | write {rest : Program σ Reply α} {s : σ} {w : World} : Assigns f ⟨.write (f s) rest, s, w⟩

namespace Point.Assigns

variable {f : σ → σ} {x : Point σ World Reply α}

theorem bind (h : Assigns f x) (g : α → Program σ Reply β) : Assigns f (x.bind g) := by
  cases h with
  | read h => exact .read (by rw [h]; rfl)
  | write => exact .write

theorem attempt (h : Assigns f x) : Assigns f x.attempt := by
  cases h with
  | read h => exact .read (by rw [h]; rfl)
  | write => exact .write

/-- No call is made before the assignment. -/
theorem rest_ne_call (h : Assigns f x) (c : Call) (next : Except Failure (Reply c) → Program σ Reply α) :
    x.rest ≠ .call c next := by
  cases h with
  | read h => exact nofun
  | write => exact nofun

end Point.Assigns

/-- The session with another working directory. -/
def Session.moved (path : Text) (s : Session) : Session := { s with cwd := path }

/-- A directory is being handed over, or the next thing to be done is to take it over, after which the
condition holds. -/
def Exception.handingOver (inside : Exception Session World Reply)
    (I : Assertion Session World Reply) : Exception Session World Reply where
  holds past x := inside.holds past x ∨
    ∃ path, x.Assigns (Session.moved path) ∧ I past (x.state.moved path) x.world
  bind f h := h.imp (inside.bind f) fun ⟨path, hassigns, hI⟩ => ⟨path, hassigns.bind f, hI⟩
  attempt h := h.imp inside.attempt fun ⟨path, hassigns, hI⟩ => ⟨path, hassigns.attempt, hI⟩
  unfinished h := h.elim inside.unfinished fun ⟨_, hassigns, _⟩ => nomatch hassigns

/-- How the calls of a shell have to be carried out to keep a condition. -/
structure Publishes (answer : (c : Call) → World → Answer World Reply c)
    (carryOut : (c : ServiceCall) → Program Session Reply c.Reply)
    (inside : Exception Session World Reply) (I : Assertion Session World Reply) : Prop where
  other : ∀ c, c.name ≠ .setPwd → Maintains answer (.handingOver inside I) I (carryOut c)
  /-- Carrying out a call leaves the session alone. -/
  steady : ∀ c past s w x, Passes answer ⟨carryOut c, s, w⟩ past x → x.state = s
  changed : ∀ past s t w, t.cwd = s.cwd → I past s w → I past t w
  logged : ∀ past s w entry, I past s w → I (past ++ [.logged entry]) s w
  /-- Handing over a directory returns once it is handed over, and is not heard of otherwise. -/
  sets : ∀ path past s w, I past s w →
    ∀ later x, Passes answer ⟨carryOut (.setPwd path), s, w⟩ later x →
      inside.holds (past ++ later) x ∨
        (x.rest = .done () ∧ I (past ++ later) (s.moved path) x.world) ∨
        ((∀ a, x.rest ≠ .done a) ∧ I (past ++ later) s x.world)

namespace Publishes

variable {answer : (c : Call) → World → Answer World Reply c}
  {carryOut : (c : ServiceCall) → Program Session Reply c.Reply}
  {inside : Exception Session World Reply} {I : Assertion Session World Reply}
  {p : Action α}

/-- What hands over no directory and takes none over keeps the condition. -/
theorem of_footprint (h : Publishes answer carryOut inside I) {names : List ServiceCall.Name}
    {parts : List Session.Part} {stops : Bool} (hp : p.Footprint (Shell.scope names parts stops))
    (hnames : names.contains .setPwd = false) (hparts : parts.contains .cwd = false) :
    Maintains answer (.handingOver inside I) I (p.interpret carryOut) := by
  refine Maintains.interpret_of_footprint hp (fun c hc => ?_) h.steady (fun past s t w hst hI => ?_)
    fun entry _ past s w hI => h.logged past s w entry hI
  · exact h.other c (Shell.name_ne_of_mem hc hnames)
  · exact h.changed past s t w (hst.1 .cwd hparts) hI

/-! ## The two ways to hand over a directory -/

/-- A directory that is handed over is taken over next. -/
theorem takeOver (h : Publishes answer carryOut inside I) {path : Text} {rest : Action α}
    (hrest : Maintains answer (.handingOver inside I) I (rest.interpret carryOut)) :
    Maintains answer (.handingOver inside I) I
      (((ask (.setPwd path)).bind fun _ => (update fun s => { s with cwd := path }).bind fun _ =>
        rest).interpret carryOut) := by
  rw [Program.interpret_bind, ask, interpret_request]
  intro past s w hI later z hz
  rcases hz.bind_cases with ⟨x, hx, rfl⟩ | ⟨a, t, v, before, after, rfl, hdone, hpass⟩
  · have hstate := h.steady _ _ _ _ _ hx
    rcases h.sets path past s w hI later x hx with hin | ⟨hdone, hmoved⟩ | ⟨-, hkept⟩
    · exact .inr (.inl (inside.bind _ hin))
    · -- the directory was handed over, and the session is about to be read
      obtain ⟨rest, t, v⟩ := x
      subst hdone
      subst hstate
      exact .inr (.inr ⟨path, .read rfl, hmoved⟩)
    · left
      rw [← hstate] at hkept
      exact hkept
  · have hstate := h.steady _ _ _ _ _ hdone
    subst hstate
    rcases h.sets path past t w hI before _ hdone with hin | ⟨-, hmoved⟩ | ⟨hnot, -⟩
    · exact absurd hin inside.unfinished
    · -- two steps lie between the hand-over and the rest: the session is read, and it is written
      have hgo : Along answer (.handingOver inside I) I (past ++ before)
          (((update fun s => { s with cwd := path }).bind fun _ => rest).interpret carryOut) t v := by
        refine Along.of_silent (x := ⟨_, t, v⟩) (.inr (.inr ⟨path, .read rfl, hmoved⟩)) rfl rfl ?_
        refine Along.of_silent (x := ⟨_, t, v⟩) (.inr (.inr ⟨path, .write, hmoved⟩)) rfl rfl ?_
        exact hrest _ _ _ hmoved
      rw [← List.append_assoc]
      exact hgo after z hpass
    · exact absurd rfl (hnot a)

/-- The shell hands over the directory that it has. -/
theorem publish (h : Publishes answer carryOut inside I) {past : List (Event Reply)} {s : Session}
    {w : World} (hI : I past s w) :
    Along answer (.handingOver inside I) I past ((ask (.setPwd s.cwd)).interpret carryOut) s w := by
  rw [ask, interpret_request]
  intro later x hx
  have hstate := h.steady _ _ _ _ _ hx
  rcases h.sets s.cwd past s w hI later x hx with hin | ⟨-, hmoved⟩ | ⟨-, hkept⟩
  · exact .inr (.inl hin)
  · left
    rw [hstate]
    exact hmoved
  · left
    rw [hstate]
    exact hkept

/-! ## Parts of the shell -/

theorem changeDirectory (h : Publishes answer carryOut inside I) (home : Value)
    (arguments : List Text) :
    Maintains answer (.handingOver inside I) I
      ((Builtin.changeDirectory home arguments).interpret carryOut) := by
  refine Maintains.interpret_state_bind fun s => ?_
  have hask := @footprint_ask [.isDir] [] false (.isDir (Builtin.target home s.cwd arguments)) rfl
  refine Maintains.interpret_bind (h.of_footprint hask rfl rfl) fun isDirectory => ?_
  cases isDirectory with
  | false => exact Maintains.fail _
  | true =>
      cases Builtin.target home s.cwd arguments with
      | text path =>
          refine h.takeOver ?_
          have hlog : (Action.log .debug "shell"
              (("Working directory is now " : Text) ++ path)).Footprint (Shell.scope [] []) :=
            footprint_log (by decide)
          exact Maintains.interpret_bind (h.of_footprint hlog rfl rfl) fun _ => Maintains.done _
      | _ => exact Maintains.fail _

theorem dispatch (h : Publishes answer carryOut inside I) (home : Value) (tokens : List Text) :
    Maintains answer (.handingOver inside I) I ((Builtin.dispatch home tokens).interpret carryOut) := by
  simp only [Builtin.dispatch]
  cases Builtin.ofName? (tokens.headD []) with
  | none => exact Maintains.done _
  | some command =>
      refine Maintains.interpret_orElse ?_ fun e => ?_
      · cases command with
        | cd => exact h.changeDirectory home tokens.tail
        | exit => exact Maintains.done _
      · cases e.fileReport? with
        | none => exact Maintains.fail _
        | some report =>
            have hlog : ∀ message, (Action.log .debug "shell" message).Footprint
                (Shell.scope [] []) := fun _ => footprint_log (by decide)
            refine Maintains.interpret_bind (h.of_footprint (hlog _) rfl rfl) fun _ => ?_
            refine Maintains.interpret_bind (h.of_footprint (Shell.footprint_print _) rfl rfl)
              fun _ => ?_
            exact Maintains.done _

theorem publishCwd (h : Publishes answer carryOut inside I) :
    Maintains answer (.handingOver inside I) I (Shell.publishCwd.interpret carryOut) := by
  unfold Shell.publishCwd
  rw [bind_eq_bind, Program.interpret_bind, interpret_state]
  refine Maintains.state_bind fun past s w hI => ?_
  rw [Program.interpret_orElse]
  refine (h.publish hI).attempt.bind_maintains fun outcome => ?_
  cases outcome with
  | ok _ => exact Maintains.done _
  | error e =>
      dsimp only
      cases e.reportOf? .notADirectory with
      | none => exact Maintains.fail _
      | some report => exact h.of_footprint (@footprint_say [] [] false _ _ _) rfl rfl

variable (shell : Shell)

theorem runLine (h : Publishes answer carryOut inside I) (interactive : Bool) (chunk : Bytes) :
    Maintains answer (.handingOver inside I) I
      ((shell.runLine (Builtin.dispatch shell.home) interactive chunk).interpret carryOut) := by
  refine Maintains.interpret_bind (h.of_footprint (shell.footprint_tokenize chunk) rfl rfl)
    fun tokens => ?_
  refine Maintains.interpret_bind (h.dispatch shell.home tokens) fun verdict => ?_
  exact h.of_footprint (shell.footprint_follow interactive tokens verdict) rfl rfl

theorem runFrom (h : Publishes answer carryOut inside I) (fd : Int) (interactive : Bool)
    (rounds : Nat) (offset : Int) :
    Maintains answer (.handingOver inside I) I
      ((shell.runFrom (Builtin.dispatch shell.home) fd interactive rounds offset).interpret
        carryOut) := by
  induction rounds generalizing offset with
  | zero => exact Maintains.outOfRounds
  | succ rounds ih =>
      refine Maintains.interpret_bind (h.of_footprint (shell.footprint_announce interactive) rfl rfl)
        fun _ => ?_
      refine Maintains.interpret_bind
        (h.of_footprint (Shell.footprint_readLine interactive fd offset) rfl rfl) fun reading => ?_
      cases reading with
      | exhausted => exact Maintains.done _
      | interrupted => exact ih offset
      | line chunk =>
          refine Maintains.interpret_bind (h.runLine shell interactive chunk) fun next => ?_
          cases next with
          | leaveAll => exact Maintains.done _
          | leaveSource => exact Maintains.done _
          | goOn => exact ih _

theorem runScript (h : Publishes answer carryOut inside I) (rounds : Nat) (script : Text) :
    Maintains answer (.handingOver inside I) I ((shell.runScript rounds script).interpret carryOut) := by
  refine Maintains.interpret_state_bind fun s => ?_
  refine Maintains.interpret_bind
    (h.of_footprint (@footprint_ask [.getPath] [] false .getPath rfl) rfl rfl) fun searchPath => ?_
  refine Maintains.interpret_bind (h.of_footprint (footprint_resolve script s.cwd searchPath) rfl rfl)
    fun path => ?_
  refine Maintains.interpret_bind (h.of_footprint (Shell.footprint_openScript path) rfl rfl)
    fun opened => ?_
  cases opened with
  | none => exact Maintains.done _
  | some fd =>
      refine Maintains.interpret_bind (h.of_footprint (@footprint_say [] [] false _ _ _) rfl rfl)
        fun _ => ?_
      refine Maintains.interpret_andFinally (h.runFrom shell fd false rounds 0) ?_
      exact h.of_footprint (@footprint_ask [.close] [] false (.close fd) rfl) rfl rfl

theorem runScripts (h : Publishes answer carryOut inside I) (rounds : Nat) (scripts : List Text) :
    Maintains answer (.handingOver inside I) I
      ((shell.runScripts rounds scripts).interpret carryOut) := by
  induction scripts with
  | nil => exact Maintains.done _
  | cons script rest ih =>
      refine Maintains.interpret_bind (h.runScript shell rounds script) fun goOn => ?_
      cases goOn with
      | true => exact ih
      | false => exact Maintains.done _

/-- Along a run the condition holds at all points but those at which a directory is handed over. -/
theorem run (h : Publishes answer carryOut inside I) (rounds : Nat) (scripts : List Text) :
    Maintains answer (.handingOver inside I) I ((shell.run rounds scripts).interpret carryOut) := by
  refine Maintains.interpret_bind h.publishCwd fun _ => Maintains.interpret_orElse ?_ fun e => ?_
  · refine Maintains.interpret_bind (h.runScripts shell rounds scripts) fun goOn => ?_
    cases goOn with
    | false => exact Maintains.done _
    | true =>
        refine Maintains.interpret_bind (h.runFrom shell standardInput true rounds 0) fun _ => ?_
        exact Maintains.done _
  · cases e with
    | interrupt =>
        have hsay : (Shell.say .info "Interrupted").Footprint (Shell.scope [] []) :=
          footprint_say _ _ _
        refine Maintains.interpret_bind (h.of_footprint hsay rfl rfl) fun _ => ?_
        refine Maintains.interpret_bind (h.of_footprint (Shell.footprint_print "\n") rfl rfl) fun _ => ?_
        exact Maintains.done _
    | _ => exact Maintains.fail _

end Publishes

end LineShell
