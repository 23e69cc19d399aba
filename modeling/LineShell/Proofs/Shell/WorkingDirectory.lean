import LineShell.Proofs.Program.Reach
import LineShell.Proofs.Services.InMemory
import LineShell.Proofs.Shell.Footprint

/-!
# The working directory

The shell keeps its working directory twice: it has one of its own, and it hands one to the services,
from which children inherit it.  The two are the same at every point of every run (`InStep`), except
between the call that hands over a directory and the assignment that follows it (`TakesOver`).

Both ways to set it are checked by hand (`synced_takeOver`, `synced_setPwd`); everything else leaves it
alone, as the footprints say.

The main result is `keepsInStep_run`, with one such lemma for each part of the shell.
-/

namespace LineShell

open Program LineShell.Action

variable {α β : Type}

/-- A point of a run of the shell. -/
abbrev ShellPoint (α : Type) := Point Session InMemory ServiceCall.Reply α

namespace Point

/-- The working directory of the shell is that of the services. -/
def InStep (x : ShellPoint α) : Prop := x.state.cwd = x.world.pwd

/-- The next thing to be done is to take over the working directory of the services. -/
inductive TakesOver : ShellPoint α → Prop
  | read {next : Session → Action α} {rest : Action α} {s : Session} {w : InMemory}
      (h : next s = .write { s with cwd := w.pwd } rest) : TakesOver ⟨.read next, s, w⟩
  | write {rest : Action α} {s : Session} {w : InMemory} :
      TakesOver ⟨.write { s with cwd := w.pwd } rest, s, w⟩

theorem TakesOver.bind {x : ShellPoint α} (h : TakesOver x) (f : α → Action β) :
    TakesOver (x.bind f) := by
  cases h with
  | read h => exact .read (by rw [h]; rfl)
  | write => exact .write

theorem TakesOver.attempt {x : ShellPoint α} (h : TakesOver x) : TakesOver x.attempt := by
  cases h with
  | read h => exact .read (by rw [h]; rfl)
  | write => exact .write

/-- A step that neither sets the working directory of the services nor changes that of the shell. -/
theorem InStep.next {names : List ServiceCall.Name} {parts : List Session.Part} {stops : Bool}
    {x y : ShellPoint α} (hnames : names.contains .setPwd = false)
    (hparts : parts.contains .cwd = false)
    (hwithin : x.rest.Within (Shell.scope names parts stops) x.state)
    (hnext : x.next? InMemory.answer = some y) (h : x.InStep) : y.InStep := by
  obtain ⟨rest, s, w⟩ := x
  cases rest with
  | done a => cases hnext
  | fail e => cases hnext
  | outOfRounds => cases hnext
  | read next => cases hnext; exact h
  | write t next =>
      cases hnext
      have hcwd : t.cwd = s.cwd := hwithin.1.1 .cwd hparts
      exact hcwd.trans h
  | call c next =>
      cases hnext
      have hpwd := InMemory.answer_pwd (Shell.name_ne_of_mem hwithin.1 hnames) w
      exact Eq.trans h hpwd.symm
  | note entry next => cases hnext; exact h

end Point

/-- At each point of a run the two working directories are the same, unless one is just taken over. -/
def Synced (p : Action α) (s : Session) (w : InMemory) : Prop :=
  ∀ x, Reaches InMemory.answer ⟨p, s, w⟩ x → x.InStep ∨ x.TakesOver

/-- A run keeps the two working directories the same if they are so at its start. -/
def KeepsInStep (p : Action α) : Prop := ∀ s w, s.cwd = w.pwd → Synced p s w

/-! ## Composed runs -/

section Composed

variable {p : Action α} {s : Session} {w : InMemory}

theorem Synced.returned {a : α} {t : Session} {v : InMemory} (h : Synced p s w)
    (hreach : Reaches InMemory.answer ⟨p, s, w⟩ ⟨.done a, t, v⟩) : t.cwd = v.pwd := by
  rcases h _ hreach with hstep | htake
  · exact hstep
  · cases htake

theorem Synced.bind {f : α → Action β} (hp : Synced p s w) (hf : ∀ a, KeepsInStep (f a)) :
    Synced (p.bind f) s w := by
  intro z hz
  rcases hz.bind_cases with ⟨x, hx, rfl⟩ | ⟨a, t, v, hdone, hreach⟩
  · exact (hp x hx).imp (fun h => h) fun h => h.bind f
  · exact hf a t v (hp.returned hdone) z hreach

theorem Synced.attempt (hp : Synced p s w) : Synced p.attempt s w := by
  intro z hz
  obtain ⟨x, hx, rfl⟩ := hz.attempt_cases
  exact (hp x hx).imp (fun h => h) fun h => h.attempt

theorem keepsInStep_done (a : α) : KeepsInStep (.done a) := by
  intro s w h x hx
  rcases hx.start_cases with rfl | ⟨y, hy, -⟩
  · exact .inl h
  · cases hy

theorem keepsInStep_fail (e : Failure) : KeepsInStep (.fail e : Action α) := by
  intro s w h x hx
  rcases hx.start_cases with rfl | ⟨y, hy, -⟩
  · exact .inl h
  · cases hy

theorem keepsInStep_ofExcept (outcome : Except Failure α) :
    KeepsInStep (.ofExcept outcome : Action α) := by
  cases outcome with
  | ok a => exact keepsInStep_done a
  | error e => exact keepsInStep_fail e

theorem Synced.orElse {handler : Failure → Action α} (hp : Synced p s w)
    (hhandler : ∀ e, KeepsInStep (handler e)) : Synced (p.orElse handler) s w := by
  refine hp.attempt.bind fun outcome => ?_
  cases outcome with
  | ok a => exact keepsInStep_done a
  | error e => exact hhandler e

namespace KeepsInStep

theorem bind {f : α → Action β} (hp : KeepsInStep p) (hf : ∀ a, KeepsInStep (f a)) :
    KeepsInStep (p.bind f) := fun s w h => (hp s w h).bind hf

theorem orElse {handler : Failure → Action α} (hp : KeepsInStep p)
    (hhandler : ∀ e, KeepsInStep (handler e)) : KeepsInStep (p.orElse handler) :=
  fun s w h => (hp s w h).orElse hhandler

theorem andFinally {last : Action Unit} (hp : KeepsInStep p) (hlast : KeepsInStep last) :
    KeepsInStep (p.andFinally last) := fun s w h =>
  (hp s w h).attempt.bind fun outcome => hlast.bind fun _ => keepsInStep_ofExcept outcome

theorem state_bind {f : Session → Action α}
    (hf : ∀ s w, s.cwd = w.pwd → Synced (f s) s w) : KeepsInStep (state.bind f) := by
  intro s w h x hx
  rcases hx.start_cases with rfl | ⟨y, hy, hreach⟩
  · exact .inl h
  · cases hy
    exact hf s w h x hreach

/-- What neither sets the working directory of the services nor changes that of the shell keeps them. -/
theorem of_footprint {names : List ServiceCall.Name} {parts : List Session.Part} {stops : Bool}
    (hp : p.Footprint (Shell.scope names parts stops)) (hnames : names.contains .setPwd = false)
    (hparts : parts.contains .cwd = false) : KeepsInStep p := by
  intro s w h x hx
  left
  -- along the run: what is left of the program stays in the footprint, so each step is in it
  induction hx with
  | start => exact h
  | next hreach hnext ih => exact ih.next hnames hparts (hreach.within (hp s)) hnext

end KeepsInStep

end Composed

/-! ## The two ways to set it -/

/-- A directory that is handed over is taken over next. -/
theorem synced_takeOver {path : Text} {rest : Action α} (hrest : KeepsInStep rest) :
    KeepsInStep ((ask (.setPwd path)).bind fun _ =>
      (update fun s => { s with cwd := path }).bind fun _ => rest) := by
  intro s w h x hx
  rcases hx.start_cases with rfl | ⟨y, hy, hreach⟩
  · exact .inl h
  cases hy
  have hanswer := InMemory.answer_setPwd path w
  dsimp only at hreach
  generalize InMemory.answer (.setPwd path) w = a at hreach hanswer
  obtain ⟨outcome, v, inner⟩ := a
  dsimp only at hreach hanswer
  rcases hanswer with ⟨rfl, rfl⟩ | ⟨e, rfl, hpwd⟩
  · -- two points lie between the call and the rest: before the session is read and before it is written
    rcases hreach.start_cases with rfl | ⟨y, hy, hreach⟩
    · exact .inr (.read rfl)
    cases hy
    rcases hreach.start_cases with rfl | ⟨y, hy, hreach⟩
    · exact .inr .write
    cases hy
    exact hrest _ _ rfl x hreach
  · exact keepsInStep_fail e s v (h.trans hpwd.symm) x hreach

/-- The shell hands over the directory it has. -/
theorem synced_setPwd {s : Session} {w : InMemory} (h : s.cwd = w.pwd) :
    Synced (ask (.setPwd s.cwd)) s w := by
  intro x hx
  rcases hx.start_cases with rfl | ⟨y, hy, hreach⟩
  · exact .inl h
  cases hy
  refine keepsInStep_ofExcept _ s _ ?_ x hreach
  rcases InMemory.answer_setPwd s.cwd w with ⟨-, hpwd⟩ | ⟨e, -, hpwd⟩
  · exact hpwd.symm
  · exact h.trans hpwd.symm

/-! ## Parts of the shell -/

theorem keepsInStep_changeDirectory (home : Value) (arguments : List Text) :
    KeepsInStep (Builtin.changeDirectory home arguments) := by
  refine KeepsInStep.state_bind fun s w h => ?_
  have hask := @footprint_ask [.isDir] [] false (.isDir (Builtin.target home s.cwd arguments)) rfl
  refine (KeepsInStep.of_footprint hask rfl rfl s w h).bind fun isDirectory => ?_
  cases isDirectory with
  | false => exact keepsInStep_fail _
  | true =>
      cases Builtin.target home s.cwd arguments with
      | text path =>
          refine synced_takeOver ?_
          have hlog : (Action.log .debug "shell"
              (("Working directory is now " : Text) ++ path)).Footprint (Shell.scope [] []) :=
            footprint_log (by decide)
          exact (KeepsInStep.of_footprint hlog rfl rfl).bind fun _ => keepsInStep_done _
      | _ => exact keepsInStep_fail _

theorem keepsInStep_dispatch (home : Value) (tokens : List Text) :
    KeepsInStep (Builtin.dispatch home tokens) := by
  simp only [Builtin.dispatch]
  cases Builtin.ofName? (tokens.headD []) with
  | none => exact keepsInStep_done _
  | some command =>
      refine KeepsInStep.orElse ?_ fun e => ?_
      · cases command with
        | cd => exact keepsInStep_changeDirectory home tokens.tail
        | exit => exact keepsInStep_done _
      · cases e.fileReport? with
        | none => exact keepsInStep_fail _
        | some report =>
            have hlog : ∀ message, (Action.log .debug "shell" message).Footprint
                (Shell.scope [] []) := fun _ => footprint_log (by decide)
            refine (KeepsInStep.of_footprint (hlog _) rfl rfl).bind fun _ => ?_
            exact (KeepsInStep.of_footprint (Shell.footprint_print _) rfl rfl).bind fun _ =>
              keepsInStep_done _

namespace Shell

theorem keepsInStep_publishCwd : KeepsInStep publishCwd := by
  refine KeepsInStep.state_bind fun s w h => (synced_setPwd h).orElse fun e => ?_
  cases e.reportOf? .notADirectory with
  | none => exact keepsInStep_fail e
  | some report => exact KeepsInStep.of_footprint (@footprint_say [] [] false _ _ _) rfl rfl

variable (shell : Shell)

theorem keepsInStep_runLine (interactive : Bool) (chunk : Bytes) :
    KeepsInStep (shell.runLine (Builtin.dispatch shell.home) interactive chunk) := by
  refine (KeepsInStep.of_footprint (shell.footprint_tokenize chunk) rfl rfl).bind fun tokens => ?_
  refine (keepsInStep_dispatch shell.home tokens).bind fun verdict => ?_
  exact KeepsInStep.of_footprint (shell.footprint_follow interactive tokens verdict) rfl rfl

theorem keepsInStep_runFrom (fd : Int) (interactive : Bool) (rounds : Nat) (offset : Int) :
    KeepsInStep (shell.runFrom (Builtin.dispatch shell.home) fd interactive rounds offset) := by
  induction rounds generalizing offset with
  | zero =>
      have hnothing : (outOfRounds : Action Bool).Footprint (scope [] [] true) :=
        Footprint.outOfRounds rfl
      exact KeepsInStep.of_footprint hnothing rfl rfl
  | succ rounds ih =>
      refine (KeepsInStep.of_footprint (shell.footprint_announce interactive) rfl rfl).bind fun _ => ?_
      refine (KeepsInStep.of_footprint (footprint_readLine interactive fd offset) rfl rfl).bind
        fun reading => ?_
      cases reading with
      | exhausted => exact keepsInStep_done _
      | interrupted => exact ih offset
      | line chunk =>
          refine (shell.keepsInStep_runLine interactive chunk).bind fun next => ?_
          cases next with
          | leaveAll => exact keepsInStep_done _
          | leaveSource => exact keepsInStep_done _
          | goOn => exact ih _

theorem keepsInStep_runScript (rounds : Nat) (script : Text) :
    KeepsInStep (shell.runScript rounds script) := by
  have hpath := KeepsInStep.of_footprint (@footprint_ask [.getPath] [] false .getPath rfl) rfl rfl
  refine KeepsInStep.state_bind fun s w h => (hpath s w h).bind fun searchPath => ?_
  refine (KeepsInStep.of_footprint (footprint_resolve script s.cwd searchPath) rfl rfl).bind
    fun path => ?_
  refine (KeepsInStep.of_footprint (footprint_openScript path) rfl rfl).bind fun opened => ?_
  cases opened with
  | none => exact keepsInStep_done _
  | some fd =>
      refine (KeepsInStep.of_footprint (@footprint_say [] [] false _ _ _) rfl rfl).bind fun _ => ?_
      refine (shell.keepsInStep_runFrom fd false rounds 0).andFinally ?_
      exact KeepsInStep.of_footprint (@footprint_ask [.close] [] false (.close fd) rfl) rfl rfl

theorem keepsInStep_runScripts (rounds : Nat) (scripts : List Text) :
    KeepsInStep (shell.runScripts rounds scripts) := by
  induction scripts with
  | nil => exact keepsInStep_done _
  | cons script rest ih =>
      refine (shell.keepsInStep_runScript rounds script).bind fun goOn => ?_
      cases goOn with
      | true => exact ih
      | false => exact keepsInStep_done _

theorem keepsInStep_run (rounds : Nat) (scripts : List Text) :
    KeepsInStep (shell.run rounds scripts) := by
  refine keepsInStep_publishCwd.bind fun _ => KeepsInStep.orElse ?_ fun e => ?_
  · refine (shell.keepsInStep_runScripts rounds scripts).bind fun goOn => ?_
    cases goOn with
    | true =>
        exact (shell.keepsInStep_runFrom standardInput true rounds 0).bind fun _ => keepsInStep_done _
    | false => exact keepsInStep_done _
  · cases e with
    | interrupt =>
        have hsay : (say .info "Interrupted").Footprint (scope [] []) := footprint_say _ _ _
        refine (KeepsInStep.of_footprint hsay rfl rfl).bind fun _ => ?_
        exact (KeepsInStep.of_footprint (footprint_print "\n") rfl rfl).bind fun _ => keepsInStep_done _
    | _ => exact keepsInStep_fail _

theorem keepsInStep_dispatchLine (line : Bytes) : KeepsInStep (shell.dispatchLine line) := by
  refine (keepsInStep_ofExcept _).bind fun loaded => ?_
  refine (keepsInStep_ofExcept _).bind fun split => ?_
  exact (keepsInStep_ofExcept _).bind fun tokens => keepsInStep_dispatch shell.home tokens

end Shell

end LineShell
