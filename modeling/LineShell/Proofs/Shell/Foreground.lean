import LineShell.Proofs.Shell.Footprint

/-!
# The child in the foreground

Children are made, awaited and turned into other programs in any order, whatever the services answer,
and some of this fails.  `Child.History` keeps what was done and how each of it ended, together with the
session it left, and `Child.History.after` goes on with a sequence of operations.

Which child is in the foreground is written down in the session.  It can be read off the history as well:
it is the child that was made last, as long as no wait for it found it gone (`Child.Latest`).  The main
result, `Child.foreground_eq_some_iff_latest`, says that the two are the same.  One operation is
`Child.Operation.turns`: it puts a child in the foreground, takes the one there away, or does nothing.
-/

namespace LineShell.Child

open Program LineShell.Action

/-- What can be done about children. -/
inductive Operation where
  | spawn
  | wait (pid : Int) (timeout : Value)
  | resolveProgram (name : Text) (mode : SearchMode)
  | replaceProgram (argv : List Text) (mode : SearchMode)
  | terminate (status : Value)

/-- What an operation returns. -/
@[reducible]
def Operation.Result : Operation → Type
  | spawn => Int
  | wait .. => WaitOutcome
  | resolveProgram .. => Text
  | replaceProgram .. | terminate .. => Unit

/-- An operation as the shell carries it out. -/
def Operation.action : (op : Operation) → Action op.Result
  | spawn => Child.spawn
  | wait pid timeout => Child.wait pid timeout
  | resolveProgram name mode => Child.resolveProgram name mode
  | replaceProgram argv mode => Child.replaceProgram argv mode
  | terminate status => Child.terminate status

/-- An operation with how it ended. -/
structure Performed where
  operation : Operation
  ending : Ending operation.Result

namespace Performed

/-- A child was made. -/
def Spawned (pid : Int) : Performed → Prop
  | ⟨.spawn, .returned child⟩ => child = pid ∧ 0 < pid
  | _ => False

/-- A wait for a child found it gone. -/
def Reaped (pid : Int) : Performed → Prop
  | ⟨.wait child _, .returned outcome⟩ => child = pid ∧ outcome ∈ [.success, .killed, .noSuchProcess]
  | _ => False

/-- Only one child is made at a time. -/
theorem Spawned.eq {d : Performed} {pid child : Int} (h : d.Spawned pid) (h' : d.Spawned child) :
    pid = child := by
  match d, h, h' with
  | ⟨.spawn, .returned _⟩, ⟨rfl, _⟩, ⟨heq, _⟩ => exact heq

/-- What becomes of the foreground. -/
inductive Turns (d : Performed) : Option Int → Option Int → Prop
  /-- A new child takes the place of whatever was there. -/
  | made {held : Option Int} {pid : Int} (h : d.Spawned pid) : d.Turns held (some pid)
  /-- The child that was there is gone. -/
  | gone {pid : Int} (hquiet : ∀ child, ¬ d.Spawned child) (h : d.Reaped pid) : d.Turns (some pid) none
  /-- Neither of these happened. -/
  | kept {held : Option Int} (hquiet : ∀ child, ¬ d.Spawned child)
      (h : ∀ pid, held = some pid → ¬ d.Reaped pid) : d.Turns held held

/-- A child is in the foreground when it was just made, or when it was there, no other was made, and it
was not found gone. -/
theorem Turns.eq_some_iff {d : Performed} {held held' : Option Int} (h : d.Turns held held')
    (pid : Int) : held' = some pid ↔
      d.Spawned pid ∨ held = some pid ∧ (∀ child, ¬ d.Spawned child) ∧ ¬ d.Reaped pid := by
  cases h with
  | @made _ child hchild =>
      constructor
      · rintro ⟨⟩
        exact .inl hchild
      · rintro (hpid | ⟨-, hquiet, -⟩)
        · rw [hchild.eq hpid]
        · exact absurd hchild (hquiet child)
  | gone hquiet hgone =>
      refine iff_of_false nofun ?_
      rintro (hpid | ⟨⟨⟩, -, hpid⟩)
      · exact hquiet pid hpid
      · exact hpid hgone
  | kept hquiet hkept =>
      constructor
      · intro hheld
        exact .inr ⟨hheld, hquiet, hkept pid hheld⟩
      · rintro (hpid | ⟨hheld, -, -⟩)
        · exact absurd hpid (hquiet pid)
        · exact hheld

theorem Turns.made_or_gone_or_eq {d : Performed} {held held' : Option Int} (h : d.Turns held held') :
    (∃ pid, d.Spawned pid) ∨ (∃ pid, held = some pid ∧ d.Reaped pid) ∨ held' = held := by
  cases h with
  | made hchild => exact .inl ⟨_, hchild⟩
  | gone hquiet hgone => exact .inr (.inl ⟨_, rfl, hgone⟩)
  | kept hquiet hkept => exact .inr (.inr rfl)

end Performed

/-! ## One operation -/

section Operations

variable {World : Type} (answer : (c : ServiceCall) → World → Answer World ServiceCall.Reply c)

/-- What only fails leaves the session alone, and says so at most. -/
theorem unmade_fails (e : Failure) (s : Session) (w : World) :
    ∃ events, (unmade e).run answer s w = ⟨.failed e, s, w, events⟩ := by
  unfold unmade
  cases e.reportOf? .forkFailed with
  | none => exact ⟨[], rfl⟩
  | some r => exact ⟨_, rfl⟩

theorem made_returns (pid : Int) (s : Session) (w : World) :
    ∃ events, (made pid).run answer s w =
      ⟨.returned (), if 0 < pid then { s with foreground := some pid } else s, w, events⟩ := by
  unfold made
  split
  · exact ⟨_, rfl⟩
  · exact ⟨[], rfl⟩

/-- What may not change the foreground does not. -/
theorem foreground_run {α : Type} {p : Action α} {names : List ServiceCall.Name}
    (hp : p.Footprint (Shell.scope names [])) (s : Session) (w : World) :
    (p.run answer s w).state.foreground = s.foreground := by
  have hkept : Ensures answer (fun _ t _ => t.foreground = s.foreground) p
      (fun _ _ t _ => t.foreground = s.foreground) (fun _ _ t _ => t.foreground = s.foreground)
      fun _ t _ => t.foreground = s.foreground :=
    hp.ensures (fun _ _ _ _ _ h => h) (fun _ _ _ _ hst h => (hst.1 .foreground rfl).trans h)
      (fun _ _ _ _ _ h => h) fun _ _ _ _ h => h
  exact hkept.always (fun _ _ _ _ h => h) (fun _ _ _ _ h => h) (fun _ _ _ h => h) rfl

theorem turns_spawn (s : Session) (w : World) :
    (⟨.spawn, (spawn.run answer s w).ending⟩ : Performed).Turns s.foreground
      (spawn.run answer s w).state.foreground := by
  have hask := run_request answer .fork s w
  rw [spawn_eq, run_bind]
  cases hfork : (answer .fork w).outcome with
  | ok pid =>
      rw [hfork] at hask
      obtain ⟨events, hmade⟩ := made_returns answer pid s (answer .fork w).world
      rw [ask, run_orElse_of_returned answer hask]
      simp only [Outcome.andThen, run_bind, hmade, run_done]
      by_cases hpos : 0 < pid
      · rw [if_pos hpos]
        exact .made ⟨rfl, hpos⟩
      · rw [if_neg hpos]
        refine .kept (fun child h => hpos ?_) fun _ _ h => h
        rw [h.1]
        exact h.2
  | error e =>
      rw [hfork] at hask
      obtain ⟨events, hunmade⟩ := unmade_fails answer e s (answer .fork w).world
      rw [ask, run_orElse_of_failed answer hask, hunmade]
      exact .kept (fun _ h => h) fun _ _ h => h

theorem reaped_iff (outcome : WaitOutcome) :
    outcome.reaped ↔ outcome ∈ [.success, .killed, .noSuchProcess] := by
  cases outcome <;> decide

theorem turns_wait (pid : Int) (timeout : Value) (s : Session) (w : World) :
    (⟨.wait pid timeout, ((wait pid timeout).run answer s w).ending⟩ : Performed).Turns s.foreground
      ((wait pid timeout).run answer s w).state.foreground := by
  rw [wait_eq, run_bind, ask, run_request]
  cases (answer (.waitpid pid timeout) w).outcome with
  | error e => exact .kept (fun _ h => h) fun _ _ h => h
  | ok outcome =>
      obtain ⟨entry, hrun⟩ :=
        run_awaited request answer pid outcome s (answer (.waitpid pid timeout) w).world
      rw [interpret_self] at hrun
      simp only [Outcome.andThen, endingOf, hrun]
      split
      case isTrue hgone =>
        obtain ⟨hreaped, hheld⟩ := Bool.and_eq_true_iff.mp hgone
        rw [eq_of_beq hheld]
        exact .gone (fun _ h => h) ⟨rfl, (reaped_iff outcome).mp hreaped⟩
      case isFalse hstays =>
        refine .kept (fun _ h => h) fun child hheld h => hstays ?_
        obtain ⟨rfl, hreaped⟩ := h
        rw [(reaped_iff outcome).mpr hreaped, hheld]
        exact beq_self_eq_true _

/-- An operation makes a child and puts it in the foreground, finds the one there gone, or leaves the
foreground as it was. -/
theorem Operation.turns (op : Operation) (s : Session) (w : World) :
    (⟨op, (op.action.run answer s w).ending⟩ : Performed).Turns s.foreground
      (op.action.run answer s w).state.foreground := by
  have hother : ∀ {d : Performed}, (∀ child, ¬ d.Spawned child) → (∀ pid, ¬ d.Reaped pid) →
      (op.action.run answer s w).state.foreground = s.foreground →
        d.Turns s.foreground (op.action.run answer s w).state.foreground := by
    intro d hspawned hreaped hkept
    rw [hkept]
    exact .kept hspawned fun pid _ => hreaped pid
  cases op with
  | spawn => exact turns_spawn answer s w
  | wait pid timeout => exact turns_wait answer pid timeout s w
  | resolveProgram name mode =>
      exact hother (fun _ h => h) (fun _ h => h)
        (foreground_run answer (footprint_resolveProgram name mode) s w)
  | replaceProgram argv mode =>
      exact hother (fun _ h => h) (fun _ h => h)
        (foreground_run answer (footprint_replaceProgram argv mode) s w)
  | terminate status =>
      exact hother (fun _ h => h) (fun _ h => h) (foreground_run answer (footprint_terminate status) s w)

end Operations

/-! ## The child that was made last -/

/-- The child that was made last, when no wait for it has found it gone since. -/
def Latest (past : List Performed) (pid : Int) : Prop :=
  ∃ before d after, past = before ++ d :: after ∧ d.Spawned pid ∧
    ∀ later ∈ after, (∀ child, ¬ later.Spawned child) ∧ ¬ later.Reaped pid

theorem latest_concat_iff (past : List Performed) (d : Performed) (pid : Int) :
    Latest (past ++ [d]) pid ↔
      d.Spawned pid ∨ Latest past pid ∧ (∀ child, ¬ d.Spawned child) ∧ ¬ d.Reaped pid := by
  constructor
  · rintro ⟨before, made, after, hsplit, hmade, hafter⟩
    rcases concat_eq_append_cons hsplit with ⟨-, -, rfl⟩ | ⟨rest, rfl, rfl⟩
    · exact .inl hmade
    · refine .inr ⟨⟨before, made, rest, rfl, hmade, fun later hlater => ?_⟩, ?_⟩
      · exact hafter later (List.mem_append_left _ hlater)
      · exact hafter d (List.mem_append_right _ (List.mem_singleton_self d))
  · rintro (hmade | ⟨⟨before, made, after, rfl, hmade, hafter⟩, hlast⟩)
    · exact ⟨past, d, [], rfl, hmade, nofun⟩
    · refine ⟨before, made, after ++ [d], by simp, hmade, fun later hlater => ?_⟩
      rcases List.mem_append.mp hlater with hold | hnew
      · exact hafter later hold
      · rw [List.mem_singleton.mp hnew]
        exact hlast

/-! ## Any sequence of operations -/

/-- The operations that were performed, in order, with the session and the world they left. -/
structure History (World : Type) where
  past : List Performed
  session : Session
  world : World

namespace History

variable {World : Type} (answer : (c : ServiceCall) → World → Answer World ServiceCall.Reply c)

/-- Nothing was done yet, and no child is in the foreground. -/
def fresh (cwd : Text) (line : LineBuffer) (w : World) : History World := ⟨[], ⟨cwd, none, line⟩, w⟩

/-- One more operation. -/
def step (h : History World) (op : Operation) : History World :=
  let o := op.action.run answer h.session h.world
  ⟨h.past ++ [⟨op, o.ending⟩], o.state, o.world⟩

/-- A sequence of operations. -/
def after (h : History World) (operations : List Operation) : History World :=
  operations.foldl (step answer) h

/-- The session knows the child that was made last. -/
def Tracked (h : History World) : Prop := ∀ pid, h.session.foreground = some pid ↔ Latest h.past pid

theorem tracked_fresh (cwd : Text) (line : LineBuffer) (w : World) : (fresh cwd line w).Tracked :=
  fun _ => iff_of_false nofun fun ⟨before, d, after, hsplit, _⟩ => by simp [fresh] at hsplit

theorem Tracked.step {h : History World} (htracked : h.Tracked) (op : Operation) :
    (h.step answer op).Tracked := by
  intro pid
  have hturns := (op.turns answer h.session h.world).eq_some_iff pid
  rw [htracked pid] at hturns
  exact hturns.trans (latest_concat_iff h.past _ pid).symm

theorem Tracked.after {h : History World} (htracked : h.Tracked) (operations : List Operation) :
    (h.after answer operations).Tracked := by
  induction operations generalizing h with
  | nil => exact htracked
  | cons op rest ih => exact ih (htracked.step answer op)

theorem operations_after (h : History World) (operations : List Operation) :
    (h.after answer operations).past.map (·.operation) = h.past.map (·.operation) ++ operations := by
  induction operations generalizing h with
  | nil => simp [after]
  | cons op rest ih =>
      calc ((h.step answer op).after answer rest).past.map (·.operation)
          = (h.step answer op).past.map (·.operation) ++ rest := ih _
        _ = h.past.map (·.operation) ++ op :: rest := by simp [step]

end History

/-- Whatever was done, and whatever the services answered, the child in the foreground is the one that
was made last, as long as no wait for it found it gone.  An operation that neither makes a child nor
finds that one gone leaves it there: making a child may fail or happen in the child, and a wait may be
for another child, end without this one being gone, or fail. -/
theorem foreground_eq_some_iff_latest {World : Type}
    (answer : (c : ServiceCall) → World → Answer World ServiceCall.Reply c) (cwd : Text)
    (line : LineBuffer) (w : World) (operations : List Operation) :
    let h := (History.fresh cwd line w).after answer operations
    h.past.map (·.operation) = operations ∧
      (∀ pid, h.session.foreground = some pid ↔ Latest h.past pid) ∧
      ∀ op, ∃ d : Performed, d.operation = op ∧ (h.step answer op).past = h.past ++ [d] ∧
        ((∃ pid, d.Spawned pid) ∨ (∃ pid, h.session.foreground = some pid ∧ d.Reaped pid) ∨
          (h.step answer op).session.foreground = h.session.foreground) := by
  intro h
  refine ⟨History.operations_after answer _ operations, ?_, fun op => ⟨_, rfl, rfl, ?_⟩⟩
  · exact (History.tracked_fresh cwd line w).after answer operations
  · exact (op.turns answer h.session h.world).made_or_gone_or_eq

end LineShell.Child
