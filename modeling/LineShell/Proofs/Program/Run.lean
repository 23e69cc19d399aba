import LineShell.Program.Run

/-!
# Runs of composed programs

`Program.run` follows the tree of a program.  Here the run of a composed program is given by the
runs of its parts, so that nothing after this file has to look at the tree again:

* `run_bind`: one program after another runs one after the other, and the second does not run when
  the first does not return;
* `run_attempt`, `run_orElse`, `run_andFinally`: how failures are passed on;
* `interpret_bind` and its companions: carrying out the calls of a composed program is composing
  the parts carried out, and `interpret_request` says that answering every call with the call
  itself changes nothing.
-/

namespace LineShell

variable {σ Call Call' World : Type} {Reply : Call → Type} {Reply' : Call' → Type} {α β : Type}

/-- The ending as the result of an attempt: a failure is a result, too. -/
def Ending.attempt : Ending α → Ending (Except Failure α)
  | .returned a => .returned (.ok a)
  | .failed e => .returned (.error e)
  | .outOfRounds => .outOfRounds

/-- A run followed by another one, which starts where the first returned. -/
def Outcome.andThen (o : Outcome σ World Reply α)
    (f : α → σ → World → Outcome σ World Reply β) : Outcome σ World Reply β :=
  match o.ending with
  | .returned a =>
    let next := f a o.state o.world
    { next with events := o.events ++ next.events }
  | .failed e => ⟨.failed e, o.state, o.world, o.events⟩
  | .outOfRounds => ⟨.outOfRounds, o.state, o.world, o.events⟩

namespace Program

variable (answer : (c : Call) → World → Answer World Reply c)

@[simp] theorem run_done (a : α) (s : σ) (w : World) :
    (done a : Program σ Reply α).run answer s w = ⟨.returned a, s, w, []⟩ := rfl

@[simp] theorem run_fail (e : Failure) (s : σ) (w : World) :
    (fail e : Program σ Reply α).run answer s w = ⟨.failed e, s, w, []⟩ := rfl

@[simp] theorem run_outOfRounds (s : σ) (w : World) :
    (outOfRounds : Program σ Reply α).run answer s w = ⟨.outOfRounds, s, w, []⟩ := rfl

theorem run_bind (p : Program σ Reply α) (f : α → Program σ Reply β) (s : σ) (w : World) :
    (p.bind f).run answer s w =
      (p.run answer s w).andThen fun a s w => (f a).run answer s w := by
  induction p generalizing s w with
  | done a => rfl
  | fail e => rfl
  | outOfRounds => rfl
  | read next ih => exact ih s s w
  | write t next ih => exact ih t w
  | call c next ih =>
      -- the call and what happened inside come before the events of either program
      simp only [bind, run, ih]
      cases h : ((next (answer c w).outcome).run answer s (answer c w).world).ending <;>
        simp [Outcome.andThen, h]
  | note entry next ih =>
      simp only [bind, run, ih]
      cases h : (next.run answer s w).ending <;> simp [Outcome.andThen, h]

theorem run_attempt (p : Program σ Reply α) (s : σ) (w : World) :
    p.attempt.run answer s w =
      { p.run answer s w with ending := (p.run answer s w).ending.attempt } := by
  induction p generalizing s w with
  | done a => rfl
  | fail e => rfl
  | outOfRounds => rfl
  | read next ih => exact ih s s w
  | write t next ih => exact ih t w
  | call c next ih => simp only [attempt, run, ih]
  | note entry next ih => simp only [attempt, run, ih]

@[simp] theorem run_ofExcept_ok (a : α) (s : σ) (w : World) :
    (ofExcept (.ok a) : Program σ Reply α).run answer s w = ⟨.returned a, s, w, []⟩ := rfl

@[simp] theorem run_ofExcept_error (e : Failure) (s : σ) (w : World) :
    (ofExcept (.error e) : Program σ Reply α).run answer s w = ⟨.failed e, s, w, []⟩ := rfl

/-- Where the last program returns, the ending is that of the first one. -/
theorem run_andFinally {p : Program σ Reply α} {last : Program σ Reply Unit} {ending : Ending α}
    {s s' s'' : σ} {w w' w'' : World} {events more : List (Event Reply)}
    (hp : p.run answer s w = ⟨ending, s', w', events⟩) (hends : ending ≠ .outOfRounds)
    (hlast : last.run answer s' w' = ⟨.returned (), s'', w'', more⟩) :
    (p.andFinally last).run answer s w = ⟨ending, s'', w'', events ++ more⟩ := by
  unfold andFinally
  rw [run_bind, run_attempt, hp]
  cases ending with
  | returned a => simp [Ending.attempt, Outcome.andThen, run_bind, hlast]
  | failed e => simp [Ending.attempt, Outcome.andThen, run_bind, hlast]
  | outOfRounds => exact absurd rfl hends

/-- A program that returns has no use for the handler. -/
theorem run_orElse_of_returned {p : Program σ Reply α} {handler : Failure → Program σ Reply α} {a : α}
    {s s' : σ} {w w' : World} {events : List (Event Reply)}
    (hp : p.run answer s w = ⟨.returned a, s', w', events⟩) :
    (p.orElse handler).run answer s w = ⟨.returned a, s', w', events⟩ := by
  unfold orElse
  rw [run_bind, run_attempt, hp]
  simp [Ending.attempt, Outcome.andThen]

/-- The handler goes on where the program failed. -/
theorem run_orElse_of_failed {p : Program σ Reply α} {handler : Failure → Program σ Reply α}
    {e : Failure} {s s' : σ} {w w' : World} {events : List (Event Reply)}
    (hp : p.run answer s w = ⟨.failed e, s', w', events⟩) :
    (p.orElse handler).run answer s w =
      { (handler e).run answer s' w' with events := events ++ ((handler e).run answer s' w').events } := by
  unfold orElse
  rw [run_bind, run_attempt, hp]
  rfl

@[simp] theorem run_state (s : σ) (w : World) :
    (state : Program σ Reply σ).run answer s w = ⟨.returned s, s, w, []⟩ := rfl

@[simp] theorem run_update (f : σ → σ) (s : σ) (w : World) :
    (update f : Program σ Reply Unit).run answer s w = ⟨.returned (), f s, w, []⟩ := rfl

@[simp] theorem run_log (entry : Log.Entry) (s : σ) (w : World) :
    (log entry : Program σ Reply Unit).run answer s w =
      ⟨.returned (), s, w, [.logged entry]⟩ := rfl

/-- The ending of a call with an outcome. -/
def endingOf : Except Failure α → Ending α
  | .ok a => .returned a
  | .error e => .failed e

theorem run_request (c : Call) (s : σ) (w : World) :
    (request c : Program σ Reply (Reply c)).run answer s w =
      ⟨endingOf (answer c w).outcome, s, (answer c w).world,
        .called c (answer c w).outcome :: (answer c w).inner⟩ := by
  cases h : (answer c w).outcome <;> simp [request, run, h, endingOf]

/-! ## Programs whose calls are carried out -/

variable (carryOut : (c : Call) → Program σ Reply' (Reply c))

@[simp] theorem interpret_done (a : α) :
    (done a : Program σ Reply α).interpret carryOut = done a := rfl

@[simp] theorem interpret_fail (e : Failure) :
    (fail e : Program σ Reply α).interpret carryOut = fail e := rfl

@[simp] theorem interpret_outOfRounds :
    (outOfRounds : Program σ Reply α).interpret carryOut = outOfRounds := rfl

@[simp] theorem interpret_state :
    (state : Program σ Reply σ).interpret carryOut = state := rfl

@[simp] theorem interpret_update (f : σ → σ) :
    (update f : Program σ Reply Unit).interpret carryOut = update f := rfl

@[simp] theorem interpret_log (entry : Log.Entry) :
    (log entry : Program σ Reply Unit).interpret carryOut = log entry := rfl

@[simp] theorem interpret_ofExcept (x : Except Failure α) :
    (ofExcept x : Program σ Reply α).interpret carryOut = ofExcept x := by
  cases x <;> rfl

@[simp] theorem attempt_ofExcept (x : Except Failure α) :
    (ofExcept x : Program σ Reply α).attempt = done x := by
  cases x <;> rfl

theorem attempt_bind_ofExcept (p : Program σ Reply α) : p.attempt.bind ofExcept = p := by
  induction p with
  | done | fail | outOfRounds => rfl
  | read next ih => simp [attempt, bind, ih]
  | write t next ih => simp [attempt, bind, ih]
  | call c next ih => simp [attempt, bind, ih]
  | note entry next ih => simp [attempt, bind, ih]

@[simp] theorem interpret_request (c : Call) :
    (request c : Program σ Reply (Reply c)).interpret carryOut = carryOut c := by
  -- a call is attempted and its outcome given back, which is the call itself
  calc (request c).interpret carryOut
      = (carryOut c).attempt.bind fun reply =>
          (ofExcept reply : Program σ Reply (Reply c)).interpret carryOut := rfl
    _ = (carryOut c).attempt.bind ofExcept := by simp only [interpret_ofExcept]
    _ = carryOut c := attempt_bind_ofExcept _

@[simp] theorem interpret_bind (p : Program σ Reply α) (f : α → Program σ Reply β) :
    (p.bind f).interpret carryOut =
      (p.interpret carryOut).bind fun a => (f a).interpret carryOut := by
  induction p with
  | done | fail | outOfRounds => rfl
  | read next ih => simp [interpret, bind, ih]
  | write t next ih => simp [interpret, bind, ih]
  | call c next ih => simp [interpret, bind, ih, bind_assoc]
  | note entry next ih => simp [interpret, bind, ih]

/-- An attempt does not fail, so attempting it once more changes nothing. -/
theorem attempt_attempt_bind (p : Program σ Reply α)
    (f : Except Failure α → Program σ Reply β) :
    (p.attempt.bind f).attempt = p.attempt.bind fun outcome => (f outcome).attempt := by
  induction p with
  | done | fail | outOfRounds => rfl
  | read next ih => simp [attempt, bind, ih]
  | write t next ih => simp [attempt, bind, ih]
  | call c next ih => simp [attempt, bind, ih]
  | note entry next ih => simp [attempt, bind, ih]

@[simp] theorem interpret_attempt (p : Program σ Reply α) :
    p.attempt.interpret carryOut = (p.interpret carryOut).attempt := by
  induction p with
  | done | fail | outOfRounds => rfl
  | read next ih => simp [attempt, interpret, ih]
  | write t next ih => simp [attempt, interpret, ih]
  | call c next ih => simp [attempt, interpret, ih, attempt_attempt_bind]
  | note entry next ih => simp [attempt, interpret, ih]

@[simp] theorem interpret_orElse (p : Program σ Reply α)
    (handler : Failure → Program σ Reply α) :
    (p.orElse handler).interpret carryOut =
      (p.interpret carryOut).orElse fun e => (handler e).interpret carryOut := by
  simp only [orElse, interpret_bind, interpret_attempt]
  congr 1
  funext outcome
  cases outcome <;> rfl

@[simp] theorem interpret_andFinally (p : Program σ Reply α) (last : Program σ Reply Unit) :
    (p.andFinally last).interpret carryOut =
      (p.interpret carryOut).andFinally (last.interpret carryOut) := by
  simp [andFinally]

/-- Carrying out each call with the call itself changes nothing. -/
@[simp] theorem interpret_self (p : Program σ Reply α) : p.interpret request = p := by
  induction p with
  | done | fail | outOfRounds => rfl
  | read next ih => simp [interpret, ih]
  | write t next ih => simp [interpret, ih]
  | call c next ih =>
      simp [interpret, request, attempt, bind, ih]
  | note entry next ih => simp [interpret, ih]

end Program

end LineShell
