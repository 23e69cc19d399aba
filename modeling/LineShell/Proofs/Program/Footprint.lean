import LineShell.Proofs.Program.Ensures

/-!
# Footprints

The footprint of a program bounds what it may do whatever its calls are answered with: which calls
it makes, how it replaces its state, which log entries it leaves, and whether one of its loops can
use up its rounds.  Footprints are read off the tree of a program, so they hold in every world.

`Footprint.ensures` is what they are for: what is kept by each single thing that is in the
footprint of a program is kept by the program.  `Footprint.ensures_interpret` is the same for a
program whose calls are carried out by others.
-/

namespace LineShell

variable {σ Call Call' World : Type} {Reply : Call → Type} {Reply' : Call' → Type} {α β : Type}

/-- What a program is allowed to do. -/
structure Scope (σ Call : Type) where
  /-- The calls it may make. -/
  calls : Call → Prop
  /-- The states it may put in place of one. -/
  changes : σ → σ → Prop
  /-- The log entries it may leave. -/
  notes : Log.Entry → Prop
  /-- Whether it may use up its rounds. -/
  stops : Prop

/-- A scope is inside another one. -/
structure Scope.Inside (S T : Scope σ Call) : Prop where
  calls : ∀ c, S.calls c → T.calls c
  changes : ∀ s t, S.changes s t → T.changes s t
  notes : ∀ entry, S.notes entry → T.notes entry
  stops : S.stops → T.stops

/-- The scope of everything. -/
def Scope.anything : Scope σ Call := ⟨fun _ => True, fun _ _ => True, fun _ => True, True⟩

namespace Program

/-- The program stays in a scope when it starts from a state. -/
def Within (S : Scope σ Call) : Program σ Reply α → σ → Prop
  | done _, _ => True
  | fail _, _ => True
  | outOfRounds, _ => S.stops
  | read next, s => (next s).Within S s
  | write t next, s => S.changes s t ∧ next.Within S t
  | call c next, s => S.calls c ∧ ∀ outcome, (next outcome).Within S s
  | note entry next, s => S.notes entry ∧ next.Within S s

/-- The program stays in a scope wherever it starts. -/
def Footprint (S : Scope σ Call) (p : Program σ Reply α) : Prop := ∀ s, p.Within S s

theorem Within.mono {S T : Scope σ Call} (hST : S.Inside T) {p : Program σ Reply α} {s : σ}
    (hp : p.Within S s) : p.Within T s := by
  induction p generalizing s with
  | done a => trivial
  | fail e => trivial
  | outOfRounds => exact hST.stops hp
  | read next ih => exact ih s hp
  | write t next ih => exact ⟨hST.changes _ _ hp.1, ih hp.2⟩
  | call c next ih => exact ⟨hST.calls _ hp.1, fun outcome => ih outcome (hp.2 outcome)⟩
  | note entry next ih => exact ⟨hST.notes _ hp.1, ih hp.2⟩

theorem Within.bind {S : Scope σ Call} {p : Program σ Reply α} {f : α → Program σ Reply β}
    {s : σ} (hp : p.Within S s) (hf : ∀ a, (f a).Footprint S) : (p.bind f).Within S s := by
  induction p generalizing s with
  | done a => exact hf a s
  | fail e => trivial
  | outOfRounds => exact hp
  | read next ih => exact ih s hp
  | write t next ih => exact ⟨hp.1, ih hp.2⟩
  | call c next ih => exact ⟨hp.1, fun outcome => ih outcome (hp.2 outcome)⟩
  | note entry next ih => exact ⟨hp.1, ih hp.2⟩

theorem Within.attempt {S : Scope σ Call} {p : Program σ Reply α} {s : σ} (hp : p.Within S s) :
    p.attempt.Within S s := by
  induction p generalizing s with
  | done a => trivial
  | fail e => trivial
  | outOfRounds => exact hp
  | read next ih => exact ih s hp
  | write t next ih => exact ⟨hp.1, ih hp.2⟩
  | call c next ih => exact ⟨hp.1, fun outcome => ih outcome (hp.2 outcome)⟩
  | note entry next ih => exact ⟨hp.1, ih hp.2⟩

theorem Within.state_bind {S : Scope σ Call} {f : σ → Program σ Reply β} {s : σ}
    (h : (f s).Within S s) : (state.bind f).Within S s := h

/-- What goes on with a result may rely on it being the result. -/
theorem Within.ofExcept_bind {S : Scope σ Call} {x : Except Failure α}
    {f : α → Program σ Reply β} {s : σ} (h : ∀ a, x = .ok a → (f a).Within S s) :
    ((ofExcept x).bind f).Within S s := by
  cases x with
  | ok a => exact h a rfl
  | error e => trivial

theorem Within.update_bind {S : Scope σ Call} {g : σ → σ} {f : Unit → Program σ Reply β} {s : σ}
    (hchange : S.changes s (g s)) (h : (f ()).Within S (g s)) :
    ((update g).bind f).Within S s := ⟨hchange, h⟩

namespace Footprint

/-- Every program stays in the scope of everything. -/
theorem anything (p : Program σ Reply α) : p.Footprint Scope.anything := by
  intro s
  induction p generalizing s with
  | done a => trivial
  | fail e => trivial
  | outOfRounds => trivial
  | read next ih => exact ih s s
  | write t next ih => exact ⟨trivial, ih t⟩
  | call c next ih => exact ⟨trivial, fun outcome => ih outcome s⟩
  | note entry next ih => exact ⟨trivial, ih s⟩

variable {S T : Scope σ Call} {p : Program σ Reply α}

theorem mono (hp : p.Footprint S) (hST : S.Inside T) : p.Footprint T :=
  fun s => (hp s).mono hST

theorem done (a : α) : (.done a : Program σ Reply α).Footprint S := fun _ => trivial

theorem fail (e : Failure) : (.fail e : Program σ Reply α).Footprint S := fun _ => trivial

theorem outOfRounds (h : S.stops) : (.outOfRounds : Program σ Reply α).Footprint S := fun _ => h

theorem ofExcept (x : Except Failure α) : (.ofExcept x : Program σ Reply α).Footprint S := by
  cases x with
  | ok a => exact done a
  | error e => exact fail e

theorem bind {f : α → Program σ Reply β} (hp : p.Footprint S) (hf : ∀ a, (f a).Footprint S) :
    (p.bind f).Footprint S := fun s => (hp s).bind hf

theorem attempt (hp : p.Footprint S) : p.attempt.Footprint S := fun s => (hp s).attempt

theorem orElse {handler : Failure → Program σ Reply α} (hp : p.Footprint S)
    (hhandler : ∀ e, (handler e).Footprint S) : (p.orElse handler).Footprint S := by
  refine hp.attempt.bind fun outcome => ?_
  cases outcome with
  | ok a => exact done a
  | error e => exact hhandler e

theorem andFinally {last : Program σ Reply Unit} (hp : p.Footprint S)
    (hlast : last.Footprint S) : (p.andFinally last).Footprint S :=
  hp.attempt.bind fun outcome => hlast.bind fun _ => ofExcept outcome

theorem request {c : Call} (hc : S.calls c) :
    (request c : Program σ Reply (Reply c)).Footprint S :=
  fun s => ⟨hc, fun outcome => ofExcept outcome s⟩

theorem state_bind {f : σ → Program σ Reply α} (hf : ∀ s, (f s).Footprint S) :
    (state.bind f).Footprint S := fun s => hf s s

theorem update {f : σ → σ} (hf : ∀ s, S.changes s (f s)) :
    (update f : Program σ Reply Unit).Footprint S := fun s => ⟨hf s, trivial⟩

theorem log {entry : Log.Entry} (hentry : S.notes entry) :
    (log entry : Program σ Reply Unit).Footprint S := fun _ => ⟨hentry, trivial⟩

end Footprint

/-! ## What a footprint keeps -/

variable {answer : (c : Call) → World → Answer World Reply c}
  {answer' : (c : Call') → World → Answer World Reply' c}
  {carryOut : (c : Call) → Program σ Reply' (Reply c)}

/-- What is kept by carrying out each call in the footprint of a program, by the changes and by the
log entries in it, is kept by the program.  Carrying out a call must leave the state alone. -/
theorem Footprint.ensures_interpret {S : Scope σ Call} {p : Program σ Reply α}
    {I stops : Assertion σ World Reply'} (hp : p.Footprint S)
    (hcall : ∀ c, S.calls c →
      Ensures answer' I (carryOut c) (fun _ => I) (fun _ => I) stops)
    (hsteady : ∀ c s w, ((carryOut c).run answer' s w).state = s)
    (hchange : ∀ past s t w, S.changes s t → I past s w → I past t w)
    (hnote : ∀ entry, S.notes entry → ∀ past s w, I past s w → I (past ++ [.logged entry]) s w)
    (hstops : S.stops → ∀ past s w, I past s w → stops past s w) :
    Ensures answer' I (p.interpret carryOut) (fun _ => I) (fun _ => I) stops := by
  -- the induction is on the tree of the program, so all that was seen so far must stay general
  have main : ∀ (p : Program σ Reply α) past s w, p.Within S s → I past s w →
      ((p.interpret carryOut).run answer' s w).ending.choose (fun _ => I) (fun _ => I) stops
        (past ++ ((p.interpret carryOut).run answer' s w).events)
        ((p.interpret carryOut).run answer' s w).state
        ((p.interpret carryOut).run answer' s w).world := by
    intro p
    induction p with
    | done a => intro past s w _ hI; simpa [interpret, run] using hI
    | fail e => intro past s w _ hI; simpa [interpret, run] using hI
    | outOfRounds => intro past s w hin hI; simpa [interpret, run] using hstops hin past s w hI
    | read next ih => intro past s w hin hI; exact ih s past s w hin hI
    | write t next ih =>
        intro past s w hin hI
        exact ih past t w hin.2 (hchange past s t w hin.1 hI)
    | call c next ih =>
        intro past s w hin hI
        have hdone := hcall c hin.1 past s w hI
        -- the rest was in scope for the state before the call, and the call left that alone
        have hstate := hsteady c s w
        simp only [interpret, run_bind, run_attempt]
        cases hend : ((carryOut c).run answer' s w).ending with
        | returned r =>
            rw [hend] at hdone
            have hnext := ih (.ok r) _ _ ((carryOut c).run answer' s w).world
              (by rw [hstate]; exact hin.2 (.ok r)) hdone
            simpa [Outcome.andThen, Ending.attempt, hend] using hnext
        | failed e =>
            rw [hend] at hdone
            have hnext := ih (.error e) _ _ ((carryOut c).run answer' s w).world
              (by rw [hstate]; exact hin.2 (.error e)) hdone
            simpa [Outcome.andThen, Ending.attempt, hend] using hnext
        | outOfRounds =>
            rw [hend] at hdone
            simpa [Outcome.andThen, Ending.attempt, hend] using hdone
    | note entry next ih =>
        intro past s w hin hI
        have hnext := ih _ s w hin.2 (hnote entry hin.1 past s w hI)
        simpa [interpret, run] using hnext
  intro past s w hI
  exact main p past s w (hp s) hI

/-- What is kept by each call, each change and each log entry in the footprint of a program is kept
by the program. -/
theorem Footprint.ensures {S : Scope σ Call} {p : Program σ Reply α}
    {I stops : Assertion σ World Reply} (hp : p.Footprint S)
    (hcall : ∀ c, S.calls c → ∀ past s w, I past s w →
      I (past ++ .called c (answer c w).outcome :: (answer c w).inner) s (answer c w).world)
    (hchange : ∀ past s t w, S.changes s t → I past s w → I past t w)
    (hnote : ∀ entry, S.notes entry → ∀ past s w, I past s w → I (past ++ [.logged entry]) s w)
    (hstops : S.stops → ∀ past s w, I past s w → stops past s w) :
    Ensures answer I p (fun _ => I) (fun _ => I) stops := by
  rw [← interpret_self p]
  refine hp.ensures_interpret (fun c hc => ?_) (fun c s w => ?_) hchange hnote hstops
  · refine Ensures.request ?_ ?_
    · intro past s w r hI hr
      rw [← hr]
      exact hcall c hc past s w hI
    · intro past s w e hI he
      rw [← he]
      exact hcall c hc past s w hI
  · rw [run_request]

/-- A program that may not change its state does not. -/
theorem Footprint.run_state {S : Scope σ Call} {p : Program σ Reply α} (hp : p.Footprint S)
    (hchange : ∀ s t, ¬ S.changes s t) (s : σ) (w : World) : (p.run answer s w).state = s := by
  have hkept : Ensures answer (fun _ t _ => t = s) p (fun _ _ t _ => t = s) (fun _ _ t _ => t = s)
      fun _ t _ => t = s :=
    hp.ensures (fun _ _ _ _ _ h => h) (fun _ _ _ _ hst => absurd hst (hchange _ _))
      (fun _ _ _ _ _ h => h) fun _ _ _ _ h => h
  exact hkept.always (fun _ _ _ _ h => h) (fun _ _ _ _ h => h) (fun _ _ _ h => h) rfl

end Program

end LineShell
