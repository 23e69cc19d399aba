import LineShell.Proofs.Program.Run

/-!
# What a program ensures

An `Assertion` speaks of a moment of a run: of all that was seen so far, of the state, and of the
world.  `Ensures answer pre p returns fails stops` says that a run of `p` that starts where `pre`
holds ends where one of the other three holds, by the way it ends.

There is one rule for each way to compose programs.  The rules leave the failures and the used-up
rounds of the parts to the whole, so that a proof has to name only what holds between the parts.
-/

namespace LineShell

universe u

variable {σ Call World : Type} {Reply : Call → Type} {α β : Type}

/-- A condition on a moment of a run: on what was seen so far, the state, and the world. -/
abbrev Assertion (σ World : Type) {Call : Type} (Reply : Call → Type) : Type :=
  List (Event Reply) → σ → World → Prop

/-- Never. -/
def Never : Assertion σ World Reply := fun _ _ _ => False

/-- What was seen once was seen for good. -/
def Lasting (P : List (Event Reply) → Prop) : Prop := ∀ past later, P past → P (past ++ later)

/-- Something was seen, or else a condition holds. -/
def Unless (P : List (Event Reply) → Prop) (A : Assertion σ World Reply) : Assertion σ World Reply :=
  fun past s w => P past ∨ A past s w

theorem lasting_const (φ : Prop) : @Lasting Call Reply fun _ => φ := fun _ _ h => h

theorem Lasting.and {P Q : List (Event Reply) → Prop} (hP : Lasting P) (hQ : Lasting Q) :
    Lasting fun past => P past ∧ Q past :=
  fun past later h => ⟨hP past later h.1, hQ past later h.2⟩

/-- That one of some events happened is seen for good. -/
theorem lasting_exists_mem (Q : Event Reply → Prop) : Lasting fun past => ∃ e ∈ past, Q e :=
  fun _ _ ⟨e, he, hQ⟩ => ⟨e, List.mem_append_left _ he, hQ⟩

/-- Where something stands in a list that got longer: it is the last one, or it was there before. -/
theorem concat_eq_append_cons {past before after : List α} {e x : α}
    (h : past ++ [e] = before ++ x :: after) :
    (after = [] ∧ past = before ∧ e = x) ∨
      ∃ rest, after = rest ++ [e] ∧ past = before ++ x :: rest := by
  -- the list behind it is empty, or what stands last in it stands last in the whole
  rcases List.eq_nil_or_concat after with rfl | ⟨rest, last, rfl⟩
  · obtain ⟨hpast, hx⟩ := List.append_inj' h rfl
    exact .inl ⟨rfl, hpast, List.singleton_inj.mp hx⟩
  · rw [List.concat_eq_append, ← List.cons_append, ← List.append_assoc] at h
    obtain ⟨hpast, hlast⟩ := List.append_inj' h rfl
    rw [List.singleton_inj.mp hlast]
    exact .inr ⟨rest, List.concat_eq_append, hpast⟩

/-- The condition that goes with an ending. -/
def Ending.choose (returns : α → Assertion σ World Reply) (fails : Failure → Assertion σ World Reply)
    (stops : Assertion σ World Reply) : Ending α → Assertion σ World Reply
  | .returned a => returns a
  | .failed e => fails e
  | .outOfRounds => stops

section Choose

variable (returns : α → Assertion σ World Reply) (fails : Failure → Assertion σ World Reply)
  (stops : Assertion σ World Reply)

@[simp] theorem Ending.choose_returned (a : α) :
    (Ending.returned a).choose returns fails stops = returns a := rfl

@[simp] theorem Ending.choose_failed (e : Failure) :
    (Ending.failed e : Ending α).choose returns fails stops = fails e := rfl

@[simp] theorem Ending.choose_outOfRounds :
    (Ending.outOfRounds : Ending α).choose returns fails stops = stops := rfl

end Choose

namespace Program

variable (answer : (c : Call) → World → Answer World Reply c)

/-- From wherever `pre` holds, the program returns, fails or stops as the conditions say. -/
def Ensures (pre : Assertion σ World Reply) (p : Program σ Reply α)
    (returns : α → Assertion σ World Reply) (fails : Failure → Assertion σ World Reply)
    (stops : Assertion σ World Reply) : Prop :=
  ∀ past s w, pre past s w →
    (p.run answer s w).ending.choose returns fails stops (past ++ (p.run answer s w).events)
      (p.run answer s w).state (p.run answer s w).world

namespace Ensures

variable {answer} {pre pre' stops stops' : Assertion σ World Reply}
  {returns returns' : α → Assertion σ World Reply}
  {fails fails' : Failure → Assertion σ World Reply}
  {p : Program σ Reply α}

/-- More may be assumed, and less may be claimed. -/
theorem mono (h : Ensures answer pre p returns fails stops)
    (hpre : ∀ past s w, pre' past s w → pre past s w)
    (hreturns : ∀ a past s w, returns a past s w → returns' a past s w)
    (hfails : ∀ e past s w, fails e past s w → fails' e past s w)
    (hstops : ∀ past s w, stops past s w → stops' past s w) :
    Ensures answer pre' p returns' fails' stops' := by
  intro past s w hp
  have hrun := h past s w (hpre past s w hp)
  cases hend : (p.run answer s w).ending <;> rw [hend] at hrun
  · exact hreturns _ _ _ _ hrun
  · exact hfails _ _ _ _ hrun
  · exact hstops _ _ _ hrun

theorem weaken (h : Ensures answer pre p returns fails stops)
    (hpre : ∀ past s w, pre' past s w → pre past s w) : Ensures answer pre' p returns fails stops :=
  h.mono hpre (fun _ _ _ _ h => h) (fun _ _ _ _ h => h) fun _ _ _ h => h

theorem mono_returns (h : Ensures answer pre p returns fails stops)
    (hreturns : ∀ a past s w, returns a past s w → returns' a past s w) :
    Ensures answer pre p returns' fails stops :=
  h.mono (fun _ _ _ h => h) hreturns (fun _ _ _ _ h => h) fun _ _ _ h => h

theorem mono_fails (h : Ensures answer pre p returns fails stops)
    (hfails : ∀ e past s w, fails e past s w → fails' e past s w) :
    Ensures answer pre p returns fails' stops :=
  h.mono (fun _ _ _ h => h) (fun _ _ _ _ h => h) hfails fun _ _ _ h => h

/-- What never stops may be part of a whole that fails and stops in its own ways. -/
theorem part (h : Ensures answer pre p returns fails Never)
    (hfails : ∀ e past s w, fails e past s w → fails' e past s w) :
    Ensures answer pre p returns fails' stops :=
  h.mono (fun _ _ _ h => h) (fun _ _ _ _ h => h) hfails fun _ _ _ h => h.elim

/-- What never returns nor stops may be expected to do both in any way. -/
theorem of_never (h : Ensures answer pre p (fun _ => Never) fails Never) :
    Ensures answer pre p returns fails stops :=
  h.mono (fun _ _ _ h => h) (fun _ _ _ _ h => h.elim) (fun _ _ _ _ h => h) fun _ _ _ h => h.elim

/-- What holds in each way to end holds at the end. -/
theorem always {A : Assertion σ World Reply} (h : Ensures answer pre p returns fails stops)
    (hreturns : ∀ a past s w, returns a past s w → A past s w)
    (hfails : ∀ e past s w, fails e past s w → A past s w)
    (hstops : ∀ past s w, stops past s w → A past s w) {s : σ} {w : World} (hpre : pre [] s w) :
    A (p.run answer s w).events (p.run answer s w).state (p.run answer s w).world := by
  have hrun := (h.mono (fun _ _ _ h => h) hreturns hfails hstops) [] s w hpre
  rw [List.nil_append] at hrun
  cases hend : (p.run answer s w).ending <;> rw [hend] at hrun <;> exact hrun

/-- A program ends somehow. -/
theorem anyhow : Ensures answer pre p (fun _ _ _ _ => True) (fun _ _ _ _ => True)
    fun _ _ _ => True := by
  intro past s w _
  cases (p.run answer s w).ending <;> exact trivial

theorem done {a : α} (h : ∀ past s w, pre past s w → returns a past s w) :
    Ensures answer pre (.done a) returns fails stops := by
  intro past s w hp
  simpa using h past s w hp

theorem fail {e : Failure} (h : ∀ past s w, pre past s w → fails e past s w) :
    Ensures answer pre (.fail e : Program σ Reply α) returns fails stops := by
  intro past s w hp
  simpa using h past s w hp

theorem outOfRounds (h : ∀ past s w, pre past s w → stops past s w) :
    Ensures answer pre (.outOfRounds : Program σ Reply α) returns fails stops := by
  intro past s w hp
  simpa using h past s w hp

/-- `m` is what holds between the two programs. -/
theorem bind {m : α → Assertion σ World Reply} {returns : β → Assertion σ World Reply}
    {f : α → Program σ Reply β} (hp : Ensures answer pre p m fails stops)
    (hf : ∀ a, Ensures answer (m a) (f a) returns fails stops) :
    Ensures answer pre (p.bind f) returns fails stops := by
  intro past s w hpre
  have hrun := hp past s w hpre
  rw [run_bind]
  cases hend : (p.run answer s w).ending with
  | returned a =>
      rw [hend] at hrun
      have hnext := hf a _ _ _ hrun
      simpa [Outcome.andThen, hend] using hnext
  | failed e =>
      rw [hend] at hrun
      simpa [Outcome.andThen, hend] using hrun
  | outOfRounds =>
      rw [hend] at hrun
      simpa [Outcome.andThen, hend] using hrun

/-- An attempt returns the failure of what was attempted. -/
theorem attempt (h : Ensures answer pre p returns fails stops) :
    Ensures answer pre p.attempt
      (fun
        | .ok a => returns a
        | .error e => fails e) fails' stops := by
  intro past s w hpre
  have hrun := h past s w hpre
  rw [run_attempt]
  cases hend : (p.run answer s w).ending <;> rw [hend] at hrun <;> exact hrun

theorem ofExcept {x : Except Failure α} (hok : ∀ a, x = .ok a → ∀ past s w, pre past s w →
      returns a past s w)
    (herror : ∀ e, x = .error e → ∀ past s w, pre past s w → fails e past s w) :
    Ensures answer pre (.ofExcept x) returns fails stops := by
  cases x with
  | ok a => exact done (hok a rfl)
  | error e => exact fail (herror e rfl)

/-- The handler starts where the program failed. -/
theorem orElse {m : Failure → Assertion σ World Reply} {handler : Failure → Program σ Reply α}
    (hp : Ensures answer pre p returns m stops)
    (hhandler : ∀ e, Ensures answer (m e) (handler e) returns fails stops) :
    Ensures answer pre (p.orElse handler) returns fails stops := by
  refine bind hp.attempt fun outcome => ?_
  cases outcome with
  | ok a => exact done fun _ _ _ h => h
  | error e => exact hhandler e

/-- The last program runs in any case, and the ending is that of the first unless it fails. -/
theorem andFinally {m : α → Assertion σ World Reply} {n : Failure → Assertion σ World Reply}
    {last : Program σ Reply Unit} (hp : Ensures answer pre p m n stops)
    (hreturned : ∀ a, Ensures answer (m a) last (fun _ => returns a) fails stops)
    (hfailed : ∀ e, Ensures answer (n e) last (fun _ => fails e) fails stops) :
    Ensures answer pre (p.andFinally last) returns fails stops := by
  refine bind hp.attempt fun outcome => ?_
  cases outcome with
  | ok a =>
      refine bind (hreturned a) fun _ => ?_
      exact done fun _ _ _ h => h
  | error e =>
      refine bind (hfailed e) fun _ => ?_
      exact fail fun _ _ _ h => h

/-- What goes on with the state may rely on it being the state. -/
theorem state_bind {f : σ → Program σ Reply α}
    (hf : ∀ s, Ensures answer (fun past t w => t = s ∧ pre past t w) (f s) returns fails stops) :
    Ensures answer pre (state.bind f) returns fails stops := by
  intro past s w hpre
  exact hf s past s w ⟨rfl, hpre⟩

theorem update {f : σ → σ} {returns : Unit → Assertion σ World Reply}
    (h : ∀ past s w, pre past s w → returns () past (f s) w) :
    Ensures answer pre (update f) returns fails stops := by
  intro past s w hpre
  simpa using h past s w hpre

theorem log {entry : Log.Entry} {returns : Unit → Assertion σ World Reply}
    (h : ∀ past s w, pre past s w → returns () (past ++ [.logged entry]) s w) :
    Ensures answer pre (log entry) returns fails stops := by
  intro past s w hpre
  simpa using h past s w hpre

/-- After a call its outcome, and what happened inside, were seen. -/
theorem request {c : Call} {returns : Reply c → Assertion σ World Reply}
    (hok : ∀ past s w r, pre past s w → (answer c w).outcome = .ok r →
      returns r (past ++ .called c (.ok r) :: (answer c w).inner) s (answer c w).world)
    (herror : ∀ past s w e, pre past s w → (answer c w).outcome = .error e →
      fails e (past ++ .called c (.error e) :: (answer c w).inner) s (answer c w).world) :
    Ensures answer pre (request c) returns fails stops := by
  intro past s w hpre
  rw [run_request]
  cases houtcome : (answer c w).outcome with
  | ok r => simpa [endingOf] using hok past s w r hpre houtcome
  | error e => simpa [endingOf] using herror past s w e hpre houtcome

/-- A call behind which nothing happens. -/
theorem request_alone {c : Call} {returns : Reply c → Assertion σ World Reply}
    (halone : ∀ w, (answer c w).inner = [])
    (hok : ∀ past s w r, pre past s w → (answer c w).outcome = .ok r →
      returns r (past ++ [.called c (.ok r)]) s (answer c w).world)
    (herror : ∀ past s w e, pre past s w → (answer c w).outcome = .error e →
      fails e (past ++ [.called c (.error e)]) s (answer c w).world) :
    Ensures answer pre (Program.request c) returns fails stops := by
  refine request (fun past s w r hpre hr => ?_) fun past s w e hpre he => ?_
  · rw [halone w]
    exact hok past s w r hpre hr
  · rw [halone w]
    exact herror past s w e hpre he

/-- Either of two conditions may hold before. -/
theorem or_pre (h : Ensures answer pre p returns fails stops)
    (h' : Ensures answer pre' p returns fails stops) :
    Ensures answer (fun past s w => pre past s w ∨ pre' past s w) p returns fails stops :=
  fun past s w hpre => hpre.elim (h past s w) (h' past s w)

/-- A fact that does not depend on the moment may be used from the start. -/
theorem and_pre {φ : Prop} (h : φ → Ensures answer pre p returns fails stops) :
    Ensures answer (fun past s w => φ ∧ pre past s w) p returns fails stops :=
  fun past s w hpre => h hpre.1 past s w hpre.2

/-- What a program ensures in two ways it ensures at once. -/
theorem and {returns' : α → Assertion σ World Reply} {fails' : Failure → Assertion σ World Reply}
    (h : Ensures answer pre p returns fails stops) (h' : Ensures answer pre p returns' fails' stops') :
    Ensures answer pre p (fun a past s w => returns a past s w ∧ returns' a past s w)
      (fun e past s w => fails e past s w ∧ fails' e past s w)
      fun past s w => stops past s w ∧ stops' past s w := by
  intro past s w hpre
  have hleft := h past s w hpre
  have hright := h' past s w hpre
  cases hend : (p.run answer s w).ending <;> rw [hend] at hleft hright <;> exact ⟨hleft, hright⟩

/-- What is only known to exist before may be named. -/
theorem exists_pre {ι : Sort u} {pre : ι → Assertion σ World Reply}
    (h : ∀ i, Ensures answer (pre i) p returns fails stops) :
    Ensures answer (fun past s w => ∃ i, pre i past s w) p returns fails stops :=
  fun past s w ⟨i, hpre⟩ => h i past s w hpre

/-! ### Programs whose calls are carried out -/

variable {Call' : Type} {Reply' : Call' → Type} {carryOut : (c : Call') → Program σ Reply (Reply' c)}
  {q : Program σ Reply' α}

theorem interpret_bind {m : α → Assertion σ World Reply} {returns : β → Assertion σ World Reply}
    {f : α → Program σ Reply' β}
    (hq : Ensures answer pre (q.interpret carryOut) m fails stops)
    (hf : ∀ a, Ensures answer (m a) ((f a).interpret carryOut) returns fails stops) :
    Ensures answer pre ((q.bind f).interpret carryOut) returns fails stops := by
  rw [Program.interpret_bind]
  exact hq.bind hf

theorem interpret_attempt (hq : Ensures answer pre (q.interpret carryOut) returns fails stops) :
    Ensures answer pre (q.attempt.interpret carryOut)
      (fun
        | .ok a => returns a
        | .error e => fails e) fails' stops := by
  rw [Program.interpret_attempt]
  exact hq.attempt

theorem interpret_orElse {m : Failure → Assertion σ World Reply}
    {handler : Failure → Program σ Reply' α}
    (hq : Ensures answer pre (q.interpret carryOut) returns m stops)
    (hhandler : ∀ e, Ensures answer (m e) ((handler e).interpret carryOut) returns fails stops) :
    Ensures answer pre ((q.orElse handler).interpret carryOut) returns fails stops := by
  rw [Program.interpret_orElse]
  exact hq.orElse hhandler

theorem interpret_andFinally {m : α → Assertion σ World Reply}
    {n : Failure → Assertion σ World Reply} {last : Program σ Reply' Unit}
    (hq : Ensures answer pre (q.interpret carryOut) m n stops)
    (hreturned : ∀ a,
      Ensures answer (m a) (last.interpret carryOut) (fun _ => returns a) fails stops)
    (hfailed : ∀ e,
      Ensures answer (n e) (last.interpret carryOut) (fun _ => fails e) fails stops) :
    Ensures answer pre ((q.andFinally last).interpret carryOut) returns fails stops := by
  rw [Program.interpret_andFinally]
  exact hq.andFinally hreturned hfailed

theorem interpret_request {c : Call'} {returns : Reply' c → Assertion σ World Reply}
    (hc : Ensures answer pre (carryOut c) returns fails stops) :
    Ensures answer pre ((Program.request c).interpret carryOut) returns fails stops := by
  rw [Program.interpret_request]
  exact hc

end Ensures

/-! ## Unless something is seen -/

/-- The program ensures its conditions, unless something was seen for good when it ends. -/
def EnsuresUnless (P : List (Event Reply) → Prop) (pre : Assertion σ World Reply)
    (p : Program σ Reply α) (returns : α → Assertion σ World Reply)
    (fails : Failure → Assertion σ World Reply) (stops : Assertion σ World Reply) : Prop :=
  Ensures answer pre p (fun a => Unless P (returns a)) (fun e => Unless P (fails e)) (Unless P stops)

namespace EnsuresUnless

variable {answer} {P : List (Event Reply) → Prop} {pre pre' stops : Assertion σ World Reply}
  {returns returns' : α → Assertion σ World Reply}
  {fails fails' : Failure → Assertion σ World Reply} {p : Program σ Reply α}

theorem of_ensures (h : Ensures answer pre p returns fails stops) :
    EnsuresUnless answer P pre p returns fails stops :=
  h.mono (fun _ _ _ h => h) (fun _ _ _ _ h => .inr h) (fun _ _ _ _ h => .inr h) fun _ _ _ h => .inr h

/-- Once it was seen, nothing else is asked for. -/
theorem seen (hP : Lasting P) :
    EnsuresUnless answer P (fun past _ _ => P past) p returns fails stops := by
  intro past s w hseen
  -- however the program ends, it was seen before, and the events only get more
  have hlater := hP past (p.run answer s w).events hseen
  cases (p.run answer s w).ending <;> exact .inl hlater

/-- A program has to do its work only where it was not seen before. -/
theorem unless_pre (hP : Lasting P) (h : EnsuresUnless answer P pre p returns fails stops) :
    EnsuresUnless answer P (Unless P pre) p returns fails stops := (seen hP).or_pre h

theorem mono (h : EnsuresUnless answer P pre p returns fails stops)
    (hpre : ∀ past s w, pre' past s w → pre past s w)
    (hreturns : ∀ a past s w, returns a past s w → returns' a past s w)
    (hfails : ∀ e past s w, fails e past s w → fails' e past s w) :
    EnsuresUnless answer P pre' p returns' fails' stops :=
  Ensures.mono h hpre (fun a past s w h => h.imp_right (hreturns a past s w))
    (fun e past s w h => h.imp_right (hfails e past s w)) fun _ _ _ h => h

theorem done {a : α} (h : ∀ past s w, pre past s w → returns a past s w) :
    EnsuresUnless answer P pre (.done a) returns fails stops := of_ensures (.done h)

theorem bind (hP : Lasting P) {m : α → Assertion σ World Reply} {returns : β → Assertion σ World Reply}
    {f : α → Program σ Reply β} (hp : EnsuresUnless answer P pre p m fails stops)
    (hf : ∀ a, EnsuresUnless answer P (m a) (f a) returns fails stops) :
    EnsuresUnless answer P pre (p.bind f) returns fails stops :=
  Ensures.bind hp fun a => unless_pre hP (hf a)

theorem orElse (hP : Lasting P) {m : Failure → Assertion σ World Reply}
    {handler : Failure → Program σ Reply α} (hp : EnsuresUnless answer P pre p returns m stops)
    (hhandler : ∀ e, EnsuresUnless answer P (m e) (handler e) returns fails stops) :
    EnsuresUnless answer P pre (p.orElse handler) returns fails stops :=
  Ensures.orElse hp fun e => unless_pre hP (hhandler e)

theorem andFinally (hP : Lasting P) {m : α → Assertion σ World Reply}
    {n : Failure → Assertion σ World Reply} {last : Program σ Reply Unit}
    (hp : EnsuresUnless answer P pre p m n stops)
    (hreturned : ∀ a, EnsuresUnless answer P (m a) last (fun _ => returns a) fails stops)
    (hfailed : ∀ e, EnsuresUnless answer P (n e) last (fun _ => fails e) fails stops) :
    EnsuresUnless answer P pre (p.andFinally last) returns fails stops :=
  Ensures.andFinally hp (fun a => unless_pre hP (hreturned a)) fun e => unless_pre hP (hfailed e)

end EnsuresUnless

end Program

end LineShell
