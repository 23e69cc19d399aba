import LineShell.Proofs.Program.Ensures

/-!
# Two runs side by side

The same program may be run in two ways: in a world that answers its calls at once, say, and in one
where each call is carried out by a program over other calls.  A `Machine` is one such way, and a
`Moment` is where a run of it has come to.

`Relates M N P pre p q returns fails stops` compares a run of `p` on one machine with a run of `q` on
another one.  Started at moments that are related by `pre`, the two end alike, and the moments then are
related as the ending says.  Nothing is asked for once `P` was seen in the first of the two runs.

As for `Ensures` there is one rule for each way to compose programs.  Where both machines run the same
program with the same result, `Agrees M N P A p` says so in short.
-/

namespace LineShell

open Program

universe u

variable {σ Call : Type} {Reply : Call → Type} {α β γ δ : Type}

/-- A way to run a program: each call is carried out by a program over other calls, and a world
answers these. -/
structure Machine (σ : Type) {Call : Type} (Reply : Call → Type) : Type 1 where
  World : Type
  Inner : Type
  InnerReply : Inner → Type
  carryOut : (c : Call) → Program σ InnerReply (Reply c)
  answer : (d : Inner) → World → Answer World InnerReply d

namespace Machine

/-- Where a run has come to: what was seen so far, the state, and the world. -/
structure Moment (M : Machine σ Reply) : Type where
  past : List (Event M.InnerReply)
  state : σ
  world : M.World

variable (M : Machine σ Reply)

/-- A run from a moment on. -/
def run (p : Program σ Reply α) (m : M.Moment) : Outcome σ M.World M.InnerReply α :=
  (p.interpret M.carryOut).run M.answer m.state m.world

/-- How a run from a moment on ends. -/
def ending (p : Program σ Reply α) (m : M.Moment) : Ending α := (M.run p m).ending

/-- Where a run from a moment on ends. -/
def after (p : Program σ Reply α) (m : M.Moment) : M.Moment :=
  ⟨m.past ++ (M.run p m).events, (M.run p m).state, (M.run p m).world⟩

/-! ## Composed programs -/

variable {M} {p : Program σ Reply α} {f : α → Program σ Reply β} {m : M.Moment}

theorem run_done (a : α) : M.run (done a) m = ⟨.returned a, m.state, m.world, []⟩ := rfl

theorem run_fail (e : Failure) :
    M.run (fail e : Program σ Reply α) m = ⟨.failed e, m.state, m.world, []⟩ := rfl

theorem run_outOfRounds :
    M.run (outOfRounds : Program σ Reply α) m = ⟨.outOfRounds, m.state, m.world, []⟩ := rfl

theorem run_request (c : Call) :
    M.run (request c) m = (M.carryOut c).run M.answer m.state m.world := by
  unfold run
  rw [interpret_request]

/-- A run without events only changes the state. -/
theorem after_of_run {ending : Ending α} {s : σ} (h : M.run p m = ⟨ending, s, m.world, []⟩) :
    M.after p m = { m with state := s } := by
  unfold after
  rw [h, List.append_nil]

theorem after_done (a : α) : M.after (done a) m = m := after_of_run (run_done a)

theorem after_fail (e : Failure) : M.after (fail e : Program σ Reply α) m = m :=
  after_of_run (run_fail e)

theorem after_outOfRounds : M.after (outOfRounds : Program σ Reply α) m = m :=
  after_of_run run_outOfRounds

theorem run_bind : M.run (p.bind f) m =
    (M.run p m).andThen fun a s w => ((f a).interpret M.carryOut).run M.answer s w := by
  unfold run
  rw [interpret_bind, Program.run_bind]

/-- Behind a program that returned the second one runs. -/
theorem bind_returned {a : α} (h : M.ending p m = .returned a) :
    M.ending (p.bind f) m = M.ending (f a) (M.after p m) ∧
      M.after (p.bind f) m = M.after (f a) (M.after p m) := by
  have hrun : M.run (p.bind f) m = { M.run (f a) (M.after p m) with
      events := (M.run p m).events ++ (M.run (f a) (M.after p m)).events } := by
    rw [run_bind, Outcome.andThen]
    rw [ending] at h
    rw [h]
    rfl
  unfold ending
  refine ⟨by rw [hrun], ?_⟩
  rw [after, hrun]
  simp only [after, List.append_assoc]

/-- The second of two programs runs where the first one returned. -/
theorem bind_of_run {a : α} {s : σ} {w : M.World} {events : List (Event M.InnerReply)}
    (h : M.run p m = ⟨.returned a, s, w, events⟩) :
    M.ending (p.bind f) m = M.ending (f a) ⟨m.past ++ events, s, w⟩ ∧
      M.after (p.bind f) m = M.after (f a) ⟨m.past ++ events, s, w⟩ := by
  have hafter : M.after p m = ⟨m.past ++ events, s, w⟩ := by rw [after, h]
  rw [← hafter]
  exact bind_returned (by rw [ending, h])

/-- Behind a program that failed nothing runs. -/
theorem bind_failed {e : Failure} (h : M.ending p m = .failed e) :
    M.ending (p.bind f) m = .failed e ∧ M.after (p.bind f) m = M.after p m := by
  have hrun : M.run (p.bind f) m =
      ⟨.failed e, (M.run p m).state, (M.run p m).world, (M.run p m).events⟩ := by
    rw [run_bind, Outcome.andThen]
    rw [ending] at h
    rw [h]
  exact ⟨by rw [ending, hrun], by rw [after, hrun]; rfl⟩

theorem bind_outOfRounds (h : M.ending p m = .outOfRounds) :
    M.ending (p.bind f) m = .outOfRounds ∧ M.after (p.bind f) m = M.after p m := by
  have hrun : M.run (p.bind f) m =
      ⟨.outOfRounds, (M.run p m).state, (M.run p m).world, (M.run p m).events⟩ := by
    rw [run_bind, Outcome.andThen]
    rw [ending] at h
    rw [h]
  exact ⟨by rw [ending, hrun], by rw [after, hrun]; rfl⟩

/-- What the first of two programs has shown stays seen. -/
theorem exists_after_bind : ∃ later, (M.after (p.bind f) m).past = (M.after p m).past ++ later := by
  cases h : M.ending p m with
  | returned a => exact ⟨_, by rw [(bind_returned h).2]; rfl⟩
  | failed e => exact ⟨[], by rw [(bind_failed h).2, List.append_nil]⟩
  | outOfRounds => exact ⟨[], by rw [(bind_outOfRounds h).2, List.append_nil]⟩

theorem run_attempt :
    M.run p.attempt m = { M.run p m with ending := (M.run p m).ending.attempt } := by
  unfold run
  rw [interpret_attempt, Program.run_attempt]

theorem ending_attempt : M.ending p.attempt m = (M.ending p m).attempt := by
  unfold ending
  rw [run_attempt]

theorem after_attempt : M.after p.attempt m = M.after p m := by
  unfold after
  rw [run_attempt]

end Machine

/-- A condition on two moments, one of a run on each machine. -/
abbrev Relation (M N : Machine σ Reply) : Type := M.Moment → N.Moment → Prop

variable {M N : Machine σ Reply}

/-- The condition that goes with two endings, which have to be of one kind. -/
def Ending.both (returns : α → β → Relation M N) (fails : Failure → Failure → Relation M N)
    (stops : Relation M N) : Ending α → Ending β → Relation M N
  | .returned a, .returned b => returns a b
  | .failed e, .failed e' => fails e e'
  | .outOfRounds, .outOfRounds => stops
  | _, _ => fun _ _ => False

namespace Program

variable (M N) (P : List (Event M.InnerReply) → Prop)

/-- Started where `pre` holds, the two programs end alike, and as the conditions say, unless `P` was
seen by then. -/
def Relates (pre : Relation M N) (p : Program σ Reply α) (q : Program σ Reply β)
    (returns : α → β → Relation M N) (fails : Failure → Failure → Relation M N)
    (stops : Relation M N) : Prop :=
  ∀ l r, pre l r → P (M.after p l).past ∨
    Ending.both returns fails stops (M.ending p l) (N.ending q r) (M.after p l) (N.after q r)

namespace Relates

variable {M N} {P} {pre pre' stops stops' : Relation M N} {returns returns' : α → β → Relation M N}
  {fails fails' : Failure → Failure → Relation M N} {p : Program σ Reply α} {q : Program σ Reply β}

/-- More may be assumed, and less may be claimed. -/
theorem mono (h : Relates M N P pre p q returns fails stops)
    (hpre : ∀ l r, pre' l r → pre l r) (hreturns : ∀ a b l r, returns a b l r → returns' a b l r)
    (hfails : ∀ e e' l r, fails e e' l r → fails' e e' l r)
    (hstops : ∀ l r, stops l r → stops' l r) : Relates M N P pre' p q returns' fails' stops' := by
  intro l r hp
  refine (h l r (hpre l r hp)).imp_right fun hboth => ?_
  cases hl : M.ending p l <;> cases hr : N.ending q r <;> rw [hl, hr] at hboth
  case returned.returned => exact hreturns _ _ _ _ hboth
  case failed.failed => exact hfails _ _ _ _ hboth
  case outOfRounds.outOfRounds => exact hstops _ _ hboth
  all_goals exact hboth.elim

theorem weaken (h : Relates M N P pre p q returns fails stops) (hpre : ∀ l r, pre' l r → pre l r) :
    Relates M N P pre' p q returns fails stops :=
  h.mono hpre (fun _ _ _ _ h => h) (fun _ _ _ _ h => h) fun _ _ h => h

theorem mono_returns (h : Relates M N P pre p q returns fails stops)
    (hreturns : ∀ a b l r, returns a b l r → returns' a b l r) :
    Relates M N P pre p q returns' fails stops :=
  h.mono (fun _ _ h => h) hreturns (fun _ _ _ _ h => h) fun _ _ h => h

theorem mono_fails (h : Relates M N P pre p q returns fails stops)
    (hfails : ∀ e e' l r, fails e e' l r → fails' e e' l r) :
    Relates M N P pre p q returns fails' stops :=
  h.mono (fun _ _ h => h) (fun _ _ _ _ h => h) hfails fun _ _ h => h

/-- Programs that return the same and fail in the same way come to the same ending. -/
theorem ending_eq {q : Program σ Reply α} {A : Relation M N}
    (h : Relates M N P pre p q (fun a b l r => a = b ∧ A l r) (fun e e' l r => e = e' ∧ A l r) A)
    {l : M.Moment} {r : N.Moment} (hpre : pre l r) (hP : ¬P (M.after p l).past) :
    N.ending q r = M.ending p l ∧ A (M.after p l) (N.after q r) := by
  have hboth := (h l r hpre).resolve_left hP
  cases hl : M.ending p l <;> cases hr : N.ending q r <;> rw [hl, hr] at hboth
  case returned.returned => exact ⟨congrArg _ hboth.1.symm, hboth.2⟩
  case failed.failed => exact ⟨congrArg _ hboth.1.symm, hboth.2⟩
  case outOfRounds.outOfRounds => exact ⟨rfl, hboth⟩
  all_goals exact hboth.elim

theorem done {a : α} {b : β} (h : ∀ l r, pre l r → returns a b l r) :
    Relates M N P pre (.done a) (.done b) returns fails stops := by
  intro l r hp
  rw [Machine.after_done, Machine.after_done]
  exact .inr (h l r hp)

theorem fail {e e' : Failure} (h : ∀ l r, pre l r → fails e e' l r) :
    Relates M N P pre (.fail e : Program σ Reply α) (.fail e' : Program σ Reply β) returns fails
      stops := by
  intro l r hp
  rw [Machine.after_fail, Machine.after_fail]
  exact .inr (h l r hp)

theorem outOfRounds (h : ∀ l r, pre l r → stops l r) :
    Relates M N P pre (.outOfRounds : Program σ Reply α) (.outOfRounds : Program σ Reply β) returns
      fails stops := by
  intro l r hp
  rw [Machine.after_outOfRounds, Machine.after_outOfRounds]
  exact .inr (h l r hp)

/-- `m` is what holds between the two halves. -/
theorem bind (hP : Lasting P) {m : α → β → Relation M N} {returns : γ → δ → Relation M N}
    {f : α → Program σ Reply γ} {g : β → Program σ Reply δ}
    (hp : Relates M N P pre p q m fails stops)
    (hf : ∀ a b, Relates M N P (m a b) (f a) (g b) returns fails stops) :
    Relates M N P pre (p.bind f) (q.bind g) returns fails stops := by
  intro l r hpre
  rcases hp l r hpre with hseen | hboth
  · obtain ⟨later, hlater⟩ := Machine.exists_after_bind (p := p) (f := f) (m := l)
    rw [hlater]
    exact .inl (hP _ _ hseen)
  · -- the two first halves ended alike, so either both second halves run or none does
    cases hl : M.ending p l <;> cases hr : N.ending q r <;> rw [hl, hr] at hboth
    case returned.returned a b =>
      rw [(Machine.bind_returned hl).1, (Machine.bind_returned hl).2, (Machine.bind_returned hr).1,
        (Machine.bind_returned hr).2]
      exact hf a b _ _ hboth
    case failed.failed e e' =>
      rw [(Machine.bind_failed hl).1, (Machine.bind_failed hl).2, (Machine.bind_failed hr).1,
        (Machine.bind_failed hr).2]
      exact .inr hboth
    case outOfRounds.outOfRounds =>
      rw [(Machine.bind_outOfRounds hl).1, (Machine.bind_outOfRounds hl).2,
        (Machine.bind_outOfRounds hr).1, (Machine.bind_outOfRounds hr).2]
      exact .inr hboth
    all_goals exact hboth.elim

/-- Attempts return the failures of what was attempted. -/
theorem attempt (h : Relates M N P pre p q returns fails stops) :
    Relates M N P pre p.attempt q.attempt
      (fun
        | .ok a, .ok b => returns a b
        | .error e, .error e' => fails e e'
        | _, _ => fun _ _ => False) fails' stops := by
  intro l r hpre
  rw [Machine.ending_attempt, Machine.ending_attempt, Machine.after_attempt, Machine.after_attempt]
  refine (h l r hpre).imp_right fun hboth => ?_
  cases hl : M.ending p l <;> cases hr : N.ending q r <;> rw [hl, hr] at hboth
  case returned.returned => exact hboth
  case failed.failed => exact hboth
  case outOfRounds.outOfRounds => exact hboth
  all_goals exact hboth.elim

/-- What goes on with the outcomes of two attempts goes on with two results or with two failures. -/
theorem attempt_bind (hP : Lasting P) {m : α → β → Relation M N} {n : Failure → Failure → Relation M N}
    {returns : γ → δ → Relation M N} {f : Except Failure α → Program σ Reply γ}
    {g : Except Failure β → Program σ Reply δ} (hp : Relates M N P pre p q m n stops)
    (hok : ∀ a b, Relates M N P (m a b) (f (.ok a)) (g (.ok b)) returns fails stops)
    (herror : ∀ e e', Relates M N P (n e e') (f (.error e)) (g (.error e')) returns fails stops) :
    Relates M N P pre (p.attempt.bind f) (q.attempt.bind g) returns fails stops := by
  refine bind hP hp.attempt fun x y => ?_
  cases x <;> cases y
  case ok.ok a b => exact hok a b
  case error.error e e' => exact herror e e'
  all_goals exact fun _ _ h => h.elim

/-- The handlers start where the programs failed. -/
theorem orElse (hP : Lasting P) {n : Failure → Failure → Relation M N}
    {handler : Failure → Program σ Reply α} {handler' : Failure → Program σ Reply β}
    (hp : Relates M N P pre p q returns n stops)
    (hhandler : ∀ e e', Relates M N P (n e e') (handler e) (handler' e') returns fails stops) :
    Relates M N P pre (p.orElse handler) (q.orElse handler') returns fails stops :=
  attempt_bind hP hp (fun _ _ => done fun _ _ h => h) hhandler

/-- The last programs run in any case, and the endings are those of the first ones unless they fail. -/
theorem andFinally (hP : Lasting P) {m : α → β → Relation M N} {n : Failure → Failure → Relation M N}
    {last last' : Program σ Reply Unit} (hp : Relates M N P pre p q m n stops)
    (hreturned : ∀ a b, Relates M N P (m a b) last last' (fun _ _ => returns a b) fails stops)
    (hfailed : ∀ e e', Relates M N P (n e e') last last' (fun _ _ => fails e e') fails stops) :
    Relates M N P pre (p.andFinally last) (q.andFinally last') returns fails stops := by
  refine attempt_bind hP hp (fun a b => ?_) fun e e' => ?_
  · exact bind hP (hreturned a b) fun _ _ => done fun _ _ h => h
  · exact bind hP (hfailed e e') fun _ _ => fail fun _ _ h => h

/-- What goes on with a result that is known goes on with it on both sides. -/
theorem ofExcept_bind {x : Except Failure γ} {f : γ → Program σ Reply α} {g : γ → Program σ Reply β}
    (hok : ∀ a, x = .ok a → Relates M N P pre (f a) (g a) returns fails stops)
    (herror : ∀ e, x = .error e → ∀ l r, pre l r → fails e e l r) :
    Relates M N P pre ((ofExcept x).bind f) ((ofExcept x).bind g) returns fails stops := by
  cases x with
  | ok a => exact hok a rfl
  | error e => exact fail (herror e rfl)

/-- What goes on with the states may rely on them being the states. -/
theorem state_bind {f : σ → Program σ Reply α} {g : σ → Program σ Reply β}
    (hf : ∀ s t, Relates M N P (fun l r => (l.state = s ∧ r.state = t) ∧ pre l r) (f s) (g t) returns
      fails stops) : Relates M N P pre (state.bind f) (state.bind g) returns fails stops := by
  intro l r hpre
  exact hf l.state r.state l r ⟨⟨rfl, rfl⟩, hpre⟩

theorem update {f g : σ → σ} {returns : Unit → Unit → Relation M N}
    (h : ∀ l r, pre l r →
      returns () () { l with state := f l.state } { r with state := g r.state }) :
    Relates M N P pre (update f) (update g) returns fails stops := by
  intro l r hpre
  have hl : M.after (Program.update f) l = { l with state := f l.state } := Machine.after_of_run rfl
  have hr : N.after (Program.update g) r = { r with state := g r.state } := Machine.after_of_run rfl
  rw [hl, hr]
  exact .inr (h l r hpre)

theorem log {entry entry' : Log.Entry} {returns : Unit → Unit → Relation M N}
    (h : ∀ l r, pre l r → returns () () { l with past := l.past ++ [.logged entry] }
      { r with past := r.past ++ [.logged entry'] }) :
    Relates M N P pre (log entry) (log entry') returns fails stops := by
  intro l r hpre
  exact .inr (h l r hpre)

/-- A fact that does not depend on the moments may be used from the start. -/
theorem and_pre {φ : Prop} (h : φ → Relates M N P pre p q returns fails stops) :
    Relates M N P (fun l r => φ ∧ pre l r) p q returns fails stops :=
  fun l r hpre => h hpre.1 l r hpre.2

/-- What is only known to exist before may be named. -/
theorem exists_pre {ι : Sort u} {pre : ι → Relation M N}
    (h : ∀ i, Relates M N P (pre i) p q returns fails stops) :
    Relates M N P (fun l r => ∃ i, pre i l r) p q returns fails stops :=
  fun l r ⟨i, hpre⟩ => h i l r hpre

end Relates

/-! ## The same program on both machines -/

/-- The machines agree on a program: started where `A` holds it ends in the same way on both, and `A`
holds again. -/
def Agrees (A : Relation M N) (p : Program σ Reply α) : Prop :=
  Relates M N P A p p (fun a b l r => a = b ∧ A l r) (fun e e' l r => e = e' ∧ A l r) A

namespace Agrees

variable {M N} {P} {A : Relation M N} {p : Program σ Reply α}

theorem done (a : α) : Agrees M N P A (.done a : Program σ Reply α) :=
  Relates.done fun _ _ h => ⟨rfl, h⟩

theorem fail (e : Failure) : Agrees M N P A (.fail e : Program σ Reply α) :=
  Relates.fail fun _ _ h => ⟨rfl, h⟩

theorem ofExcept (x : Except Failure α) : Agrees M N P A (.ofExcept x : Program σ Reply α) := by
  cases x with
  | ok a => exact done a
  | error e => exact fail e

theorem bind (hP : Lasting P) {f : α → Program σ Reply β} (hp : Agrees M N P A p)
    (hf : ∀ a, Agrees M N P A (f a)) : Agrees M N P A (p.bind f) := by
  refine Relates.bind hP hp fun a b => Relates.and_pre fun hab => ?_
  subst hab
  exact hf a

/-- A whole whose first part the machines agree on, and whose second part relates them in its own
way. -/
theorem bind_relates (hP : Lasting P) {B : Relation M N} {returns : β → γ → Relation M N}
    {f : α → Program σ Reply β} {g : α → Program σ Reply γ} (hp : Agrees M N P A p)
    (hA : ∀ l r, A l r → B l r)
    (hf : ∀ a, Relates M N P A (f a) (g a) returns (fun e e' l r => e = e' ∧ B l r) B) :
    Relates M N P A (p.bind f) (p.bind g) returns (fun e e' l r => e = e' ∧ B l r) B := by
  refine Relates.bind hP (Relates.mono hp (fun _ _ h => h) (fun _ _ _ _ h => h)
    (fun _ _ l r h => ⟨h.1, hA l r h.2⟩) hA) fun a b => Relates.and_pre fun hab => ?_
  subst hab
  exact hf a

theorem attempt (hp : Agrees M N P A p) : Agrees M N P A p.attempt := by
  refine (Relates.attempt hp).mono_returns fun x y l r h => ?_
  cases x <;> cases y
  case ok.ok => exact ⟨by rw [h.1], h.2⟩
  case error.error => exact ⟨by rw [h.1], h.2⟩
  all_goals exact h.elim

theorem orElse (hP : Lasting P) {handler : Failure → Program σ Reply α} (hp : Agrees M N P A p)
    (hhandler : ∀ e, Agrees M N P A (handler e)) : Agrees M N P A (p.orElse handler) := by
  refine bind hP hp.attempt fun outcome => ?_
  cases outcome with
  | ok a => exact done a
  | error e => exact hhandler e

theorem andFinally (hP : Lasting P) {last : Program σ Reply Unit} (hp : Agrees M N P A p)
    (hlast : Agrees M N P A last) : Agrees M N P A (p.andFinally last) :=
  bind hP hp.attempt fun outcome => bind hP hlast fun _ => ofExcept outcome

end Agrees

end Program

end LineShell
