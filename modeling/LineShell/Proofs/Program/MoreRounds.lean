import LineShell.Proofs.Program.Run

/-!
# More rounds

A loop is given a number of rounds and stops when they are used up, so a program with loops is one
program for each number of rounds.  `Prolongs answer q p` says that `q` goes on where `p` had to stop,
and does nothing else differently: wherever `p` ends of its own, `q` runs just as `p` does.

A program with more rounds prolongs the one with fewer, and the rules of this file put that together
from the parts.  How many rounds a program was given can then not be told from a run that ended of its
own.
-/

namespace LineShell.Program

variable {σ Call World : Type} {Reply : Call → Type} {α β : Type}

/-- Wherever the second program does not stop for want of rounds, the first runs as it does. -/
def Prolongs (answer : (c : Call) → World → Answer World Reply c) (q p : Program σ Reply α) : Prop :=
  ∀ s w, (p.run answer s w).ending ≠ .outOfRounds → q.run answer s w = p.run answer s w

namespace Prolongs

variable {answer : (c : Call) → World → Answer World Reply c} {p q r : Program σ Reply α}

theorem refl (p : Program σ Reply α) : Prolongs answer p p := fun _ _ _ => rfl

theorem trans (hrq : Prolongs answer r q) (hqp : Prolongs answer q p) : Prolongs answer r p := by
  intro s w hends
  have hq := hqp s w hends
  calc r.run answer s w = q.run answer s w := hrq s w (by rwa [hq])
    _ = p.run answer s w := hq

/-- Whatever goes on prolongs a program that has no rounds left. -/
theorem outOfRounds : Prolongs answer q .outOfRounds := fun _ _ hends => absurd rfl hends

theorem bind {f g : α → Program σ Reply β} (hp : Prolongs answer q p)
    (hf : ∀ a, Prolongs answer (g a) (f a)) : Prolongs answer (q.bind g) (p.bind f) := by
  intro s w hends
  rw [run_bind] at hends ⊢
  -- the first program ended of its own, or else the whole would have stopped with it
  have hfirst : (p.run answer s w).ending ≠ .outOfRounds := by
    intro hstop
    apply hends
    rw [Outcome.andThen, hstop]
  rw [run_bind, hp s w hfirst]
  unfold Outcome.andThen at hends ⊢
  cases hend : (p.run answer s w).ending with
  | returned a =>
      rw [hend] at hends
      dsimp only at hends ⊢
      rw [hf a _ _ hends]
  | failed e => rfl
  | outOfRounds => exact absurd hend hfirst

theorem attempt (hp : Prolongs answer q p) : Prolongs answer q.attempt p.attempt := by
  intro s w hends
  rw [run_attempt] at hends ⊢
  have hfirst : (p.run answer s w).ending ≠ .outOfRounds := by
    intro hstop
    apply hends
    rw [hstop]
    rfl
  rw [run_attempt, hp s w hfirst]

theorem orElse {handler : Failure → Program σ Reply α} (hp : Prolongs answer q p) :
    Prolongs answer (q.orElse handler) (p.orElse handler) := hp.attempt.bind fun _ => refl _

theorem andFinally {last : Program σ Reply Unit} (hp : Prolongs answer q p) :
    Prolongs answer (q.andFinally last) (p.andFinally last) := hp.attempt.bind fun _ => refl _

end Prolongs

/-- Programs of which each prolongs the one before prolong all those before. -/
theorem prolongs_of_le {answer : (c : Call) → World → Answer World Reply c}
    {p : Nat → Program σ Reply α} (hstep : ∀ rounds, Prolongs answer (p (rounds + 1)) (p rounds))
    {fewer more : Nat} (hle : fewer ≤ more) : Prolongs answer (p more) (p fewer) := by
  induction hle with
  | refl => exact .refl _
  | step _ ih => exact (hstep _).trans ih

end LineShell.Program
