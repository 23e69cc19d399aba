import LineShell.Proofs.Program.Between
import LineShell.Proofs.Program.Footprint

/-!
# What is left of a program

A call that comes out badly is answered for by the programs around it, and the whole goes on with
something.  A `Sequel` names the calls in question and says what it means that a rest is left behind one of
them; it goes up through composed programs.  `Sequel.Of Q answer R p s w` says of each such call in a run
of `p` that something is left behind it, and `R` what that is, given what was seen before.

There is one rule for each way to compose programs.
-/

namespace LineShell

open Program

variable {σ Call World : Type} {Reply : Call → Type} {α β : Type}

/-- Calls, and what it means that a rest is left of a program behind one of them.  The rest of a composed
program is composed in the same way. -/
structure Sequel (σ : Type) {Call : Type} (Reply : Call → Type) : Type 1 where
  calls : Call → Prop
  leaves : {α : Type} → (c : Call) → (Except Failure (Reply c) → Program σ Reply α) → σ →
    Program σ Reply α → Prop
  bind : ∀ {α β : Type} {c : Call} {next : Except Failure (Reply c) → Program σ Reply α} {t : σ}
    {k : Program σ Reply α} (f : α → Program σ Reply β), leaves c next t k →
      leaves c (fun outcome => (next outcome).bind f) t (k.bind f)
  attempt : ∀ {α : Type} {c : Call} {next : Except Failure (Reply c) → Program σ Reply α} {t : σ}
    {k : Program σ Reply α}, leaves c next t k →
      leaves c (fun outcome => (next outcome).attempt) t k.attempt

namespace Sequel

/-- Something is left of a program behind each of the calls in a run of it. -/
def Of (Q : Sequel σ Reply) (answer : (c : Call) → World → Answer World Reply c)
    (R : List (Event Reply) → Call → Program σ Reply α → Prop) (p : Program σ Reply α) (s : σ)
    (w : World) : Prop :=
  ∀ past c next t v, Passes answer ⟨p, s, w⟩ past ⟨.call c next, t, v⟩ → Q.calls c →
    ∃ k, R past c k ∧ Q.leaves c next t k

namespace Of

variable {Q : Sequel σ Reply} {answer : (c : Call) → World → Answer World Reply c}
  {R : List (Event Reply) → Call → Program σ Reply α → Prop}
  {R' : List (Event Reply) → Call → Program σ Reply β → Prop} {p : Program σ Reply α} {s : σ} {w : World}

/-- What makes none of the calls has nothing to go on from. -/
theorem of_footprint {S : Scope σ Call} (hp : p.Footprint S) (hcalls : ∀ c, S.calls c → ¬Q.calls c) :
    Q.Of answer R p s w := fun _ _ _ _ _ hpass hc =>
  absurd hc (hcalls _ (hpass.within (hp s)).1)

theorem done (a : α) : Q.Of answer R (.done a) s w := by
  intro past c next t v hpass
  obtain ⟨-, hend⟩ := hpass.eq_of_end rfl
  cases hend

theorem outOfRounds : Q.Of answer R .outOfRounds s w := by
  intro past c next t v hpass
  obtain ⟨-, hend⟩ := hpass.eq_of_end rfl
  cases hend

theorem mono {R'' : List (Event Reply) → Call → Program σ Reply α → Prop} (hp : Q.Of answer R p s w)
    (hR : ∀ past c k, R past c k → R'' past c k) : Q.Of answer R'' p s w := by
  intro past c next t v hpass hc
  obtain ⟨k, hk, hleaves⟩ := hp past c next t v hpass hc
  exact ⟨k, hR past c k hk, hleaves⟩

/-- What is seen on the way is known of what was seen before. -/
theorem seen {P : List (Event Reply) → Prop} (hp : Q.Of answer R p s w)
    (hP : ∀ past x, Passes answer ⟨p, s, w⟩ past x → P past) :
    Q.Of answer (fun past c k => P past ∧ R past c k) p s w := by
  intro past c next t v hpass hc
  obtain ⟨k, hk, hleaves⟩ := hp past c next t v hpass hc
  exact ⟨k, ⟨hP past _ hpass, hk⟩, hleaves⟩

theorem bind {f : α → Program σ Reply β} (hp : Q.Of answer R p s w)
    (hR : ∀ past c k, R past c k → R' past c (k.bind f))
    (hf : ∀ a t v before, Passes answer ⟨p, s, w⟩ before ⟨.done a, t, v⟩ →
      Q.Of answer (fun past => R' (before ++ past)) (f a) t v) :
    Q.Of answer R' (p.bind f) s w := by
  intro past c next t v hpass hc
  rcases hpass.bind_call_cases rfl with
    ⟨next', hfirst, rfl⟩ | ⟨a, t', v', before, after, rfl, hdone, hlater⟩
  · obtain ⟨k, hk, hleaves⟩ := hp past c next' t v hfirst hc
    exact ⟨k.bind f, hR past c k hk, Q.bind f hleaves⟩
  · exact hf a t' v' before hdone after c next t v hlater hc

/-- What goes on with the outcome of a program does so with that of what is left of it, too. -/
theorem attempt_bind {f : Except Failure α → Program σ Reply β} (hp : Q.Of answer R p s w)
    (hR : ∀ past c k, R past c k → R' past c (k.attempt.bind f))
    (hf : ∀ outcome t v before, Q.Of answer (fun past => R' (before ++ past)) (f outcome) t v) :
    Q.Of answer R' (p.attempt.bind f) s w := by
  intro past c next t v hpass hc
  rcases hpass.attempt_call_cases rfl with
    ⟨next', hfirst, rfl⟩ | ⟨outcome, t', v', before, after, rfl, -, hlater⟩
  · obtain ⟨k, hk, hleaves⟩ := hp past c next' t v hfirst hc
    exact ⟨k.attempt.bind f, hR past c k hk, Q.bind f (Q.attempt hleaves)⟩
  · exact hf outcome t' v' before after c next t v hlater hc

/-- Behind a program that makes none of the calls. -/
theorem behind {f : α → Program σ Reply β} {S : Scope σ Call} (hp : p.Footprint S)
    (hcalls : ∀ c, S.calls c → ¬Q.calls c)
    (hf : ∀ a t v before, Passes answer ⟨p, s, w⟩ before ⟨.done a, t, v⟩ →
      Q.Of answer (fun past => R' (before ++ past)) (f a) t v) :
    Q.Of answer R' (p.bind f) s w :=
  bind (R := fun _ _ _ => False) (of_footprint hp hcalls) (fun _ _ _ h => h.elim) hf

end Of

end Sequel

end LineShell
