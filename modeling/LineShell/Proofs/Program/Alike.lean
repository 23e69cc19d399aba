import LineShell.Proofs.Program.Between

/-!
# Runs that are alike

A run may be repeated in a second world that is not quite the same.  The two runs are `Alike` when they
end in the same way and with the same state, in worlds that are related as those at the start, and show
the same but for events that are left out.

Where each call is answered alike so is a program that makes no others (`Within.alike`), and where this is
known of the calls on the way of a run only, the second run goes the same way (`Passes.alike`).  Where the
calls are carried out by programs it is enough that each of these runs alike from where the first run
has come to, between two calls (`Between.alike`).
-/

namespace LineShell

open Program

variable {σ Call Call' World : Type} {Reply : Call → Type} {Reply' : Call' → Type} {α β : Type}

/-- A call is answered in the same way in two worlds, and leaves them related. -/
structure Answer.Alike {c : Call} (A : World → World → Prop) (a a' : Answer World Reply c) : Prop where
  outcome : a'.outcome = a.outcome
  inner : a'.inner = a.inner
  world : A a.world a'.world

/-- Two runs that end in the same way with the same state, and show the same but for events that are
left out. -/
structure Outcome.Alike (A : World → World → Prop) (keep : Event Reply → Bool)
    (o o' : Outcome σ World Reply α) : Prop where
  ending : o'.ending = o.ending
  state : o'.state = o.state
  world : A o.world o'.world
  events : o'.events.filter keep = o.events.filter keep

variable {A : World → World → Prop} {keep : Event Reply → Bool}

namespace Outcome.Alike

variable {o o' : Outcome σ World Reply α}

/-- Runs that are alike stay so when programs follow that run alike from there. -/
theorem andThen {f f' : α → σ → World → Outcome σ World Reply β} (h : Outcome.Alike A keep o o')
    (hf : ∀ a, o.ending = .returned a →
      Outcome.Alike A keep (f a o.state o.world) (f' a o.state o'.world)) :
    Outcome.Alike A keep (o.andThen f) (o'.andThen f') := by
  unfold Outcome.andThen
  rw [h.ending, h.state]
  cases hend : o.ending with
  | returned a =>
      obtain ⟨hending, hstate, hworld, hevents⟩ := hf a hend
      refine ⟨hending, hstate, hworld, ?_⟩
      simp only [List.filter_append, h.events, hevents]
  | failed e => exact ⟨rfl, rfl, h.world, h.events⟩
  | outOfRounds => exact ⟨rfl, rfl, h.world, h.events⟩

theorem bind {p q : Program σ Reply α} {f : α → Program σ Reply β}
    {answer : (c : Call) → World → Answer World Reply c} {s : σ} {w v : World}
    (h : Outcome.Alike A keep (p.run answer s w) (q.run answer s v))
    (hf : ∀ a t w' v', A w' v' → Outcome.Alike A keep ((f a).run answer t w') ((f a).run answer t v')) :
    Outcome.Alike A keep ((p.bind f).run answer s w) ((q.bind f).run answer s v) := by
  rw [run_bind, run_bind]
  exact h.andThen fun a _ => hf a _ _ _ h.world

theorem attempt {p : Program σ Reply α} {answer : (c : Call) → World → Answer World Reply c} {s : σ}
    {w v : World} (h : Outcome.Alike A keep (p.run answer s w) (p.run answer s v)) :
    Outcome.Alike A keep (p.attempt.run answer s w) (p.attempt.run answer s v) := by
  rw [run_attempt, run_attempt]
  exact ⟨congrArg Ending.attempt h.ending, h.state, h.world, h.events⟩

end Outcome.Alike

/-! ## Where the calls are answered alike -/

variable {answer : (c : Call) → World → Answer World Reply c}

/-- A program whose calls are answered alike runs alike. -/
theorem Program.Within.alike {S : Scope σ Call} {p : Program σ Reply α}
    (hcall : ∀ c, S.calls c → ∀ w v, A w v → (answer c w).Alike A (answer c v)) {s : σ} {w v : World}
    (hp : p.Within S s) (hA : A w v) : Outcome.Alike A keep (p.run answer s w) (p.run answer s v) := by
  induction p generalizing s w v with
  | done a => exact ⟨rfl, rfl, hA, rfl⟩
  | fail e => exact ⟨rfl, rfl, hA, rfl⟩
  | outOfRounds => exact ⟨rfl, rfl, hA, rfl⟩
  | read next ih => exact ih s hp hA
  | write t next ih => exact ih hp.2 hA
  | call c next ih =>
      obtain ⟨houtcome, hinner, hworld⟩ := hcall c hp.1 w v hA
      obtain ⟨hending, hstate, hlast, hevents⟩ := ih (answer c w).outcome (hp.2 _) hworld
      simp only [run, houtcome, hinner]
      refine ⟨hending, hstate, hlast, ?_⟩
      rw [← List.cons_append, ← List.cons_append, List.filter_append, List.filter_append, hevents]
  | note entry next ih =>
      obtain ⟨hending, hstate, hlast, hevents⟩ := ih hp.2 hA
      refine ⟨hending, hstate, hlast, ?_⟩
      simp only [run, List.filter_cons, hevents]

theorem Program.Footprint.alike {S : Scope σ Call} {p : Program σ Reply α} (hp : p.Footprint S)
    (hcall : ∀ c, S.calls c → ∀ w v, A w v → (answer c w).Alike A (answer c v)) (s : σ) {w v : World}
    (hA : A w v) : Outcome.Alike A keep (p.run answer s w) (p.run answer s v) := (hp s).alike hcall hA

/-- Where each call on the way of a run is answered alike, a run in the second world goes through the same
points.  What is known of a call is what was seen before it and what is seen behind it. -/
theorem Passes.alike {x y : Point σ World Reply α} {past : List (Event Reply)}
    (hcall : ∀ before c next t w v after, Passes answer x before ⟨.call c next, t, w⟩ →
      Passes answer ⟨next (answer c w).outcome, t, (answer c w).world⟩ after y →
      past = before ++ .called c (answer c w).outcome :: (answer c w).inner ++ after → A w v →
        (answer c w).Alike A (answer c v))
    (h : Passes answer x past y) {v : World} (hA : A x.world v) :
    ∃ v', A y.world v' ∧ Passes answer ⟨x.rest, x.state, v⟩ past ⟨y.rest, y.state, v'⟩ := by
  -- the induction is on the way to a point, behind which the rest of the way is still to come
  have main : ∀ before z, Passes answer x before z → ∀ after, Passes answer z after y →
      past = before ++ after →
        ∃ v', A z.world v' ∧ Passes answer ⟨x.rest, x.state, v⟩ before ⟨z.rest, z.state, v'⟩ := by
    intro before z hz
    induction hz with
    | start => exact fun _ _ _ => ⟨v, hA, .start⟩
    | @next before z z' hpass hnext ih =>
        intro after hafter hpast
        obtain ⟨v', hv', hpass'⟩ := ih (z.shown answer ++ after) ((Passes.start.next hnext).trans hafter)
          (by rw [hpast, List.append_assoc])
        obtain ⟨rest, t, u⟩ := z
        cases rest with
        | done a => cases hnext
        | fail e => cases hnext
        | outOfRounds => cases hnext
        | read next => cases hnext; exact ⟨v', hv', hpass'.next rfl⟩
        | write t next => cases hnext; exact ⟨v', hv', hpass'.next rfl⟩
        | note entry next => cases hnext; exact ⟨v', hv', hpass'.next rfl⟩
        | call c next =>
            cases hnext
            obtain ⟨houtcome, hinner, hworld⟩ := hcall before c next t u v' after hpass hafter hpast hv'
            have hstep := hpass'.next rfl
            simp only [Point.shown, houtcome, hinner] at hstep
            exact ⟨_, hworld, hstep⟩
  exact main past y h [] .start (List.append_nil past).symm

/-! ## Where the calls are carried out alike -/

variable {carryOut : (c : Call') → Program σ Reply (Reply' c)}

/-- A program runs alike where each of its calls is carried out alike from the point between two calls at
which the first run makes it. -/
theorem Between.alike {p : Program σ Reply' α} {s : σ} {w v : World}
    (hcall : ∀ past inner c next t w', Between carryOut answer ⟨p, s, w⟩ past inner ⟨.call c next, t, w'⟩ →
      ∀ v', A w' v' → Outcome.Alike A keep ((carryOut c).run answer t w') ((carryOut c).run answer t v'))
    (hA : A w v) :
    Outcome.Alike A keep ((p.interpret carryOut).run answer s w) ((p.interpret carryOut).run answer s v) := by
  -- the induction is on what is left of the program at a point between two calls
  have main : ∀ (rest : Program σ Reply' α) past inner t w' v',
      Between carryOut answer ⟨p, s, w⟩ past inner ⟨rest, t, w'⟩ → A w' v' →
        Outcome.Alike A keep ((rest.interpret carryOut).run answer t w')
          ((rest.interpret carryOut).run answer t v') := by
    intro rest
    induction rest with
    | done a => exact fun _ _ _ _ _ _ hA => ⟨rfl, rfl, hA, rfl⟩
    | fail e => exact fun _ _ _ _ _ _ hA => ⟨rfl, rfl, hA, rfl⟩
    | outOfRounds => exact fun _ _ _ _ _ _ hA => ⟨rfl, rfl, hA, rfl⟩
    | read next ih => exact fun past inner t w' v' hx hA => ih t past inner t w' v' hx.read hA
    | write u next ih => exact fun past inner t w' v' hx hA => ih past inner u w' v' hx.write hA
    | note entry next ih =>
        intro past inner t w' v' hx hA
        obtain ⟨hending, hstate, hlast, hevents⟩ := ih _ _ t w' v' hx.note hA
        refine ⟨hending, hstate, hlast, ?_⟩
        simp only [interpret, run, List.filter_cons, hevents]
    | call c next ih =>
        intro past inner t w' v' hx hA
        have hdone := hcall past inner c next t w' hx v' hA
        simp only [interpret]
        rw [run_bind, run_bind]
        refine hdone.attempt.andThen fun outcome hend => ?_
        rw [run_attempt] at hend
        have hcarried : ((carryOut c).run answer t w').ending = endingOf outcome := by
          cases hcarried : ((carryOut c).run answer t w').ending <;> rw [hcarried] at hend <;>
            cases hend <;> rfl
        rw [run_attempt, run_attempt]
        exact ih outcome _ _ _ _ _ (hx.called hcarried) hdone.world
  exact main p [] [] s w v .start hA

end LineShell
