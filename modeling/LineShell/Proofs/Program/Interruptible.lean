import LineShell.Proofs.Program.Passage

/-!
# Programs that let an interrupt through

An interrupt reaches a program as the failure of the call it is at, and goes up from there through
whatever the program has to say about failures.  A program is `Interruptible` when nothing on the way up
takes it for one of its own: whichever call is interrupted, what is then left of the program is what
`remains` says.  In the other direction, the program fails with an interrupt only where a call did.

The predicate is read off the tree, for any answers.  Some events are `beyond` it, as behind them the
program is not what it was: nothing is asked of the program after one of them.

`LetsThrough` is the case in which nothing at all remains to be done.  `Passes.interruptible` carries
the predicate to the points of a run.
-/

namespace LineShell

open Program

variable {σ Call World : Type} {Reply : Call → Type} {α β : Type}

namespace Program

/-- However its calls are answered, `remains` describes what is left of the program where one of them
is interrupted; otherwise it does not fail with an interrupt, and `post` describes what it returns. -/
def Interruptible (beyond : Event Reply → Prop) (remains : Program σ Reply α → Prop)
    (post : α → Prop) : Program σ Reply α → Prop
  | done a => post a
  | fail e => e ≠ .interrupt
  | outOfRounds => True
  | read next => ∀ s, (next s).Interruptible beyond remains post
  | write _ next => next.Interruptible beyond remains post
  | call c next =>
    (¬beyond (.called c (.error .interrupt)) → remains (next (.error .interrupt))) ∧
      ∀ outcome, outcome ≠ .error .interrupt → ¬beyond (.called c outcome) →
        (next outcome).Interruptible beyond remains post
  | note _ next => next.Interruptible beyond remains post

namespace Interruptible

variable {beyond : Event Reply → Prop} {remains : Program σ Reply α → Prop}
  {remains' : Program σ Reply β → Prop} {post : α → Prop} {post' : β → Prop} {p : Program σ Reply α}

/-- A program that makes no call any more does not fail with an interrupt. -/
theorem ofExcept {outcome : Except Failure α} (hok : ∀ a, outcome = .ok a → post a)
    (herror : outcome ≠ .error .interrupt) :
    (ofExcept outcome : Program σ Reply α).Interruptible beyond remains post := by
  cases outcome with
  | ok a => exact hok a rfl
  | error e =>
      intro he
      rw [he] at herror
      exact herror rfl

theorem bind {f : α → Program σ Reply β} (hp : p.Interruptible beyond remains post)
    (hremains : ∀ k, remains k → remains' (k.bind f))
    (hf : ∀ a, post a → (f a).Interruptible beyond remains' post') :
    (p.bind f).Interruptible beyond remains' post' := by
  induction p with
  | done a => exact hf a hp
  | fail e => exact hp
  | outOfRounds => trivial
  | read next ih => exact fun s => ih s (hp s)
  | write t next ih => exact ih hp
  | call c next ih =>
      refine ⟨fun hnot => hremains _ (hp.1 hnot), fun outcome hne hnot => ?_⟩
      exact ih outcome (hp.2 outcome hne hnot)
  | note entry next ih => exact ih hp

/-- What goes on with the outcome of a program sees an interrupt only where a call was interrupted. -/
theorem attempt_bind {f : Except Failure α → Program σ Reply β}
    (hp : p.Interruptible beyond remains post)
    (hremains : ∀ k, remains k → remains' (k.attempt.bind f))
    (hok : ∀ a, post a → (f (.ok a)).Interruptible beyond remains' post')
    (herror : ∀ e, e ≠ .interrupt → (f (.error e)).Interruptible beyond remains' post') :
    (p.attempt.bind f).Interruptible beyond remains' post' := by
  induction p with
  | done a => exact hok a hp
  | fail e => exact herror e hp
  | outOfRounds => trivial
  | read next ih => exact fun s => ih s (hp s)
  | write t next ih => exact ih hp
  | call c next ih =>
      refine ⟨fun hnot => hremains _ (hp.1 hnot), fun outcome hne hnot => ?_⟩
      exact ih outcome (hp.2 outcome hne hnot)
  | note entry next ih => exact ih hp

theorem mono {weaker : Program σ Reply α → Prop} {more : α → Prop}
    (hp : p.Interruptible beyond remains post) (hremains : ∀ k, remains k → weaker k)
    (hpost : ∀ a, post a → more a) : p.Interruptible beyond weaker more := by
  rw [← bind_done p]
  refine hp.bind (fun k hk => ?_) hpost
  rw [bind_done]
  exact hremains k hk

end Interruptible

/-! ## Nothing remains to be done -/

/-- An interrupt is at once the failure of the whole program. -/
def LetsThrough (beyond : Event Reply → Prop) (post : α → Prop) (p : Program σ Reply α) : Prop :=
  p.Interruptible beyond (· = .fail .interrupt) post

namespace LetsThrough

variable {beyond : Event Reply → Prop} {post : α → Prop} {post' : β → Prop} {p : Program σ Reply α}

theorem done {a : α} (h : post a) :
    (.done a : Program σ Reply α).LetsThrough beyond post := h

theorem fail {e : Failure} (h : e ≠ .interrupt) :
    (.fail e : Program σ Reply α).LetsThrough beyond post := h

theorem ofExcept {outcome : Except Failure α} (hok : ∀ a, outcome = .ok a → post a)
    (herror : outcome ≠ .error .interrupt) :
    (.ofExcept outcome : Program σ Reply α).LetsThrough beyond post :=
  Interruptible.ofExcept hok herror

theorem bind {f : α → Program σ Reply β} (hp : p.LetsThrough beyond post)
    (hf : ∀ a, post a → (f a).LetsThrough beyond post') :
    (p.bind f).LetsThrough beyond post' := by
  refine Interruptible.bind hp ?_ hf
  rintro k rfl
  rfl

/-- A handler has to pass on an interrupt, and to fail with none for another failure. -/
theorem orElse {handler : Failure → Program σ Reply α} (hp : p.LetsThrough beyond post)
    (hinterrupt : handler .interrupt = .fail .interrupt)
    (hhandler : ∀ e, e ≠ .interrupt → (handler e).LetsThrough beyond post) :
    (p.orElse handler).LetsThrough beyond post := by
  refine Interruptible.attempt_bind hp ?_ (fun a ha => ha) hhandler
  rintro k rfl
  exact hinterrupt

/-- A call gives what it was answered with. -/
theorem request (c : Call) :
    (request c : Program σ Reply (Reply c)).LetsThrough beyond
      fun r => ¬beyond (.called c (.ok r)) := by
  refine ⟨fun _ => rfl, fun outcome hne hnot => ?_⟩
  refine ofExcept (fun r hr => ?_) hne
  rw [hr] at hnot
  exact hnot

theorem state_bind {f : σ → Program σ Reply α} (hf : ∀ s, (f s).LetsThrough beyond post) :
    (state.bind f).LetsThrough beyond post := fun s => hf s

theorem update {post : Unit → Prop} {f : σ → σ} (h : post ()) :
    (update f : Program σ Reply Unit).LetsThrough beyond post := fun _ => h

theorem log {post : Unit → Prop} {entry : Log.Entry} (h : post ()) :
    (log entry : Program σ Reply Unit).LetsThrough beyond post := h

theorem mono {more : α → Prop} (hp : p.LetsThrough beyond post) (hpost : ∀ a, post a → more a) :
    p.LetsThrough beyond more := Interruptible.mono hp (fun _ hk => hk) hpost

end LetsThrough

end Program

/-! ## At the points of a run -/

/-- A program that has come to a point is still interruptible there, unless a call was interrupted or
what was seen is beyond that. -/
theorem Passes.interruptible {answer : (c : Call) → World → Answer World Reply c}
    {x y : Point σ World Reply α} {past : List (Event Reply)} {beyond : Event Reply → Prop}
    {remains : Program σ Reply α → Prop} {post : α → Prop} (h : Passes answer x past y)
    (hx : x.rest.Interruptible beyond remains post) :
    y.rest.Interruptible beyond remains post ∨ (∃ e ∈ past, beyond e) ∨
      ∃ c, .called c (.error .interrupt) ∈ past := by
  induction h with
  | start => exact .inl hx
  | @next past x y _ hnext ih =>
      rcases ih with hrest | ⟨e, he, hbeyond⟩ | ⟨c, hc⟩
      · obtain ⟨rest, s, w⟩ := x
        cases rest with
        | done a => cases hnext
        | fail e => cases hnext
        | outOfRounds => cases hnext
        | read next => cases hnext; exact .inl (hrest s)
        | write t next => cases hnext; exact .inl hrest
        | note entry next => cases hnext; exact .inl hrest
        | call c next =>
            cases hnext
            have hmem : .called c (answer c w).outcome ∈
                past ++ Point.shown answer ⟨.call c next, s, w⟩ :=
              List.mem_append_right _ List.mem_cons_self
            -- what remains is known unless this was one of the two ways out
            by_cases hbeyond : beyond (.called c (answer c w).outcome)
            · exact .inr (.inl ⟨_, hmem, hbeyond⟩)
            · by_cases houtcome : (answer c w).outcome = .error .interrupt
              · rw [houtcome] at hmem
                exact .inr (.inr ⟨c, hmem⟩)
              · exact .inl (hrest.2 _ houtcome hbeyond)
      · exact .inr (.inl ⟨e, List.mem_append_left _ he, hbeyond⟩)
      · exact .inr (.inr ⟨c, List.mem_append_left _ hc⟩)

end LineShell
