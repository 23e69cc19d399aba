import LineShell.Proofs.Program.Reach

/-!
# The points of a run and what was seen by then

`Reaches` goes from point to point and forgets what was seen on the way.  `Passes` keeps it: a run has
passed a point when it has come there having shown some events.

What is left of the program at a point says how the run goes on (`Passes.run_eq`), so an event of a run
can be looked at from the point at which it happens.

`Maintains answer E I p` says that a condition on what was seen, the state and the world holds at every
point of `p` if it does so at the start, but for the points that an `Exception` names.  There is one
rule for each way to compose programs, and `Maintains.of_footprint` for the programs of which only the
footprint is known.
-/

namespace LineShell

open Program

variable {σ Call Call' World : Type} {Reply : Call → Type} {Reply' : Call' → Type} {α β : Type}

namespace Point

variable (answer : (c : Call) → World → Answer World Reply c)

/-- What is seen of the step to the next point. -/
def shown (x : Point σ World Reply α) : List (Event Reply) :=
  match x.rest with
  | .call c _ => .called c (answer c x.world).outcome :: (answer c x.world).inner
  | .note entry _ => [.logged entry]
  | _ => []

variable {answer}

theorem shown_bind {x y : Point σ World Reply α} {f : α → Program σ Reply β}
    (h : x.next? answer = some y) : (x.bind f).shown answer = x.shown answer := by
  obtain ⟨rest, s, w⟩ := x
  cases rest with
  | done a => cases h
  | _ => rfl

theorem shown_attempt (x : Point σ World Reply α) : x.attempt.shown answer = x.shown answer := by
  obtain ⟨rest, s, w⟩ := x
  cases rest <;> rfl

/-- The run from a point is the step to the next one and the run from there. -/
theorem run_next {x y : Point σ World Reply α} (h : x.next? answer = some y) :
    x.rest.run answer x.state x.world =
      { y.rest.run answer y.state y.world with
        events := x.shown answer ++ (y.rest.run answer y.state y.world).events } := by
  obtain ⟨rest, s, w⟩ := x
  cases rest with
  | done a => cases h
  | fail e => cases h
  | outOfRounds => cases h
  | read next => cases h; rfl
  | write t next => cases h; rfl
  | call c next => cases h; rfl
  | note entry next => cases h; rfl

end Point

/-- The points that a run goes through, each with what was seen up to it. -/
inductive Passes (answer : (c : Call) → World → Answer World Reply c)
    (start : Point σ World Reply α) : List (Event Reply) → Point σ World Reply α → Prop
  | start : Passes answer start [] start
  | next {past : List (Event Reply)} {x y : Point σ World Reply α} : Passes answer start past x →
      x.next? answer = some y → Passes answer start (past ++ x.shown answer) y

namespace Passes

variable {answer : (c : Call) → World → Answer World Reply c} {x y z : Point σ World Reply α}
  {past later : List (Event Reply)} {s : σ} {w : World}

theorem reaches (h : Passes answer x past y) : Reaches answer x y := by
  induction h with
  | start => exact .start
  | next _ hnext ih => exact ih.next hnext

theorem trans (hxy : Passes answer x past y) (hyz : Passes answer y later z) :
    Passes answer x (past ++ later) z := by
  induction hyz with
  | start =>
      rw [List.append_nil]
      exact hxy
  | next _ hnext ih =>
      rw [← List.append_assoc]
      exact ih.next hnext

/-- A run is at its start, or it has gone through the point after it. -/
theorem start_cases (h : Passes answer x past z) :
    (past = [] ∧ z = x) ∨ ∃ y later, x.next? answer = some y ∧ past = x.shown answer ++ later ∧
      Passes answer y later z := by
  induction h with
  | start => exact .inl ⟨rfl, rfl⟩
  | next _ hnext ih =>
      rcases ih with ⟨rfl, rfl⟩ | ⟨y, later, hy, rfl, hpass⟩
      · exact .inr ⟨_, [], hnext, by rw [List.append_nil, List.nil_append], .start⟩
      · exact .inr ⟨y, _, hy, by rw [List.append_assoc], hpass.next hnext⟩

/-- A program that is at its end goes nowhere. -/
theorem eq_of_end (hend : x.next? answer = none) (h : Passes answer x past z) : past = [] ∧ z = x := by
  rcases h.start_cases with hstart | ⟨y, _, hy, _⟩
  · exact hstart
  · rw [hend] at hy
    cases hy

/-- A run of one program after another is in the first, or the first has returned and it is in the
second. -/
theorem bind_cases {p : Program σ Reply α} {f : α → Program σ Reply β} {z : Point σ World Reply β}
    (h : Passes answer ⟨p.bind f, s, w⟩ past z) :
    (∃ x, Passes answer ⟨p, s, w⟩ past x ∧ z = x.bind f) ∨
      ∃ a t v before after, past = before ++ after ∧ Passes answer ⟨p, s, w⟩ before ⟨.done a, t, v⟩ ∧
        Passes answer ⟨f a, t, v⟩ after z := by
  induction h with
  | start => exact .inl ⟨_, start, rfl⟩
  | next _ hnext ih =>
      rcases ih with ⟨x, hpass, rfl⟩ | ⟨a, t, v, before, after, rfl, hdone, hpass⟩
      · rcases Point.next?_bind hnext with ⟨y, hy, rfl⟩ | ⟨a, ha⟩
        · refine .inl ⟨y, ?_, rfl⟩
          rw [Point.shown_bind hy]
          exact hpass.next hy
        · -- the first program has returned, so this step is one of the second
          obtain ⟨rest, t, v⟩ := x
          cases ha
          exact .inr ⟨a, t, v, _, _, rfl, hpass, start.next hnext⟩
      · refine .inr ⟨a, t, v, before, _, ?_, hdone, hpass.next hnext⟩
        rw [List.append_assoc]

theorem attempt_cases {p : Program σ Reply α} {z : Point σ World Reply (Except Failure α)}
    (h : Passes answer ⟨p.attempt, s, w⟩ past z) :
    ∃ x, Passes answer ⟨p, s, w⟩ past x ∧ z = x.attempt := by
  induction h with
  | start => exact ⟨_, start, rfl⟩
  | next _ hnext ih =>
      obtain ⟨x, hpass, rfl⟩ := ih
      obtain ⟨y, hy, rfl⟩ := Point.next?_attempt hnext
      refine ⟨y, ?_, rfl⟩
      rw [Point.shown_attempt]
      exact hpass.next hy

/-- A call of one program after another is made by the first, or the first has returned and it is made
by the second. -/
theorem bind_call_cases {p : Program σ Reply α} {f : α → Program σ Reply β} {z : Point σ World Reply β}
    {c : Call} {next : Except Failure (Reply c) → Program σ Reply β}
    (h : Passes answer ⟨p.bind f, s, w⟩ past z) (hz : z.rest = .call c next) :
    (∃ next', Passes answer ⟨p, s, w⟩ past ⟨.call c next', z.state, z.world⟩ ∧
        next = fun outcome => (next' outcome).bind f) ∨
      ∃ a t v before after, past = before ++ after ∧ Passes answer ⟨p, s, w⟩ before ⟨.done a, t, v⟩ ∧
        Passes answer ⟨f a, t, v⟩ after z := by
  rcases h.bind_cases with ⟨x, hpass, rfl⟩ | hsecond
  · obtain ⟨rest, t, v⟩ := x
    cases rest with
    | done a => exact .inr ⟨a, t, v, past, [], (List.append_nil _).symm, hpass, .start⟩
    | call d next' => cases hz; exact .inl ⟨next', hpass, rfl⟩
    | _ => cases hz
  · exact .inr hsecond

/-- A call is made by a program whose failure is a result, or by what goes on with its outcome. -/
theorem attempt_call_cases {p : Program σ Reply α} {f : Except Failure α → Program σ Reply β}
    {z : Point σ World Reply β} {c : Call} {next : Except Failure (Reply c) → Program σ Reply β}
    (h : Passes answer ⟨p.attempt.bind f, s, w⟩ past z) (hz : z.rest = .call c next) :
    (∃ next', Passes answer ⟨p, s, w⟩ past ⟨.call c next', z.state, z.world⟩ ∧
        next = fun outcome => (next' outcome).attempt.bind f) ∨
      ∃ outcome t v before after, past = before ++ after ∧
        Passes answer ⟨p, s, w⟩ before ⟨ofExcept outcome, t, v⟩ ∧
        Passes answer ⟨f outcome, t, v⟩ after z := by
  rcases h.bind_call_cases hz with
    ⟨next', hpass, rfl⟩ | ⟨outcome, t, v, before, after, rfl, hdone, hafter⟩
  · obtain ⟨x, hx, heq⟩ := hpass.attempt_cases
    obtain ⟨rest, t, v⟩ := x
    cases rest with
    | call d next => cases heq; exact .inl ⟨next, hx, rfl⟩
    | _ => cases heq
  · obtain ⟨x, hx, heq⟩ := hdone.attempt_cases
    obtain ⟨rest, t, v⟩ := x
    cases rest with
    | done a => cases heq; exact .inr ⟨.ok a, _, _, before, after, rfl, hx, hafter⟩
    | fail e => cases heq; exact .inr ⟨.error e, _, _, before, after, rfl, hx, hafter⟩
    | _ => cases heq

/-- A run is what was seen up to a point, and the run from there. -/
theorem run_eq (h : Passes answer x past y) :
    x.rest.run answer x.state x.world =
      { y.rest.run answer y.state y.world with
        events := past ++ (y.rest.run answer y.state y.world).events } := by
  induction h with
  | start => rfl
  | next _ hnext ih => rw [ih, Point.run_next hnext, List.append_assoc]

/-- A run stays in the footprint of its program, point by point. -/
theorem within {S : Scope σ Call} (h : Passes answer x past y) (hx : x.rest.Within S x.state) :
    y.rest.Within S y.state := h.reaches.within hx

/-- A program that may not change its state has the same one at all of its points. -/
theorem state_eq {S : Scope σ Call} (hchange : ∀ s t, ¬ S.changes s t)
    (hx : x.rest.Within S x.state) (h : Passes answer x past y) : y.state = x.state := by
  induction h with
  | start => rfl
  | @next past x y hpass hnext ih =>
      have hwithin := hpass.within hx
      obtain ⟨rest, s, w⟩ := x
      cases rest with
      | done a => cases hnext
      | fail e => cases hnext
      | outOfRounds => cases hnext
      | read next => cases hnext; exact ih
      | write t next => exact absurd hwithin.1 (hchange _ _)
      | call c next => cases hnext; exact ih
      | note entry next => cases hnext; exact ih

/-- A call is still to be made, or it was answered. -/
theorem request_cases {c : Call} {z : Point σ World Reply (Reply c)}
    (h : Passes answer ⟨request c, s, w⟩ past z) :
    (past = [] ∧ z = ⟨request c, s, w⟩) ∨
      (past = .called c (answer c w).outcome :: (answer c w).inner ∧
        z = ⟨ofExcept (answer c w).outcome, s, (answer c w).world⟩) := by
  rcases h.start_cases with hstart | ⟨y, later, hy, rfl, hpass⟩
  · exact .inl hstart
  · cases hy
    have hend : (⟨ofExcept (answer c w).outcome, s, (answer c w).world⟩ :
        Point σ World Reply (Reply c)).next? answer = none := by
      cases (answer c w).outcome <;> rfl
    obtain ⟨rfl, rfl⟩ := hpass.eq_of_end hend
    exact .inr ⟨List.append_nil _, rfl⟩

/-- A call that returned was answered so. -/
theorem request_returned {c : Call} {r : Reply c} {t : σ} {v : World}
    (h : Passes answer ⟨request c, s, w⟩ past ⟨.done r, t, v⟩) :
    (answer c w).outcome = .ok r ∧ past = .called c (.ok r) :: (answer c w).inner ∧ t = s ∧
      v = (answer c w).world := by
  rcases h.request_cases with ⟨-, hz⟩ | ⟨hpast, hz⟩
  · cases hz
  · cases houtcome : (answer c w).outcome with
    | error e =>
        rw [houtcome] at hz
        cases hz
    | ok a =>
        rw [houtcome] at hpast hz
        cases hz
        exact ⟨rfl, hpast, rfl, rfl⟩

/-- A call whose failure is a result is still to be made, or what goes on with its outcome runs. -/
theorem attempt_request_cases {c : Call} {k : Except Failure (Reply c) → Program σ Reply β}
    {z : Point σ World Reply β} (h : Passes answer ⟨(request c).attempt.bind k, s, w⟩ past z) :
    (past = [] ∧ z = ⟨(request c).attempt.bind k, s, w⟩) ∨
      ∃ later, past = .called c (answer c w).outcome :: (answer c w).inner ++ later ∧
        Passes answer ⟨k (answer c w).outcome, s, (answer c w).world⟩ later z := by
  rcases h.start_cases with hstart | ⟨y, later, hy, rfl, hpass⟩
  · exact .inl hstart
  · cases hy
    dsimp only at hpass
    rw [attempt_ofExcept] at hpass
    exact .inr ⟨later, rfl, hpass⟩

end Passes

/-- A run gets to its end, and what was seen by then is what is seen of the run. -/
theorem passes_run (answer : (c : Call) → World → Answer World Reply c) (p : Program σ Reply α)
    (s : σ) (w : World) :
    Passes answer ⟨p, s, w⟩ (p.run answer s w).events
      ⟨(p.run answer s w).ending.program, (p.run answer s w).state, (p.run answer s w).world⟩ := by
  induction p generalizing s w with
  | done a => exact .start
  | fail e => exact .start
  | outOfRounds => exact .start
  | read next ih => exact (Passes.start.next rfl).trans (ih s s w)
  | write t next ih => exact (Passes.start.next rfl).trans (ih t w)
  | call c next ih => exact (Passes.start.next rfl).trans (ih _ s (answer c w).world)
  | note entry next ih => exact (Passes.start.next rfl).trans (ih s w)

/-! ## Conditions kept along a run -/

/-- Points at which a condition need not hold.  Whether a point is one of them does not depend on what
the program is a part of, and the end of a run is none. -/
structure Exception (σ World : Type) {Call : Type} (Reply : Call → Type) : Type 1 where
  holds : {α : Type} → List (Event Reply) → Point σ World Reply α → Prop
  bind : ∀ {α β : Type} {past : List (Event Reply)} {x : Point σ World Reply α}
    (f : α → Program σ Reply β), holds past x → holds past (x.bind f)
  attempt : ∀ {α : Type} {past : List (Event Reply)} {x : Point σ World Reply α},
    holds past x → holds past x.attempt
  unfinished : ∀ {α : Type} {past : List (Event Reply)} {a : α} {s : σ} {w : World},
    ¬ holds past (⟨.done a, s, w⟩ : Point σ World Reply α)

variable {answer : (c : Call) → World → Answer World Reply c} {E : Exception σ World Reply}
  {I : Assertion σ World Reply}

/-- From here on a condition holds at all points but the exceptional ones. -/
def Along (answer : (c : Call) → World → Answer World Reply c) (E : Exception σ World Reply)
    (I : Assertion σ World Reply) (past : List (Event Reply)) (p : Program σ Reply α) (s : σ)
    (w : World) : Prop :=
  ∀ later x, Passes answer ⟨p, s, w⟩ later x →
    I (past ++ later) x.state x.world ∨ E.holds (past ++ later) x

/-- A condition that holds at the start of a program holds at all of its points but the exceptional
ones. -/
def Maintains (answer : (c : Call) → World → Answer World Reply c) (E : Exception σ World Reply)
    (I : Assertion σ World Reply) (p : Program σ Reply α) : Prop :=
  ∀ past s w, I past s w → Along answer E I past p s w

namespace Along

variable {past : List (Event Reply)} {p : Program σ Reply α} {s : σ} {w : World}

theorem returned {before : List (Event Reply)} {a : α} {t : σ} {v : World}
    (h : Along answer E I past p s w) (hdone : Passes answer ⟨p, s, w⟩ before ⟨.done a, t, v⟩) :
    I (past ++ before) t v := (h before _ hdone).resolve_right E.unfinished

theorem bind {f : α → Program σ Reply β} (hp : Along answer E I past p s w)
    (hf : ∀ a before t v, Passes answer ⟨p, s, w⟩ before ⟨.done a, t, v⟩ →
      Along answer E I (past ++ before) (f a) t v) : Along answer E I past (p.bind f) s w := by
  intro later z hz
  rcases hz.bind_cases with ⟨x, hx, rfl⟩ | ⟨a, t, v, before, after, rfl, hdone, hpass⟩
  · exact (hp later x hx).imp id (E.bind f)
  · rw [← List.append_assoc]
    exact hf a before t v hdone after z hpass

theorem bind_maintains {f : α → Program σ Reply β} (hp : Along answer E I past p s w)
    (hf : ∀ a, Maintains answer E I (f a)) : Along answer E I past (p.bind f) s w :=
  hp.bind fun a _ t v hdone => hf a _ t v (hp.returned hdone)

theorem attempt (hp : Along answer E I past p s w) : Along answer E I past p.attempt s w := by
  intro later z hz
  obtain ⟨x, hx, rfl⟩ := hz.attempt_cases
  exact (hp later x hx).imp id E.attempt

/-- A step leads to the rest of the program. -/
theorem of_next {x y : Point σ World Reply α} (hx : I past x.state x.world ∨ E.holds past x)
    (hnext : x.next? answer = some y)
    (hy : Along answer E I (past ++ x.shown answer) y.rest y.state y.world) :
    Along answer E I past x.rest x.state x.world := by
  intro later z hz
  rcases hz.start_cases with ⟨rfl, rfl⟩ | ⟨y', later, hy', rfl, hpass⟩
  · rw [List.append_nil]
    exact hx
  · rw [hnext] at hy'
    cases hy'
    rw [← List.append_assoc]
    exact hy later z hpass

/-- A step of which nothing is seen. -/
theorem of_silent {x y : Point σ World Reply α} (hx : I past x.state x.world ∨ E.holds past x)
    (hnext : x.next? answer = some y) (hshown : x.shown answer = [])
    (hy : Along answer E I past y.rest y.state y.world) :
    Along answer E I past x.rest x.state x.world := by
  refine of_next hx hnext ?_
  rw [hshown, List.append_nil]
  exact hy

end Along

namespace Maintains

variable {p : Program σ Reply α}

/-- At the end of a program there is nothing more to keep. -/
theorem of_end (hend : ∀ s w, (⟨p, s, w⟩ : Point σ World Reply α).next? answer = none) :
    Maintains answer E I p := by
  intro past s w hI later x hx
  obtain ⟨rfl, rfl⟩ := hx.eq_of_end (hend s w)
  rw [List.append_nil]
  exact .inl hI

theorem done (a : α) : Maintains answer E I (.done a : Program σ Reply α) := of_end fun _ _ => rfl

theorem fail (e : Failure) : Maintains answer E I (.fail e : Program σ Reply α) := of_end fun _ _ => rfl

theorem outOfRounds : Maintains answer E I (.outOfRounds : Program σ Reply α) := of_end fun _ _ => rfl

theorem ofExcept (outcome : Except Failure α) :
    Maintains answer E I (.ofExcept outcome : Program σ Reply α) := by
  cases outcome with
  | ok a => exact done a
  | error e => exact fail e

theorem bind {f : α → Program σ Reply β} (hp : Maintains answer E I p)
    (hf : ∀ a, Maintains answer E I (f a)) : Maintains answer E I (p.bind f) :=
  fun past s w hI => (hp past s w hI).bind_maintains hf

theorem attempt (hp : Maintains answer E I p) : Maintains answer E I p.attempt :=
  fun past s w hI => (hp past s w hI).attempt

theorem orElse {handler : Failure → Program σ Reply α} (hp : Maintains answer E I p)
    (hhandler : ∀ e, Maintains answer E I (handler e)) : Maintains answer E I (p.orElse handler) := by
  refine hp.attempt.bind fun outcome => ?_
  cases outcome with
  | ok a => exact done a
  | error e => exact hhandler e

theorem andFinally {last : Program σ Reply Unit} (hp : Maintains answer E I p)
    (hlast : Maintains answer E I last) : Maintains answer E I (p.andFinally last) :=
  hp.attempt.bind fun outcome => hlast.bind fun _ => ofExcept outcome

/-- What goes on with the state may rely on it being the state. -/
theorem state_bind {f : σ → Program σ Reply α}
    (hf : ∀ past s w, I past s w → Along answer E I past (f s) s w) :
    Maintains answer E I (state.bind f) := by
  intro past s w hI
  exact Along.of_silent (x := ⟨state.bind f, s, w⟩) (.inl hI) rfl rfl (hf past s w hI)

theorem request {c : Call}
    (h : ∀ past s w, I past s w →
      I (past ++ .called c (answer c w).outcome :: (answer c w).inner) s (answer c w).world) :
    Maintains answer E I (Program.request c : Program σ Reply (Reply c)) := by
  intro past s w hI
  exact Along.of_next (x := ⟨Program.request c, s, w⟩) (.inl hI) rfl
    (ofExcept _ _ s _ (h past s w hI))

/-- What is kept while each call in the footprint of a program is carried out, by the changes and by the
log entries in it, is kept by the program.  Carrying out a call must leave the state alone. -/
theorem interpret_of_footprint {carryOut : (c : Call') → Program σ Reply (Reply' c)}
    {S : Scope σ Call'} {p : Program σ Reply' α} (hp : p.Footprint S)
    (hcall : ∀ c, S.calls c → Maintains answer E I (carryOut c))
    (hsteady : ∀ c past s w x, Passes answer ⟨carryOut c, s, w⟩ past x → x.state = s)
    (hchange : ∀ past s t w, S.changes s t → I past s w → I past t w)
    (hnote : ∀ entry, S.notes entry → ∀ past s w, I past s w → I (past ++ [.logged entry]) s w) :
    Maintains answer E I (p.interpret carryOut) := by
  -- the induction is on the tree of the program, whose footprint depends on the state it has come to
  have main : ∀ (p : Program σ Reply' α) past s w, p.Within S s → I past s w →
      Along answer E I past (p.interpret carryOut) s w := by
    intro p
    induction p with
    | done a => exact fun past s w _ hI => done a past s w hI
    | fail e => exact fun past s w _ hI => fail e past s w hI
    | outOfRounds => exact fun past s w _ hI => outOfRounds past s w hI
    | read next ih =>
        intro past s w hin hI
        exact Along.of_silent (x := ⟨(read next).interpret carryOut, s, w⟩) (.inl hI) rfl rfl
          (ih s past s w hin hI)
    | write t next ih =>
        intro past s w hin hI
        exact Along.of_silent (x := ⟨(write t next).interpret carryOut, s, w⟩) (.inl hI) rfl rfl
          (ih past t w hin.2 (hchange past s t w hin.1 hI))
    | call c next ih =>
        intro past s w hin hI
        have hattempt := (hcall c hin.1 past s w hI).attempt
        refine hattempt.bind fun reply before t v hdone => ?_
        -- the rest was in scope for the state before the call, and the call left that alone
        obtain ⟨x, hx, hxdone⟩ := hdone.attempt_cases
        have hstate : t = s := (congrArg Point.state hxdone).trans (hsteady c before s w x hx)
        subst hstate
        exact ih reply _ t v (hin.2 reply) (hattempt.returned hdone)
    | note entry next ih =>
        intro past s w hin hI
        exact Along.of_next (x := ⟨(note entry next).interpret carryOut, s, w⟩) (.inl hI) rfl
          (ih _ s w hin.2 (hnote entry hin.1 past s w hI))
  exact fun past s w hI => main p past s w (hp s) hI

/-- What is kept by each call, each change and each log entry in the footprint of a program is kept by
the program. -/
theorem of_footprint {S : Scope σ Call} {p : Program σ Reply α} (hp : p.Footprint S)
    (hcall : ∀ c, S.calls c → ∀ past s w, I past s w →
      I (past ++ .called c (answer c w).outcome :: (answer c w).inner) s (answer c w).world)
    (hchange : ∀ past s t w, S.changes s t → I past s w → I past t w)
    (hnote : ∀ entry, S.notes entry → ∀ past s w, I past s w → I (past ++ [.logged entry]) s w) :
    Maintains answer E I p := by
  rw [← interpret_self p]
  refine interpret_of_footprint hp (fun c hc => request (hcall c hc)) ?_ hchange hnote
  intro c past s w x hx
  have hask : (Program.request c : Program σ Reply (Reply c)).Footprint
      ⟨fun _ => True, fun _ _ => False, fun _ => True, True⟩ := Footprint.request trivial
  exact hx.state_eq (fun _ _ h => h) (hask s)

/-! ### Programs whose calls are carried out -/

variable {carryOut : (c : Call') → Program σ Reply (Reply' c)} {q : Program σ Reply' α}

theorem interpret_bind {f : α → Program σ Reply' β} (hq : Maintains answer E I (q.interpret carryOut))
    (hf : ∀ a, Maintains answer E I ((f a).interpret carryOut)) :
    Maintains answer E I ((q.bind f).interpret carryOut) := by
  rw [Program.interpret_bind]
  exact hq.bind hf

theorem interpret_orElse {handler : Failure → Program σ Reply' α}
    (hq : Maintains answer E I (q.interpret carryOut))
    (hhandler : ∀ e, Maintains answer E I ((handler e).interpret carryOut)) :
    Maintains answer E I ((q.orElse handler).interpret carryOut) := by
  rw [Program.interpret_orElse]
  exact hq.orElse hhandler

theorem interpret_andFinally {last : Program σ Reply' Unit}
    (hq : Maintains answer E I (q.interpret carryOut))
    (hlast : Maintains answer E I (last.interpret carryOut)) :
    Maintains answer E I ((q.andFinally last).interpret carryOut) := by
  rw [Program.interpret_andFinally]
  exact hq.andFinally hlast

theorem interpret_state_bind {f : σ → Program σ Reply' α}
    (hf : ∀ s, Maintains answer E I ((f s).interpret carryOut)) :
    Maintains answer E I ((state.bind f).interpret carryOut) := by
  rw [Program.interpret_bind, interpret_state]
  exact state_bind fun past s w hI => hf s past s w hI

end Maintains

/-- No point is an exception. -/
def Exception.none : Exception σ World Reply where
  holds _ _ := False
  bind _ h := h
  attempt h := h
  unfinished h := h

/-- What is kept by every call and every log entry, whatever the state is, holds at all points. -/
theorem Passes.kept {P : List (Event Reply) → World → Prop} {x y : Point σ World Reply α}
    {past : List (Event Reply)}
    (hcall : ∀ c past w, P past w →
      P (past ++ .called c (answer c w).outcome :: (answer c w).inner) (answer c w).world)
    (hnote : ∀ entry past w, P past w → P (past ++ [.logged entry]) w)
    (h : Passes answer x past y) (hx : P [] x.world) : P past y.world := by
  have hmaintains : Maintains answer .none (fun past _ w => P past w) x.rest :=
    Maintains.of_footprint (Footprint.anything x.rest) (fun c _ past _ w => hcall c past w)
      (fun _ _ _ _ _ hP => hP) fun entry _ past _ w => hnote entry past w
  exact (hmaintains [] x.state x.world hx past y h).resolve_right id

end LineShell
