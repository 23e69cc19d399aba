import LineShell.Proofs.Program.Passage

/-!
# Between the calls of a program that are carried out by others

Where the calls of a program are carried out by programs over other calls, a run goes through points of
two kinds: those inside a call, and those between two calls.  `Between` goes through the latter.  It
keeps what was seen of the program itself, call by call, and what was seen of carrying it out.

Points between calls are points of the run (`Between.passes`).

What holds between calls is found in two ways.  What carrying out each call keeps is kept
(`Between.kept`).  And what a program ensures for all answers it ensures here, because a run seen
between its calls is a run with the answers that came (`Between.replayed`).
-/

namespace LineShell

open Program

variable {σ Call Call' World : Type} {Reply : Call → Type} {Reply' : Call' → Type} {α β : Type}

/-- The points of a run between calls, each with what was seen of the program and of carrying it out up
to it.  A call that uses up its rounds leads to no point. -/
inductive Between (carryOut : (c : Call) → Program σ Reply' (Reply c))
    (answer : (d : Call') → World → Answer World Reply' d) (start : Point σ World Reply α) :
    List (Event Reply) → List (Event Reply') → Point σ World Reply α → Prop
  | start : Between carryOut answer start [] [] start
  | read {past : List (Event Reply)} {inner : List (Event Reply')} {next : σ → Program σ Reply α}
      {s : σ} {w : World} : Between carryOut answer start past inner ⟨.read next, s, w⟩ →
      Between carryOut answer start past inner ⟨next s, s, w⟩
  | write {past : List (Event Reply)} {inner : List (Event Reply')} {next : Program σ Reply α}
      {s t : σ} {w : World} : Between carryOut answer start past inner ⟨.write t next, s, w⟩ →
      Between carryOut answer start past inner ⟨next, t, w⟩
  | note {past : List (Event Reply)} {inner : List (Event Reply')} {next : Program σ Reply α}
      {entry : Log.Entry} {s : σ} {w : World} :
      Between carryOut answer start past inner ⟨.note entry next, s, w⟩ →
      Between carryOut answer start (past ++ [.logged entry]) (inner ++ [.logged entry]) ⟨next, s, w⟩
  | called {past : List (Event Reply)} {inner : List (Event Reply')} {c : Call}
      {next : Except Failure (Reply c) → Program σ Reply α} {s : σ} {w : World}
      {outcome : Except Failure (Reply c)} :
      Between carryOut answer start past inner ⟨.call c next, s, w⟩ →
      ((carryOut c).run answer s w).ending = endingOf outcome →
      Between carryOut answer start (past ++ [.called c outcome])
        (inner ++ ((carryOut c).run answer s w).events)
        ⟨next outcome, ((carryOut c).run answer s w).state, ((carryOut c).run answer s w).world⟩

namespace Point

/-- A point between calls as one of the whole run. -/
def interpret (carryOut : (c : Call) → Program σ Reply' (Reply c)) (x : Point σ World Reply α) :
    Point σ World Reply' α :=
  ⟨x.rest.interpret carryOut, x.state, x.world⟩

variable {answer : (c : Call) → World → Answer World Reply c} {x y : Point σ World Reply α}

theorem next?_bind_of_some {f : α → Program σ Reply β} (h : x.next? answer = some y) :
    (x.bind f).next? answer = some (y.bind f) := by
  obtain ⟨rest, s, w⟩ := x
  cases rest <;> cases h <;> rfl

theorem next?_attempt_of_some (h : x.next? answer = some y) :
    x.attempt.next? answer = some y.attempt := by
  obtain ⟨rest, s, w⟩ := x
  cases rest <;> cases h <;> rfl

/-- Nothing is seen of a call but itself. -/
theorem shown_call {c : Call} {next : Except Failure (Reply c) → Program σ Reply α} {s : σ} {w : World}
    (hinner : (answer c w).inner = []) :
    (⟨.call c next, s, w⟩ : Point σ World Reply α).shown answer = [.called c (answer c w).outcome] := by
  change .called c _ :: (answer c w).inner = _
  rw [hinner]

end Point

/-! ## Points of the whole run -/

namespace Passes

variable {answer : (c : Call) → World → Answer World Reply c} {x y : Point σ World Reply α}
  {past : List (Event Reply)}

/-- The points of a program are points of it when another one follows. -/
theorem bind (f : α → Program σ Reply β) (h : Passes answer x past y) :
    Passes answer (x.bind f) past (y.bind f) := by
  induction h with
  | start => exact .start
  | next _ hnext ih =>
      rw [← Point.shown_bind hnext]
      exact ih.next (Point.next?_bind_of_some hnext)

theorem attempt (h : Passes answer x past y) : Passes answer x.attempt past y.attempt := by
  induction h with
  | start => exact .start
  | next _ hnext ih =>
      rw [← Point.shown_attempt]
      exact ih.next (Point.next?_attempt_of_some hnext)

/-- A call of which nothing is seen but itself. -/
theorem asked {c : Call} {next : Except Failure (Reply c) → Program σ Reply α} {s : σ} {w : World}
    (hinner : (answer c w).inner = []) :
    Passes answer ⟨.call c next, s, w⟩ [.called c (answer c w).outcome]
      ⟨next (answer c w).outcome, s, (answer c w).world⟩ := by
  have hnext : Passes answer ⟨.call c next, s, w⟩ ([] ++ Point.shown answer ⟨.call c next, s, w⟩)
      ⟨next (answer c w).outcome, s, (answer c w).world⟩ := Passes.start.next rfl
  rwa [Point.shown_call hinner] at hnext

theorem answered {c : Call} {next : Except Failure (Reply c) → Program σ Reply α} {s : σ} {w v : World}
    {outcome : Except Failure (Reply c)} (h : answer c w = ⟨outcome, v, []⟩) :
    Passes answer ⟨.call c next, s, w⟩ [.called c outcome] ⟨next outcome, s, v⟩ := by
  have hasked : Passes answer ⟨.call c next, s, w⟩ [.called c (answer c w).outcome]
      ⟨next (answer c w).outcome, s, (answer c w).world⟩ := asked (by rw [h])
  rwa [h] at hasked

/-- When one program after another has returned, so have both. -/
theorem done_cases {p : Program σ Reply α} {f : α → Program σ Reply β} {s t : σ} {w v : World} {b : β}
    (h : Passes answer ⟨p.bind f, s, w⟩ past ⟨.done b, t, v⟩) :
    ∃ a t' v' before after, past = before ++ after ∧ Passes answer ⟨p, s, w⟩ before ⟨.done a, t', v'⟩ ∧
      Passes answer ⟨f a, t', v'⟩ after ⟨.done b, t, v⟩ := by
  rcases h.bind_cases with ⟨x, hpass, hend⟩ | hsecond
  · obtain ⟨rest, t', v'⟩ := x
    cases rest with
    | done a =>
        refine ⟨a, t', v', past, [], (List.append_nil _).symm, hpass, ?_⟩
        rw [hend]
        exact .start
    | _ => cases hend
  · exact hsecond

/-- A step of which nothing is seen. -/
theorem next_silent {z : Point σ World Reply α} (h : Passes answer x past y)
    (hnext : y.next? answer = some z) (hshown : y.shown answer = []) : Passes answer x past z := by
  have hstep := h.next hnext
  rwa [hshown, List.append_nil] at hstep

/-- The calls that were seen of a program are in its footprint. -/
theorem calls_of_mem (hinner : ∀ (c : Call) (w : World), (answer c w).inner = []) {S : Scope σ Call}
    {c : Call} {outcome : Except Failure (Reply c)} (h : Passes answer x past y)
    (hx : x.rest.Within S x.state) (hmem : .called c outcome ∈ past) : S.calls c := by
  induction h with
  | start => cases hmem
  | @next past y z hpass hnext ih =>
      rcases List.mem_append.mp hmem with hbefore | hlast
      · exact ih hbefore
      · have hwithin := hpass.within hx
        obtain ⟨rest, t, v⟩ := y
        cases rest with
        | call d next =>
            have hlast : .called c outcome ∈ .called d (answer d v).outcome :: (answer d v).inner := hlast
            rw [hinner] at hlast
            cases List.mem_singleton.mp hlast
            exact hwithin.1
        | note entry next => cases List.mem_singleton.mp hlast
        | _ => cases hlast

/-- A call that was seen of a run was made at a point of it. -/
theorem exists_call (hinner : ∀ (c : Call) (w : World), (answer c w).inner = []) {c : Call}
    {outcome : Except Failure (Reply c)} {p : Program σ Reply α} {s : σ} {w : World}
    {before after : List (Event Reply)}
    (h : (p.run answer s w).events = before ++ .called c outcome :: after) :
    ∃ next t v, Passes answer ⟨p, s, w⟩ before ⟨.call c next, t, v⟩ ∧ (answer c v).outcome = outcome := by
  induction p generalizing s w before with
  | done a => cases before <;> cases h
  | fail e => cases before <;> cases h
  | outOfRounds => cases before <;> cases h
  | read next ih =>
      obtain ⟨next', t, v, hpass, houtcome⟩ := ih s h
      exact ⟨next', t, v, (Passes.start.next_silent rfl rfl).trans hpass, houtcome⟩
  | write s' next ih =>
      obtain ⟨next', t, v, hpass, houtcome⟩ := ih h
      exact ⟨next', t, v, (Passes.start.next_silent rfl rfl).trans hpass, houtcome⟩
  | note entry next ih =>
      cases before with
      | nil => cases h
      | cons e before =>
          obtain ⟨rfl, hrest⟩ := List.cons.inj h
          obtain ⟨next', t, v, hpass, houtcome⟩ := ih hrest
          exact ⟨next', t, v, (Passes.start.next rfl).trans hpass, houtcome⟩
  | call d next ih =>
      -- either this call is the one, or all that was seen before it begins with this one
      rw [Program.run, hinner] at h
      cases before with
      | nil =>
          obtain ⟨hcall, -⟩ := List.cons.inj h
          cases hcall
          exact ⟨next, s, w, .start, rfl⟩
      | cons e before =>
          obtain ⟨rfl, hrest⟩ := List.cons.inj h
          obtain ⟨next', t, v, hpass, houtcome⟩ := ih _ hrest
          exact ⟨next', t, v, (Passes.asked (hinner d w)).trans hpass, houtcome⟩

end Passes

variable {carryOut : (c : Call) → Program σ Reply' (Reply c)}
  {answer : (d : Call') → World → Answer World Reply' d} {x y : Point σ World Reply α}
  {past : List (Event Reply)} {inner : List (Event Reply')}

/-- Behind a call that was carried out the program goes on with its outcome. -/
theorem passes_call {c : Call} (next : Except Failure (Reply c) → Program σ Reply α) {s : σ} {w : World}
    {outcome : Except Failure (Reply c)}
    (h : ((carryOut c).run answer s w).ending = endingOf outcome) :
    Passes answer ⟨(call c next).interpret carryOut, s, w⟩ ((carryOut c).run answer s w).events
      ⟨(next outcome).interpret carryOut, ((carryOut c).run answer s w).state,
        ((carryOut c).run answer s w).world⟩ := by
  have hend := passes_run answer (carryOut c) s w
  rw [h] at hend
  have hgoes := hend.attempt.bind fun reply => (next reply).interpret carryOut
  cases outcome with
  | ok r => exact hgoes
  | error e => exact hgoes

/-- What is between calls is on the way of the run. -/
theorem Between.passes (h : Between carryOut answer x past inner y) :
    Passes answer (x.interpret carryOut) inner (y.interpret carryOut) := by
  induction h with
  | start => exact .start
  | read _ ih => exact ih.next_silent rfl rfl
  | write _ ih => exact ih.next_silent rfl rfl
  | note _ ih => exact ih.next rfl
  | called _ hend ih => exact ih.trans (passes_call _ hend)

/-! ## What holds between calls -/

/-- What is kept while each call is carried out, and by the log entries, holds between calls. -/
theorem Between.kept {P : List (Event Reply) → World → Prop}
    (hcall : ∀ c past, Ensures answer (fun _ _ w => P past w) (carryOut c)
      (fun r _ _ w => P (past ++ [.called c (.ok r)]) w)
      (fun e _ _ w => P (past ++ [.called c (.error e)]) w) fun _ _ _ => True)
    (hnote : ∀ entry past w, P past w → P (past ++ [.logged entry]) w)
    (h : Between carryOut answer x past inner y) (hx : P [] x.world) : P past y.world := by
  induction h with
  | start => exact hx
  | read _ ih => exact ih
  | write _ ih => exact ih
  | note _ ih => exact hnote _ _ _ ih
  | @called past _ c _ s w outcome _ hend ih =>
      have hdone := hcall c past [] s w ih
      rw [hend] at hdone
      cases outcome with
      | ok r => exact hdone
      | error e => exact hdone

section Replay

/-- The outcomes of the calls among some events, in order. -/
def outcomes (events : List (Event Reply)) : List ((c : Call) × Except Failure (Reply c)) :=
  events.filterMap fun
    | .called c outcome => some ⟨c, outcome⟩
    | .logged _ => none

theorem outcomes_append (events more : List (Event Reply)) :
    outcomes (events ++ more) = outcomes events ++ outcomes more := List.filterMap_append

open Classical in
/-- Answers each call with the outcome that is next in line. -/
noncomputable def replay (c : Call) :
    List ((c : Call) × Except Failure (Reply c)) →
      Answer (List ((c : Call) × Except Failure (Reply c))) Reply c
  | [] => ⟨.error .interrupt, [], []⟩
  | ⟨d, outcome⟩ :: rest =>
    if h : d = c then ⟨h ▸ outcome, rest, []⟩ else ⟨.error .interrupt, rest, []⟩

theorem replay_cons (c : Call) (outcome : Except Failure (Reply c))
    (rest : List ((c : Call) × Except Failure (Reply c))) :
    replay c (⟨c, outcome⟩ :: rest) = ⟨outcome, rest, []⟩ := by
  rw [replay, dif_pos rfl]

theorem replay_inner (c : Call) (left : List ((c : Call) × Except Failure (Reply c))) :
    (replay c left).inner = [] := by
  rcases left with _ | ⟨⟨d, outcome⟩, rest⟩
  · rfl
  · rw [replay]
    split <;> rfl

/-- A run that is seen between its calls is a run with the answers that came.  Carrying out a call must
leave the state alone. -/
theorem Between.replayed (hsteady : ∀ c s w, ((carryOut c).run answer s w).state = s)
    (h : Between carryOut answer x past inner y)
    (later : List ((c : Call) × Except Failure (Reply c))) :
    Passes replay ⟨x.rest, x.state, outcomes past ++ later⟩ past ⟨y.rest, y.state, later⟩ := by
  induction h generalizing later with
  | start => exact .start
  | read _ ih => exact (ih later).next_silent rfl rfl
  | write _ ih => exact (ih later).next_silent rfl rfl
  | @note past _ _ entry _ _ _ ih =>
      have hsame : outcomes (past ++ [.logged entry]) = outcomes past := by
        rw [outcomes_append]
        exact List.append_nil _
      rw [hsame]
      exact (ih later).next rfl
  | @called past _ c _ _ _ outcome _ _ ih =>
      have hone : outcomes (past ++ [.called c outcome]) ++ later =
          outcomes past ++ ⟨c, outcome⟩ :: later := by
        rw [outcomes_append, List.append_assoc]
        rfl
      have hstep := (ih (⟨c, outcome⟩ :: later)).next rfl
      simp only [Point.shown, replay_cons] at hstep
      rw [hone]
      dsimp only
      rw [hsteady]
      exact hstep

end Replay

end LineShell
