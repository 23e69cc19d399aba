import LineShell.Proofs.Shell.HostAgreement

/-!
# How children end

How a child ended goes to the log, and to the record of which child is in the foreground; nothing that
the shell does next depends on it.  Two runs in worlds that differ in their lists of wait outcomes only
are therefore in lockstep: they stay `Unswayed`, since each call is answered alike in both
(`answeredAlike`).

The main result is `Shell.run_unswayed`: the two runs make the same calls with the same answers, but
for what waiting came to, and end alike in the same place.
-/

namespace LineShell

open Program LineShell.Action
open Machine (memory)
open Lockstep (Together Anywhere)

/-- A call as it is seen by somebody who is not told how children end.  Log entries are not seen. -/
def Event.untold? : Event ServiceCall.Reply → Option (Event ServiceCall.Reply)
  | .called (.waitpid pid timeout) (.ok _) =>
    some (.called (.waitpid pid timeout) (.ok WaitOutcome.success))
  | .called c outcome => some (.called c outcome)
  | .logged _ => none

/-- The calls of a run with their outcomes, of which only how children ended is not told. -/
def untold (events : List (Event ServiceCall.Reply)) : List (Event ServiceCall.Reply) :=
  events.filterMap Event.untold?

theorem untold_append (events more : List (Event ServiceCall.Reply)) :
    untold (events ++ more) = untold events ++ untold more := List.filterMap_append

/-- Outcomes of a call that differ at most in how a child ended. -/
def ServiceCall.EndsAside (c : ServiceCall) : Except Failure c.Reply → Except Failure c.Reply → Prop
  | .ok a, .ok b => c.Matches a b
  | .error e, .error e' => e = e'
  | _, _ => False

theorem ServiceCall.EndsAside.of_eq {c : ServiceCall} {outcome : Except Failure c.Reply} :
    c.EndsAside outcome outcome := by
  cases outcome with
  | ok a => exact .inr rfl
  | error e => exact rfl

theorem untold_of_endsAside {c : ServiceCall} {outcome outcome' : Except Failure c.Reply}
    (h : c.EndsAside outcome outcome') :
    untold [.called c outcome'] = untold [.called c outcome] := by
  cases outcome <;> cases outcome'
  case error.error e e' => rw [show e = e' from h]
  case ok.ok a b =>
    rcases h with hwait | hsame
    · cases c with
      | waitpid pid timeout => rfl
      | _ => cases hwait
    · rw [hsame]
  all_goals exact h.elim

/-! ## Worlds with different wait outcomes -/

namespace InMemory

/-- Only a wait depends on the waits to come. -/
theorem serve_waits_of_ne {c : ServiceCall} (hc : c.name ≠ .waitpid) (w : InMemory)
    (waits : List WaitOutcome) : ({ w with waits := waits } : InMemory).serve c =
      ((w.serve c).1, { (w.serve c).2 with waits := waits }) := by
  cases c with
  | waitpid pid timeout => exact absurd rfl hc
  | _ => simp only [serve] <;> (repeat' split) <;> rfl

/-- A call is carried out alike whatever the waits to come, and only these differ behind it. -/
theorem serve_waits (c : ServiceCall) (w : InMemory) (waits : List WaitOutcome) :
    c.EndsAside (w.serve c).1 (({ w with waits := waits } : InMemory).serve c).1 ∧
      ∃ later, (({ w with waits := waits } : InMemory).serve c).2 =
        { (w.serve c).2 with waits := later } := by
  by_cases hc : c.name = .waitpid
  · cases c with
    | waitpid pid timeout => exact ⟨.inl rfl, waits.tail, rfl⟩
    | _ => cases hc
  · rw [serve_waits_of_ne hc w waits]
    exact ⟨.of_eq, waits, rfl⟩

theorem answer_waits (c : ServiceCall) (w : InMemory) (waits : List WaitOutcome) :
    c.EndsAside (answer c w).outcome (answer c { w with waits := waits }).outcome ∧
      ∃ later, (answer c { w with waits := waits }).world =
        { (answer c w).world with waits := later } := by
  cases hhit : Fault.hit? w.faults c.name with
  | some e =>
      rw [answer_hit hhit, answer_hit (w := { w with waits := waits }) hhit]
      exact ⟨rfl, waits, rfl⟩
  | none =>
      rw [answer_miss hhit, answer_miss (w := { w with waits := waits }) hhit]
      exact serve_waits c (w.ready c.name) waits

end InMemory

/-! ## In lockstep -/

/-- Two moments that are the same but for how children ended and will end. -/
structure Unswayed (l r : memory.Moment) : Prop where
  world : r.world = { l.world with waits := r.world.waits }
  past : untold r.past = untold l.past

/-- Any text fits where nothing has to be encoded. -/
def AnyText (_ : Text) : Prop := True

theorem answeredAlike (c : ServiceCall) (place : Place) :
    AnsweredAlike memory memory (fun _ => False) (fun _ => Unswayed) AnyText c place := by
  intro s t l r ⟨hstates, hunswayed⟩
  have hanswer := InMemory.answer_waits c l.world r.world.waits
  rw [← hunswayed.world] at hanswer
  obtain ⟨houtcome, later, hworld⟩ := hanswer
  -- a call shows its own outcome and nothing else, so two runs can be compared at it
  have hrun : ∀ m : memory.Moment, memory.run (ask c) m =
      ⟨endingOf (InMemory.answer c m.world).outcome, m.state, (InMemory.answer c m.world).world,
        [.called c (InMemory.answer c m.world).outcome]⟩ := by
    intro m
    rw [Machine.run_memory, ask, run_request, InMemory.answer_inner]
  have hafter : Unswayed (memory.after (ask c) l) (memory.after (ask c) r) := by
    unfold Machine.after
    rw [hrun, hrun]
    refine ⟨?_, ?_⟩
    · rw [hworld]
    · rw [untold_append, untold_append, hunswayed.past, untold_of_endsAside houtcome]
  have hstate : (memory.after (ask c) l).state = s ∧ (memory.after (ask c) r).state = t := by
    unfold Machine.after
    rw [hrun, hrun]
    exact hstates
  right
  unfold Machine.ending
  rw [hrun, hrun]
  cases hl : (InMemory.answer c l.world).outcome <;>
    cases hr : (InMemory.answer c r.world).outcome <;> rw [hl, hr] at houtcome
  case ok.ok a b => exact ⟨houtcome, hstate, hafter⟩
  case error.error e e' =>
    obtain rfl : e = e' := houtcome
    exact ⟨⟨.same, fun _ _ _ => trivial⟩, hstate, hafter⟩
  all_goals exact houtcome.elim

/-- The shell runs in lockstep with itself however its children end. -/
theorem lockstep_unswayed (shell : Shell) (buffer : LineBuffer) :
    Lockstep memory memory (fun _ => False) (fun _ => Unswayed) shell buffer AnyText where
  lasting := lasting_const False
  fitting := ⟨fun _ _ => trivial, fun _ => trivial, fun _ => trivial⟩
  fits := ⟨fun _ _ => trivial, fun _ _ => trivial, trivial⟩
  anyState _ _ h := ⟨h.world, h.past⟩
  anyEntry _ _ h := by
    refine ⟨h.world, ?_⟩
    rw [untold_append, untold_append, h.past]
    rfl
  input h := h
  serves _ := answeredAlike _ _

/-- Two runs that are the same but for how children ended: the same calls with the same answers to all
but the waits, the same ending, and nothing left different but the foreground and the waits to come. -/
structure SameButEndings (o o' : Outcome Session InMemory ServiceCall.Reply Int) : Prop where
  ending : o'.ending = o.ending
  calls : untold o'.events = untold o.events
  state : o'.state = { o.state with foreground := o'.state.foreground }
  world : o'.world = { o.world with waits := o'.world.waits }

namespace Shell

/-- However children end, a run does the same.  The child in the foreground at the start may be another
one, too. -/
theorem run_unswayed (shell : Shell) (rounds : Nat) (scripts : List Text) (s : Session) (w : InMemory)
    (foreground : Option Int) (waits : List WaitOutcome) :
    SameButEndings ((shell.run rounds scripts).run InMemory.answer s w)
      ((shell.run rounds scripts).run InMemory.answer { s with foreground := foreground }
        { w with waits := waits }) := by
  let l : memory.Moment := ⟨[], s, w⟩
  let r : memory.Moment := ⟨[], { s with foreground := foreground }, { w with waits := waits }⟩
  have hlockstep := lockstep_unswayed shell s.line
  have hstart : Together (fun _ => Unswayed) s.line AnyText .between l r :=
    ⟨⟨rfl, rfl⟩, rfl, rfl, LineBuffer.SameSize.refl _, trivial⟩
  have hrun := hlockstep.relates_run rounds scripts hlockstep.relates_publishCwd l r hstart
  unfold Machine.ending Machine.after at hrun
  rw [Machine.run_memory, Machine.run_memory] at hrun
  generalize (shell.run rounds scripts).run InMemory.answer l.state l.world = o at hrun ⊢
  generalize (shell.run rounds scripts).run InMemory.answer r.state r.world = o' at hrun ⊢
  -- what is known wherever the two have come to together
  have hsame : Anywhere (fun _ => Unswayed) s.line AnyText ⟨[] ++ o.events, o.state, o.world⟩
      ⟨[] ++ o'.events, o'.state, o'.world⟩ → o'.ending = o.ending → SameButEndings o o' := by
    rintro ⟨place, htogether⟩ hending
    have hcwd : o'.state.cwd = o.state.cwd := htogether.cwd
    have hline : o'.state.line = o.state.line := htogether.line
    have hstate : o'.state = ⟨o.state.cwd, o'.state.foreground, o.state.line⟩ := by
      rw [← hcwd, ← hline]
    exact ⟨hending, htogether.inner.past, hstate, htogether.inner.world⟩
  replace hrun := hrun.resolve_left id
  cases hend : o.ending <;> cases hend' : o'.ending <;> rw [hend, hend'] at hrun
  case returned.returned =>
    obtain ⟨rfl, hanywhere⟩ := hrun
    exact hsame hanywhere (hend'.trans hend.symm)
  case failed.failed =>
    obtain ⟨rfl, hanywhere⟩ := hrun
    exact hsame hanywhere (hend'.trans hend.symm)
  case outOfRounds.outOfRounds => exact hsame hrun (hend'.trans hend.symm)
  all_goals exact hrun.elim

end Shell

end LineShell
