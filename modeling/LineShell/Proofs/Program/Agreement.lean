import LineShell.Proofs.Program.Footprint
import LineShell.Proofs.Program.Relates

/-!
# Agreement by footprint

Whether two machines agree on a program can be read off its footprint: where they agree on carrying out
each call in it, and where the changes and the log entries in it keep them together, they agree on the
whole (`Agrees.interpret_of_footprint`).  Where no call is carried out by others this is
`Agrees.of_footprint`.

A `plain` machine is a world on its own, which answers the calls of a program itself.  Two runs in two
worlds of one kind are runs on the same plain machine.
-/

namespace LineShell

open Program

variable {σ Call Call' : Type} {Reply : Call → Type} {Reply' : Call' → Type} {α : Type}

namespace Machine

/-- A world answers the calls of a program itself. -/
abbrev plain (σ : Type) {Call World : Type} {Reply : Call → Type}
    (answer : (c : Call) → World → Answer World Reply c) : Machine σ Reply where
  World := World
  Inner := Call
  InnerReply := Reply
  carryOut := request
  answer := answer

theorem run_plain {World : Type} {answer : (c : Call) → World → Answer World Reply c}
    (p : Program σ Reply α) (m : (plain σ answer).Moment) :
    (plain σ answer).run p m = p.run answer m.state m.world := by
  rw [run, interpret_self]

section Request

variable {World : Type} {answer : (c : Call) → World → Answer World Reply c} (c : Call)
  (m : (plain σ answer).Moment)

theorem ending_request : (plain σ answer).ending (request c) m = endingOf (answer c m.world).outcome := by
  rw [ending, run_plain, Program.run_request]

theorem after_request : (plain σ answer).after (request c) m =
    ⟨m.past ++ .called c (answer c m.world).outcome :: (answer c m.world).inner, m.state,
      (answer c m.world).world⟩ := by
  rw [after, run_plain, Program.run_request]

end Request

end Machine

namespace Program.Relates

variable {World : Type} {answer : (c : Call) → World → Answer World Reply c} {N : Machine σ Reply}
  {P : List (Event Reply) → Prop}

/-- Two worlds of one kind that answer a call alike. -/
theorem request {pre A : Relation (Machine.plain σ answer) (Machine.plain σ answer)}
    {stops : Relation (Machine.plain σ answer) (Machine.plain σ answer)} {c : Call}
    (h : ∀ l r, pre l r → P ((Machine.plain σ answer).after (request c) l).past ∨
      ((answer c l.world).outcome = (answer c r.world).outcome ∧
        A ((Machine.plain σ answer).after (request c) l)
          ((Machine.plain σ answer).after (request c) r))) :
    Relates (Machine.plain σ answer) (Machine.plain σ answer) P pre (request c) (request c)
      (fun a b l r => a = b ∧ A l r) (fun e e' l r => e = e' ∧ A l r) stops := by
  intro l r hpre
  refine (h l r hpre).imp_right fun ⟨hsame, hafter⟩ => ?_
  rw [Machine.ending_request, Machine.ending_request, ← hsame]
  cases (answer c l.world).outcome with
  | ok a => exact ⟨rfl, hafter⟩
  | error e => exact ⟨rfl, hafter⟩

/-- What the first of two programs ensures holds besides what relates it to the second. -/
theorem and_ensures {β : Type} {pre stops : Relation (Machine.plain σ answer) N}
    {returns : α → β → Relation (Machine.plain σ answer) N}
    {fails : Failure → Failure → Relation (Machine.plain σ answer) N} {p : Program σ Reply α}
    {q : Program σ Reply β} {I k : Assertion σ World Reply} {m : α → Assertion σ World Reply}
    {n : Failure → Assertion σ World Reply}
    (h : Relates (Machine.plain σ answer) N P pre p q returns fails stops)
    (hp : Ensures answer I p m n k) :
    Relates (Machine.plain σ answer) N P (fun l r => I l.past l.state l.world ∧ pre l r) p q
      (fun a b l r => m a l.past l.state l.world ∧ returns a b l r)
      (fun e e' l r => n e l.past l.state l.world ∧ fails e e' l r)
      fun l r => k l.past l.state l.world ∧ stops l r := by
  intro l r ⟨hI, hpre⟩
  refine (h l r hpre).imp_right fun hboth => ?_
  have hensured := hp l.past l.state l.world hI
  rw [← Machine.run_plain] at hensured
  change ((Machine.plain σ answer).ending p l).choose m n k _ _ _ at hensured
  cases hl : (Machine.plain σ answer).ending p l <;> cases hr : N.ending q r <;>
    rw [hl, hr] at hboth <;> rw [hl] at hensured
  case returned.returned => exact ⟨hensured, hboth⟩
  case failed.failed => exact ⟨hensured, hboth⟩
  case outOfRounds.outOfRounds => exact ⟨hensured, hboth⟩
  all_goals exact hboth.elim

/-- What the first of two programs ensures matters where both of them return. -/
theorem and_ensures_returns {β : Type} {pre stops : Relation (Machine.plain σ answer) N}
    {returns : α → β → Relation (Machine.plain σ answer) N}
    {fails : Failure → Failure → Relation (Machine.plain σ answer) N} {p : Program σ Reply α}
    {q : Program σ Reply β} {I k : Assertion σ World Reply} {m : α → Assertion σ World Reply}
    {n : Failure → Assertion σ World Reply}
    (h : Relates (Machine.plain σ answer) N P pre p q returns fails stops)
    (hp : Ensures answer I p m n k) :
    Relates (Machine.plain σ answer) N P (fun l r => I l.past l.state l.world ∧ pre l r) p q
      (fun a b l r => m a l.past l.state l.world ∧ returns a b l r) fails stops :=
  (h.and_ensures hp).mono (fun _ _ hpre => hpre) (fun _ _ _ _ hboth => hboth)
    (fun _ _ _ _ hboth => hboth.2) fun _ _ hboth => hboth.2

end Program.Relates

namespace Program.Agrees

variable {M N : Machine σ Reply} {P : List (Event M.InnerReply) → Prop} {A : Relation M N}

/-- Machines that carry out each call in the footprint of a program alike, and that are kept together by
the changes and the log entries in it, agree on the program.  Carrying out a call must leave the state
alone. -/
theorem interpret_of_footprint (hP : Lasting P) {S : Scope σ Call'} {p : Program σ Reply' α}
    {carryOut : (c : Call') → Program σ Reply (Reply' c)} (hp : p.Footprint S)
    (hcall : ∀ c, S.calls c → Agrees M N P A (carryOut c))
    (hsteady : ∀ c m, (M.after (carryOut c) m).state = m.state)
    (hstates : ∀ l r, A l r → r.state = l.state)
    (hchange : ∀ l r t, S.changes l.state t → A l r → A { l with state := t } { r with state := t })
    (hnote : ∀ entry, S.notes entry → ∀ l r, A l r →
      A { l with past := l.past ++ [.logged entry] } { r with past := r.past ++ [.logged entry] }) :
    Agrees M N P A (p.interpret carryOut) := by
  -- the induction is on the tree of the program, whose footprint depends on the state it has come to
  have main : ∀ (p : Program σ Reply' α) s, p.Within S s →
      Relates M N P (fun l r => l.state = s ∧ A l r) (p.interpret carryOut) (p.interpret carryOut)
        (fun a b l r => a = b ∧ A l r) (fun e e' l r => e = e' ∧ A l r) A := by
    intro p
    induction p with
    | done a => exact fun s _ => Relates.done fun _ _ h => ⟨rfl, h.2⟩
    | fail e => exact fun s _ => Relates.fail fun _ _ h => ⟨rfl, h.2⟩
    | outOfRounds => exact fun s _ => Relates.outOfRounds fun _ _ h => h.2
    | read next ih =>
        intro s hin l r ⟨hstate, hA⟩
        have hnext := ih s s hin l r ⟨hstate, hA⟩
        rw [← hstate] at hnext
        have hsame : N.run ((read next).interpret carryOut) r =
            N.run ((next l.state).interpret carryOut) r := by
          rw [← hstates l r hA]
          rfl
        unfold Machine.ending Machine.after at hnext ⊢
        rw [hsame]
        exact hnext
    | write t next ih =>
        intro s hin l r ⟨hstate, hA⟩
        have hchanged := hchange l r t (hstate ▸ hin.1) hA
        exact ih t hin.2 { l with state := t } { r with state := t } ⟨rfl, hchanged⟩
    | call c next ih =>
        intro s hin
        have hdone : Relates M N P (fun l r => l.state = s ∧ A l r) (carryOut c) (carryOut c)
            (fun a b l r => a = b ∧ l.state = s ∧ A l r) (fun e e' l r => e = e' ∧ l.state = s ∧ A l r)
            A := by
          intro l r ⟨hstate, hA⟩
          -- the rest is in scope for the state before the call, and the call left that alone
          have hkept := (hsteady c l).trans hstate
          refine (hcall c hin.1 l r hA).imp_right fun hboth => ?_
          cases hl : M.ending (carryOut c) l <;> cases hr : N.ending (carryOut c) r <;>
            rw [hl, hr] at hboth
          case returned.returned => exact ⟨hboth.1, hkept, hboth.2⟩
          case failed.failed => exact ⟨hboth.1, hkept, hboth.2⟩
          case outOfRounds.outOfRounds => exact hboth
          all_goals exact hboth.elim
        refine Relates.attempt_bind hP hdone (fun a b => ?_) fun e e' => ?_
        · refine Relates.and_pre fun hab => ?_
          subst hab
          exact ih (.ok a) s (hin.2 _)
        · refine Relates.and_pre fun hee' => ?_
          subst hee'
          exact ih (.error e) s (hin.2 _)
    | note entry next ih =>
        intro s hin
        refine Relates.bind (p := log entry) (q := log entry) hP (m := fun _ _ l r => l.state = s ∧ A l r)
          (Relates.log fun l r h => ⟨h.1, hnote entry hin.1 l r h.2⟩) fun _ _ => ih s hin.2
  intro l r hA
  exact main p l.state (hp l.state) l r ⟨rfl, hA⟩

/-- Machines that agree on each call in the footprint of a program, and that are kept together by the
changes and the log entries in it, agree on the program. -/
theorem of_footprint (hP : Lasting P) {S : Scope σ Call} {p : Program σ Reply α} (hp : p.Footprint S)
    (hcall : ∀ c, S.calls c → Agrees M N P A (request c))
    (hsteady : ∀ c m, (M.after (request c) m).state = m.state)
    (hstates : ∀ l r, A l r → r.state = l.state)
    (hchange : ∀ l r t, S.changes l.state t → A l r → A { l with state := t } { r with state := t })
    (hnote : ∀ entry, S.notes entry → ∀ l r, A l r →
      A { l with past := l.past ++ [.logged entry] } { r with past := r.past ++ [.logged entry] }) :
    Agrees M N P A p := by
  rw [← interpret_self p]
  exact interpret_of_footprint hP hp hcall hsteady hstates hchange hnote

/-- Two worlds of one kind that answer a call alike agree on it. -/
theorem request {World : Type} {answer : (c : Call) → World → Answer World Reply c}
    {P : List (Event Reply) → Prop} {A : Relation (Machine.plain σ answer) (Machine.plain σ answer)}
    {c : Call}
    (h : ∀ l r, A l r → P ((Machine.plain σ answer).after (request c) l).past ∨
      ((answer c l.world).outcome = (answer c r.world).outcome ∧
        A ((Machine.plain σ answer).after (request c) l)
          ((Machine.plain σ answer).after (request c) r))) :
    Agrees (Machine.plain σ answer) (Machine.plain σ answer) P A (request c) :=
  Relates.request h

end Program.Agrees

end LineShell
