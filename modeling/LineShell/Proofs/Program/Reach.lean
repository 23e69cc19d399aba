import LineShell.Proofs.Program.Footprint

/-!
# The points of a run

`Program.run` says how a run ends.  What holds on the way is said of its points: what is left of the
program, the state and the world.  A point leads to the next one by a single read, write, call or log
entry, and `Reaches` goes from point to point.

The points of a composed program are points of its parts (`Reaches.bind_cases`,
`Reaches.attempt_cases`), and the end of a run is a point (`reaches_run`).
-/

namespace LineShell

variable {σ Call World : Type} {Reply : Call → Type} {α β : Type}

/-- A moment of a run: what is left of the program, the state and the world. -/
structure Point (σ World : Type) {Call : Type} (Reply : Call → Type) (α : Type) : Type where
  rest : Program σ Reply α
  state : σ
  world : World

namespace Point

/-- A point of a program that is followed by another one. -/
def bind (x : Point σ World Reply α) (f : α → Program σ Reply β) : Point σ World Reply β :=
  ⟨x.rest.bind f, x.state, x.world⟩

/-- A point of a program whose failure is a result. -/
def attempt (x : Point σ World Reply α) : Point σ World Reply (Except Failure α) :=
  ⟨x.rest.attempt, x.state, x.world⟩

variable (answer : (c : Call) → World → Answer World Reply c)

/-- The next point, if the program is not at its end. -/
def next? (x : Point σ World Reply α) : Option (Point σ World Reply α) :=
  match x.rest with
  | .done _ | .fail _ | .outOfRounds => none
  | .read next => some ⟨next x.state, x.state, x.world⟩
  | .write t next => some ⟨next, t, x.world⟩
  | .call c next => some ⟨next (answer c x.world).outcome, x.state, (answer c x.world).world⟩
  | .note _ next => some ⟨next, x.state, x.world⟩

variable {answer}

/-- What follows a point of the first of two programs is a point of it, unless it has returned. -/
theorem next?_bind {x : Point σ World Reply α} {f : α → Program σ Reply β}
    {z : Point σ World Reply β} (h : (x.bind f).next? answer = some z) :
    (∃ y, x.next? answer = some y ∧ z = y.bind f) ∨ ∃ a, x.rest = .done a := by
  obtain ⟨rest, s, w⟩ := x
  cases rest with
  | done a => exact .inr ⟨a, rfl⟩
  | fail e => cases h
  | outOfRounds => cases h
  | read next => cases h; exact .inl ⟨_, rfl, rfl⟩
  | write t next => cases h; exact .inl ⟨_, rfl, rfl⟩
  | call c next => cases h; exact .inl ⟨_, rfl, rfl⟩
  | note entry next => cases h; exact .inl ⟨_, rfl, rfl⟩

theorem next?_attempt {x : Point σ World Reply α} {z : Point σ World Reply (Except Failure α)}
    (h : x.attempt.next? answer = some z) : ∃ y, x.next? answer = some y ∧ z = y.attempt := by
  obtain ⟨rest, s, w⟩ := x
  cases rest with
  | done a => cases h
  | fail e => cases h
  | outOfRounds => cases h
  | read next => cases h; exact ⟨_, rfl, rfl⟩
  | write t next => cases h; exact ⟨_, rfl, rfl⟩
  | call c next => cases h; exact ⟨_, rfl, rfl⟩
  | note entry next => cases h; exact ⟨_, rfl, rfl⟩

/-- The next point is in the footprint, too. -/
theorem within_next {S : Scope σ Call} {x y : Point σ World Reply α}
    (hx : x.rest.Within S x.state) (h : x.next? answer = some y) : y.rest.Within S y.state := by
  obtain ⟨rest, s, w⟩ := x
  cases rest with
  | done a => cases h
  | fail e => cases h
  | outOfRounds => cases h
  | read next => cases h; exact hx
  | write t next => cases h; exact hx.2
  | call c next => cases h; exact hx.2 _
  | note entry next => cases h; exact hx.2

end Point

/-- The points that a run goes through. -/
inductive Reaches (answer : (c : Call) → World → Answer World Reply c)
    (start : Point σ World Reply α) : Point σ World Reply α → Prop
  | start : Reaches answer start start
  | next {x y : Point σ World Reply α} : Reaches answer start x → x.next? answer = some y →
      Reaches answer start y

namespace Reaches

variable {answer : (c : Call) → World → Answer World Reply c} {x y z : Point σ World Reply α}

theorem trans (hxy : Reaches answer x y) (hyz : Reaches answer y z) : Reaches answer x z := by
  induction hyz with
  | start => exact hxy
  | next _ hnext ih => exact ih.next hnext

/-- A run is at its start, or it has gone through the point after it. -/
theorem start_cases (h : Reaches answer x z) :
    z = x ∨ ∃ y, x.next? answer = some y ∧ Reaches answer y z := by
  induction h with
  | start => exact .inl rfl
  | next _ hnext ih =>
      rcases ih with rfl | ⟨y, hy, hreach⟩
      · exact .inr ⟨_, hnext, start⟩
      · exact .inr ⟨y, hy, hreach.next hnext⟩

/-- A run of one program after another is in the first, or the first has returned and it is in the
second. -/
theorem bind_cases {p : Program σ Reply α} {f : α → Program σ Reply β} {s : σ} {w : World}
    {z : Point σ World Reply β} (h : Reaches answer ⟨p.bind f, s, w⟩ z) :
    (∃ x, Reaches answer ⟨p, s, w⟩ x ∧ z = x.bind f) ∨
      ∃ a t v, Reaches answer ⟨p, s, w⟩ ⟨.done a, t, v⟩ ∧ Reaches answer ⟨f a, t, v⟩ z := by
  induction h with
  | start => exact .inl ⟨_, start, rfl⟩
  | next _ hnext ih =>
      rcases ih with ⟨x, hreach, rfl⟩ | ⟨a, t, v, hdone, hreach⟩
      · rcases Point.next?_bind hnext with ⟨y, hy, rfl⟩ | ⟨a, ha⟩
        · exact .inl ⟨y, hreach.next hy, rfl⟩
        · -- the first program has returned, so this step is one of the second
          obtain ⟨rest, t, v⟩ := x
          cases ha
          exact .inr ⟨a, t, v, hreach, start.next hnext⟩
      · exact .inr ⟨a, t, v, hdone, hreach.next hnext⟩

theorem attempt_cases {p : Program σ Reply α} {s : σ} {w : World}
    {z : Point σ World Reply (Except Failure α)} (h : Reaches answer ⟨p.attempt, s, w⟩ z) :
    ∃ x, Reaches answer ⟨p, s, w⟩ x ∧ z = x.attempt := by
  induction h with
  | start => exact ⟨_, start, rfl⟩
  | next _ hnext ih =>
      obtain ⟨x, hreach, rfl⟩ := ih
      obtain ⟨y, hy, rfl⟩ := Point.next?_attempt hnext
      exact ⟨y, hreach.next hy, rfl⟩

end Reaches

/-- The program that ends as it says. -/
def Ending.program : Ending α → Program σ Reply α
  | .returned a => .done a
  | .failed e => .fail e
  | .outOfRounds => .outOfRounds

theorem Ending.run_program (ending : Ending α) (answer : (c : Call) → World → Answer World Reply c) (s : σ)
    (w : World) : (ending.program : Program σ Reply α).run answer s w = ⟨ending, s, w, []⟩ := by
  cases ending <;> rfl

/-- A run gets to its end. -/
theorem reaches_run (answer : (c : Call) → World → Answer World Reply c) (p : Program σ Reply α)
    (s : σ) (w : World) :
    Reaches answer ⟨p, s, w⟩
      ⟨(p.run answer s w).ending.program, (p.run answer s w).state, (p.run answer s w).world⟩ := by
  induction p generalizing s w with
  | done a => exact .start
  | fail e => exact .start
  | outOfRounds => exact .start
  | read next ih => exact (Reaches.start.next rfl).trans (ih s s w)
  | write t next ih => exact (Reaches.start.next rfl).trans (ih t w)
  | call c next ih => exact (Reaches.start.next rfl).trans (ih _ s (answer c w).world)
  | note entry next ih => exact (Reaches.start.next rfl).trans (ih s w)

/-- A run stays in the footprint of its program, point by point. -/
theorem Reaches.within {answer : (c : Call) → World → Answer World Reply c} {S : Scope σ Call}
    {x y : Point σ World Reply α} (h : Reaches answer x y) (hx : x.rest.Within S x.state) :
    y.rest.Within S y.state := by
  induction h with
  | start => exact hx
  | next _ hnext ih => exact Point.within_next ih hnext

end LineShell
