import LineShell.Program

/-!
# Running a program in a world

A world answers calls.  Running a program threads the world through the answers and writes down, in
order, every call with its outcome and every log entry.  A world may have things of its own to
report while it answers a call; they stand behind that call.
-/

namespace LineShell

variable {σ Call World : Type} {Reply : Call → Type} {α : Type}

/-- What can be seen of a run: calls with their outcomes, and log entries. -/
inductive Event {Call : Type} (Reply : Call → Type) : Type where
  | called (c : Call) (outcome : Except Failure (Reply c))
  | logged (entry : Log.Entry)

/-- What a world answers to a call: the outcome, the world afterwards, and what happened inside. -/
structure Answer (World : Type) {Call : Type} (Reply : Call → Type) (c : Call) : Type where
  outcome : Except Failure (Reply c)
  world : World
  inner : List (Event Reply)

inductive Ending (α : Type) : Type where
  | returned (a : α)
  | failed (e : Failure)
  | outOfRounds

/-- A run: how it ended, the state and the world it left, and what was seen of it. -/
structure Outcome (σ World : Type) {Call : Type} (Reply : Call → Type) (α : Type) : Type where
  ending : Ending α
  state : σ
  world : World
  events : List (Event Reply)

namespace Program

def run (answer : (c : Call) → World → Answer World Reply c) :
    Program σ Reply α → σ → World → Outcome σ World Reply α
  | done a, s, w => ⟨.returned a, s, w, []⟩
  | fail e, s, w => ⟨.failed e, s, w, []⟩
  | outOfRounds, s, w => ⟨.outOfRounds, s, w, []⟩
  | read next, s, w => (next s).run answer s w
  | write s next, _, w => next.run answer s w
  | call c next, s, w =>
    let a := answer c w
    let rest := (next a.outcome).run answer s a.world
    { rest with events := .called c a.outcome :: (a.inner ++ rest.events) }
  | note entry next, s, w =>
    let rest := next.run answer s w
    { rest with events := .logged entry :: rest.events }

end Program

def Event.entries {Call : Type} {Reply : Call → Type} (events : List (Event Reply)) :
    List Log.Entry :=
  events.filterMap fun
    | .logged entry => some entry
    | .called .. => none

end LineShell
