import LineShell.Failure
import LineShell.Log.Entry

/-!
# Programs over calls

A `Program` is a computation written as a tree.  It may read and replace its own state, make a
call, after which it goes on with the reply or with the failure of the call, and leave a log entry.
It ends with a result, with a failure, or, when a loop has gone through all the rounds it was given,
without either.

The tree says what is done in which order and leaves open who answers the calls: the shell's
services in memory, the services of an operating system, or a reader of the tree who wants to know
what holds whatever the answers are.  The state belongs to the tree, so a failure keeps what was
done to the state before it.
-/

namespace LineShell

/-- A computation with a state of type `σ` that makes calls and is answered by `Reply`. -/
inductive Program (σ : Type) {Call : Type} (Reply : Call → Type) (α : Type) : Type where
  /-- Ends with a result. -/
  | done (a : α)
  /-- Ends with a failure. -/
  | fail (e : Failure)
  /-- Ends because a loop has used up its rounds. -/
  | outOfRounds
  /-- Reads the state. -/
  | read (next : σ → Program σ Reply α)
  /-- Replaces the state. -/
  | write (s : σ) (next : Program σ Reply α)
  /-- Makes a call and goes on with its outcome. -/
  | call (c : Call) (next : Except Failure (Reply c) → Program σ Reply α)
  /-- Leaves a log entry. -/
  | note (entry : Log.Entry) (next : Program σ Reply α)

namespace Program

variable {σ Call : Type} {Reply : Call → Type} {α β γ : Type}

/-- One program after another: the second starts from the result of the first. -/
def bind : Program σ Reply α → (α → Program σ Reply β) → Program σ Reply β
  | done a, f => f a
  | fail e, _ => fail e
  | outOfRounds, _ => outOfRounds
  | read next, f => read fun s => (next s).bind f
  | write s next, f => write s (next.bind f)
  | call c next, f => call c fun reply => (next reply).bind f
  | note entry next, f => note entry (next.bind f)

instance : Monad (Program σ Reply) where
  pure := done
  bind := bind

/-- The program with its failure, if it ends with one, as a result. -/
def attempt : Program σ Reply α → Program σ Reply (Except Failure α)
  | done a => done (.ok a)
  | fail e => done (.error e)
  | outOfRounds => outOfRounds
  | read next => read fun s => (next s).attempt
  | write s next => write s next.attempt
  | call c next => call c fun reply => (next reply).attempt
  | note entry next => note entry next.attempt

def ofExcept : Except Failure α → Program σ Reply α
  | .ok a => done a
  | .error e => fail e

def orElse (p : Program σ Reply α) (handler : Failure → Program σ Reply α) :
    Program σ Reply α :=
  p.attempt.bind fun
    | .ok a => done a
    | .error e => handler e

/-- Runs a second program after the first, whether that returns or fails.  The outcome is that of
the first unless the second fails. -/
def andFinally (p : Program σ Reply α) (last : Program σ Reply Unit) : Program σ Reply α :=
  p.attempt.bind fun outcome => last.bind fun _ => ofExcept outcome

def request (c : Call) : Program σ Reply (Reply c) := call c ofExcept

def state : Program σ Reply σ := read done

def update (f : σ → σ) : Program σ Reply Unit := read fun s => write (f s) (done ())

def log (entry : Log.Entry) : Program σ Reply Unit := note entry (done ())

/-- The program with every call carried out by a program over other calls. -/
def interpret {Call' : Type} {Reply' : Call' → Type}
    (carryOut : (c : Call) → Program σ Reply' (Reply c)) :
    Program σ Reply α → Program σ Reply' α
  | done a => done a
  | fail e => fail e
  | outOfRounds => outOfRounds
  | read next => read fun s => (next s).interpret carryOut
  | write s next => write s (next.interpret carryOut)
  | call c next => (carryOut c).attempt.bind fun reply => (next reply).interpret carryOut
  | note entry next => note entry (next.interpret carryOut)

/-! ## Laws -/

@[simp] theorem pure_eq_done (a : α) : (pure a : Program σ Reply α) = done a := rfl

@[simp] theorem bind_eq_bind (p : Program σ Reply α) (f : α → Program σ Reply β) :
    p >>= f = p.bind f := rfl

@[simp] theorem bind_done (p : Program σ Reply α) : p.bind done = p := by
  induction p with
  | done | fail | outOfRounds => rfl
  | read next ih => simp [bind, ih]
  | write s next ih => simp [bind, ih]
  | call c next ih => simp [bind, ih]
  | note entry next ih => simp [bind, ih]

theorem bind_assoc (p : Program σ Reply α) (f : α → Program σ Reply β)
    (g : β → Program σ Reply γ) : (p.bind f).bind g = p.bind fun a => (f a).bind g := by
  induction p with
  | done | fail | outOfRounds => rfl
  | read next ih => simp [bind, ih]
  | write s next ih => simp [bind, ih]
  | call c next ih => simp [bind, ih]
  | note entry next ih => simp [bind, ih]

end Program

end LineShell
