import LineShell.Failure

/-!
# Faults

A fault makes one call fail in place of doing its work: the k-th call to a service, counted over
the whole life of a world.  A fault counts down, so the list of faults alone says what is to come.
-/

namespace LineShell

/-- A failure that the `countdown`-th call to a service from now on ends with. -/
structure Fault (Name : Type) where
  call : Name
  countdown : Nat
  failure : Failure

namespace Fault

variable {Name : Type} [DecidableEq Name]

def hit? (faults : List (Fault Name)) (call : Name) : Option Failure :=
  (faults.find? fun f => f.call = call && f.countdown == 1).map (·.failure)

def advance (faults : List (Fault Name)) (call : Name) : List (Fault Name) :=
  faults.filterMap fun f =>
    if f.call = call then
      if f.countdown ≤ 1 then none else some { f with countdown := f.countdown - 1 }
    else some f

end Fault

end LineShell
