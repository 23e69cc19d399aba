import LineShell.Proofs.Program.Footprint

/-!
# Runs with notes

A program may be made to leave log entries that it does not leave of its own, so that a run shows
more than its calls.  Taking these entries out again gives the run as it was (`Outcome.without`).
-/

namespace LineShell

variable {σ Call World : Type} {Reply : Call → Type} {α β : Type}

/-- Whether an event is no hidden log entry. -/
def Event.isVisible (hidden : Log.Entry → Bool) : Event Reply → Bool
  | .logged entry => !hidden entry
  | .called .. => true

/-- A run without the hidden log entries. -/
def Outcome.without (hidden : Log.Entry → Bool) (o : Outcome σ World Reply α) :
    Outcome σ World Reply α :=
  { o with events := o.events.filter (Event.isVisible hidden) }

variable (hidden : Log.Entry → Bool)

theorem Outcome.without_andThen (o : Outcome σ World Reply α)
    (f : α → σ → World → Outcome σ World Reply β) :
    (o.andThen f).without hidden =
      (o.without hidden).andThen fun a s w => (f a s w).without hidden := by
  cases hend : o.ending <;> simp [Outcome.andThen, Outcome.without, hend]

variable {hidden} {answer : (c : Call) → World → Answer World Reply c}

/-- Nothing is taken out of the run of a program that leaves no hidden log entry. -/
theorem Program.Footprint.run_without {S : Scope σ Call} {p : Program σ Reply α}
    (hp : p.Footprint S) (hnotes : ∀ entry, S.notes entry → hidden entry = false)
    (hinner : ∀ c w, (answer c w).inner = []) (s : σ) (w : World) :
    (p.run answer s w).without hidden = p.run answer s w := by
  have hkept : Ensures answer (fun past _ _ => past.filter (Event.isVisible hidden) = past) p
      (fun _ past _ _ => past.filter (Event.isVisible hidden) = past)
      (fun _ past _ _ => past.filter (Event.isVisible hidden) = past)
      fun past _ _ => past.filter (Event.isVisible hidden) = past := by
    refine hp.ensures (fun c _ past s w h => ?_) (fun _ _ _ _ _ h => h)
      (fun entry hentry past s w h => ?_) fun _ _ _ _ h => h
    · rw [hinner, List.filter_append, h]
      rfl
    · have hvisible : @Event.isVisible Call Reply hidden (.logged entry) = true := by
        rw [Event.isVisible, hnotes entry hentry, Bool.not_false]
      rw [List.filter_append, h, List.filter_cons_of_pos hvisible, List.filter_nil]
  have hevents := hkept.always (fun _ _ _ _ h => h) (fun _ _ _ _ h => h) (fun _ _ _ h => h)
    (s := s) (w := w) rfl
  rw [Outcome.without, hevents]

end LineShell
