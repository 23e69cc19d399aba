import LineShell.Proofs.Os.World

/-!
# Interrupts that are handed on

While the handler of interrupts is one that hands them on to a child, a wait first deals with all the
interrupts that have arrived, and sends the child a signal for each.  What is left then are the waits
without the interrupts (`Handed`).

Sending a signal may fail.  A child that has gone needs none, so that failure is `Harmless` and the wait
goes on.  Any other one ends the wait there and then, and the interrupts behind it stay where they are
(`StruckBy`).  A wait comes to one of the two (`answerWait_forward`).

The worlds here are those in which nothing but the sending of signals fails (`OsWorld.KillsFail`).
-/

namespace LineShell

open Program

/-! ## What is seen of it -/

/-- The signals that were sent, each with the process that it went to. -/
def signalsSent (events : List (Event OsCall.Reply)) : List (Int × Int) :=
  events.filterMap fun
    | .called (.kill pid signal) _ => some (pid, signal)
    | _ => none

/-- What the sending of signals failed with. -/
def signalFailures (events : List (Event OsCall.Reply)) : List Failure :=
  events.filterMap fun
    | .called (.kill ..) (.error e) => some e
    | _ => none

/-- Whether an event belongs to handing an interrupt on: the signal, or the log entry before it. -/
def Event.isForwarding : Event OsCall.Reply → Bool
  | .called (.kill ..) _ => true
  | .logged entry => entry.message = "Forwarding interrupt"
  | _ => false

/-- The events apart from those that hand interrupts on. -/
def unforwarded (events : List (Event OsCall.Reply)) : List (Event OsCall.Reply) :=
  events.filter fun event => !event.isForwarding

section Append

variable (events more : List (Event OsCall.Reply))

theorem signalsSent_append :
    signalsSent (events ++ more) = signalsSent events ++ signalsSent more := List.filterMap_append

theorem signalFailures_append :
    signalFailures (events ++ more) = signalFailures events ++ signalFailures more :=
  List.filterMap_append

theorem unforwarded_append :
    unforwarded (events ++ more) = unforwarded events ++ unforwarded more := List.filter_append ..

end Append

/-- The failure of a signal whose process has gone already. -/
def Harmless (e : Failure) : Prop := e.hasErrno Failure.noSuchProcess = true

/-- No signal failed but for processes that had gone. -/
def Unhindered (events : List (Event OsCall.Reply)) : Prop :=
  ∀ e ∈ signalFailures events, Harmless e

/-- The last signal failed, and it was the first one to do so while its process was there. -/
def StruckBy (e : Failure) (events : List (Event OsCall.Reply)) : Prop :=
  ∃ earlier, signalFailures events = earlier ++ [e] ∧ (∀ x ∈ earlier, Harmless x) ∧ ¬ Harmless e

variable {events more : List (Event OsCall.Reply)} {e : Failure}

theorem unhindered_append :
    Unhindered (events ++ more) ↔ Unhindered events ∧ Unhindered more := by
  simp only [Unhindered, signalFailures_append, List.forall_mem_append]

theorem unhindered_of_nil (h : signalFailures events = []) : Unhindered events := by
  intro x hx
  rw [h] at hx
  cases hx

theorem StruckBy.behind (h : StruckBy e more) (hbefore : Unhindered events) :
    StruckBy e (events ++ more) := by
  obtain ⟨earlier, hfailures, hearlier, he⟩ := h
  refine ⟨signalFailures events ++ earlier, ?_, ?_, he⟩
  · rw [signalFailures_append, hfailures, List.append_assoc]
  · intro x hx
    exact (List.mem_append.mp hx).elim (hbefore x) (hearlier x)

theorem StruckBy.append (h : StruckBy e events) (hmore : signalFailures more = []) :
    StruckBy e (events ++ more) := by
  obtain ⟨earlier, hfailures, hrest⟩ := h
  refine ⟨earlier, ?_, hrest⟩
  rw [signalFailures_append, hmore, List.append_nil, hfailures]

theorem StruckBy.not_unhindered (h : StruckBy e events) : ¬ Unhindered events := by
  obtain ⟨earlier, hfailures, -, he⟩ := h
  intro hall
  refine he (hall e ?_)
  rw [hfailures]
  exact List.mem_concat_self

namespace OsWorld

/-- Nothing fails but the sending of signals, and that in one of some ways. -/
def KillsFail (H : Failure → Prop) (w : OsWorld) : Prop := ∀ f ∈ w.faults, f.call = .kill ∧ H f.failure

variable {H : Failure → Prop} {w v u : OsWorld} {c : OsCall} {pid : Int}

theorem KillsFail.others (h : w.KillsFail H) (name : OsCall.Name) (hname : name ≠ .kill) :
    ∀ f ∈ w.faults, f.call ≠ name := fun f hf heq => hname (heq ▸ (h f hf).1)

/-- Every call but sending a signal and waiting is carried out. -/
theorem answer_of_killsFail (h : w.KillsFail H) (hkill : c.name ≠ .kill) (hwait : c.name ≠ .waitpid) :
    answer c w = ⟨(w.serve c).1, (w.serve c).2, []⟩ :=
  answer_of_unhit (h.others c.name hkill) hwait

theorem answer_waitpid_of_killsFail (h : w.KillsFail H) (now : Bool) :
    answer (.waitpid pid now) w = answerWait pid now w := by
  have hothers := h.others .waitpid nofun
  unfold answer
  dsimp only
  rw [Fault.hit?_of_forall_ne hothers, Fault.advance_of_forall_ne hothers]

/-- Where no interrupt has arrived none is dealt with. -/
theorem deliver_of_head {waits : List WaitEvent} (h : waits.head? ≠ some .interrupt) (w : OsWorld) :
    deliver waits w = (.ok (), w, []) := by
  cases waits with
  | nil => rfl
  | cons first rest =>
      cases first with
      | status process status => rfl
      | interrupt => exact absurd rfl h

/-! ## Handing on -/

/-- The waits without the interrupts. -/
def calmWaits (w : OsWorld) : List WaitEvent := w.waits.filter (· ≠ .interrupt)

/-- The waits at the front were dealt with, and a child was sent a signal for each interrupt among
them. -/
def SignalForEach (pid : Int) (waits left : List WaitEvent) (events : List (Event OsCall.Reply)) :
    Prop :=
  ∃ front, waits = front ++ left ∧
    signalsSent events = List.replicate (front.count .interrupt) (pid, interruptSignal)

theorem SignalForEach.trans {waits left later : List WaitEvent}
    (h : SignalForEach pid waits left events) (h' : SignalForEach pid left later more) :
    SignalForEach pid waits later (events ++ more) := by
  obtain ⟨front, rfl, hsent⟩ := h
  obtain ⟨next, rfl, hmore⟩ := h'
  refine ⟨front ++ next, (List.append_assoc ..).symm, ?_⟩
  rw [signalsSent_append, hsent, hmore, List.count_append, List.replicate_append_replicate]

theorem SignalForEach.length_le {waits left : List WaitEvent}
    (h : SignalForEach pid waits left events) : left.length ≤ waits.length := by
  obtain ⟨front, rfl, -⟩ := h
  rw [List.length_append]
  omega

/-- Some interrupts were handed on to a child, and nothing else happened. -/
structure Handed (pid : Int) (H : Failure → Prop) (w v : OsWorld)
    (events : List (Event OsCall.Reply)) : Prop where
  rest : v = { w with waits := v.waits, faults := v.faults }
  calm : v.calmWaits = w.calmWaits
  sent : SignalForEach pid w.waits v.waits events
  aside : unforwarded events = []
  faults : v.KillsFail H
  failures : ∀ e ∈ signalFailures events, H e

theorem handed_refl (pid : Int) (h : w.KillsFail H) : Handed pid H w w [] :=
  ⟨rfl, rfl, ⟨[], rfl, rfl⟩, rfl, h, fun _ he => nomatch he⟩

theorem Handed.trans (h : Handed pid H w v events) (h' : Handed pid H v u more) :
    Handed pid H w u (events ++ more) where
  rest := by
    rw [h'.rest, h.rest]
  calm := h'.calm.trans h.calm
  sent := h.sent.trans h'.sent
  aside := by
    rw [unforwarded_append, h.aside, h'.aside]
    rfl
  faults := h'.faults
  failures x hx := by
    rw [signalFailures_append, List.mem_append] at hx
    exact hx.elim (h.failures x) (h'.failures x)

/-- What is seen when an interrupt is handed on. -/
def handing (pid : Int) (outcome : Except Failure Unit) : List (Event OsCall.Reply) :=
  [.logged ⟨.debug, "syscalls", "Forwarding interrupt", some pid, []⟩,
    .called (.kill pid interruptSignal) outcome]

/-- The interrupt at the front is handed on, in a world in which the faults have come closer. -/
theorem handed_first (pid : Int) (hw : w.KillsFail H) {waits : List WaitEvent}
    (hwaits : w.waits = .interrupt :: waits) (outcome : Except Failure Unit)
    (houtcome : ∀ e, outcome = .error e → H e) :
    Handed pid H w { w with waits := waits, faults := Fault.advance w.faults .kill }
      (handing pid outcome) where
  rest := rfl
  calm := by
    rw [calmWaits, calmWaits, hwaits]
    rfl
  sent := by
    rw [hwaits]
    exact ⟨[.interrupt], rfl, rfl⟩
  aside := by
    cases outcome <;> rfl
  faults := by
    intro f hf
    obtain ⟨g, hg, hcall, hfailure⟩ := Fault.exists_of_mem_advance hf
    rw [← hcall, ← hfailure]
    exact hw g hg
  failures e he := by
    cases outcome with
    | ok nothing => cases he
    | error e' =>
        obtain rfl : e = e' := List.mem_singleton.mp he
        exact houtcome e rfl

theorem run_forwardTo (pid : Int) (w : OsWorld) :
    (Handler.forwardTo pid).run answerAtOnce () w =
      (match Fault.hit? w.faults .kill with
      | none => ⟨.returned (), (), { w with faults := Fault.advance w.faults .kill },
          handing pid (.ok ())⟩
      | some e => ⟨if e.hasErrno Failure.noSuchProcess then .returned () else .failed e, (),
          { w with faults := Fault.advance w.faults .kill }, handing pid (.error e)⟩ :
        Outcome Unit OsWorld OsCall.Reply Unit) := by
  unfold Handler.forwardTo
  simp only [bind_eq_bind, orElse, run_bind, run_log, OsCall.ask, run_attempt, run_request,
    answerAtOnce, OsCall.name, Outcome.andThen]
  cases Fault.hit? w.faults .kill with
  | none => rfl
  | some e =>
      by_cases he : e.hasErrno Failure.noSuchProcess = true
      · simp only [endingOf, Ending.attempt, if_pos he]
        rfl
      · simp only [endingOf, Ending.attempt, if_neg he]
        rfl

/-- What dealing with the interrupts that have arrived comes to: all of them are handed on, or the
failure of one ends it. -/
structure Delivered (pid : Int) (H : Failure → Prop) (w : OsWorld)
    (result : Except Failure Unit × OsWorld × List (Event OsCall.Reply)) : Prop where
  handed : Handed pid H w result.2.1 result.2.2
  ended : (result.1 = .ok () ∧ Unhindered result.2.2 ∧ result.2.1.waits.head? ≠ some .interrupt) ∨
    ∃ e, result.1 = .error e ∧ StruckBy e result.2.2

/-- Nothing is lost by handing on some interrupts before the others. -/
theorem Delivered.behind {result : Except Failure Unit × OsWorld × List (Event OsCall.Reply)}
    (h : Delivered pid H v result) (hbefore : Handed pid H w v events)
    (hunhindered : Unhindered events) :
    Delivered pid H w (result.1, result.2.1, events ++ result.2.2) where
  handed := hbefore.trans h.handed
  ended := by
    rcases h.ended with ⟨hok, hrest, hhead⟩ | ⟨e, herror, hstruck⟩
    · exact .inl ⟨hok, unhindered_append.mpr ⟨hunhindered, hrest⟩, hhead⟩
    · exact .inr ⟨e, herror, hstruck.behind hunhindered⟩

/-- Where no interrupt has arrived there is none to deal with. -/
theorem delivered_of_head (hw : w.KillsFail H) (hhead : w.waits.head? ≠ some .interrupt) :
    Delivered pid H w (.ok (), w, []) :=
  ⟨handed_refl pid hw, .inl ⟨rfl, unhindered_of_nil rfl, hhead⟩⟩

theorem delivered (waits : List WaitEvent) (hwaits : w.waits = waits)
    (hhandler : w.handler = .forward pid) (hw : w.KillsFail H) :
    Delivered pid H w (deliver waits w) := by
  induction waits generalizing w with
  | nil =>
      refine delivered_of_head hw ?_
      rw [hwaits]
      nofun
  | cons first rest ih =>
      cases first with
      | status process status =>
          refine delivered_of_head hw ?_
          rw [hwaits]
          nofun
      | interrupt =>
          have haction : (Handler.action? (σ := Unit) w.handler) = some (Handler.forwardTo pid) := by
            rw [hhandler]
            rfl
          let next : OsWorld := { w with waits := rest, faults := Fault.advance w.faults .kill }
          have hrun := run_forwardTo pid { w with waits := rest }
          -- a failure of handing the interrupt on ends the wait, unless the child has gone
          cases hhit : Fault.hit? w.faults .kill with
          | none =>
              have hfirst := handed_first pid hw hwaits (.ok ()) nofun
              have hlater := ih (w := next) rfl hhandler hfirst.faults
              simp only [deliver, haction, hrun, hhit]
              exact hlater.behind hfirst (unhindered_of_nil rfl)
          | some e =>
              have hfailure : H e := by
                obtain ⟨f, hf, -, rfl⟩ := Fault.exists_of_hit? hhit
                exact (hw f hf).2
              have hfirst := handed_first pid hw hwaits (.error e)
                fun x hx => Except.error.inj hx ▸ hfailure
              by_cases hharmless : e.hasErrno Failure.noSuchProcess = true
              · have hlater := ih (w := next) rfl hhandler hfirst.faults
                simp only [deliver, haction, hrun, hhit, if_pos hharmless]
                refine hlater.behind hfirst fun x hx => ?_
                rw [List.mem_singleton.mp hx]
                exact hharmless
              · simp only [deliver, haction, hrun, hhit, if_neg hharmless]
                exact ⟨hfirst, .inr ⟨e, rfl, [], rfl, fun _ hx => absurd hx List.not_mem_nil, hharmless⟩⟩

/-- What a wait is answered with behind the interrupts that have arrived: the status that is next, or
the failure of a signal. -/
theorem answer_waitpid_forward (hhandler : w.handler = .forward pid) (hw : w.KillsFail H) (child : Int)
    (now : Bool) :
    ∃ v events, Handed pid H w v events ∧
      ((answer (.waitpid child now) w = ⟨v.takeStatus.1, v.takeStatus.2, events⟩ ∧
          Unhindered events ∧ v.waits.head? ≠ some .interrupt) ∨
        ∃ e, answer (.waitpid child now) w = ⟨.error e, v, events⟩ ∧ StruckBy e events) := by
  obtain ⟨hhanded, hended⟩ := delivered w.waits rfl hhandler hw
  rw [answer_waitpid_of_killsFail hw, answerWait]
  rcases hdeliver : deliver w.waits w with ⟨outcome, v, events⟩
  rw [hdeliver] at hhanded hended
  refine ⟨v, events, hhanded, ?_⟩
  rcases hended with ⟨hok, hrest⟩ | ⟨e, herror, hstruck⟩
  · obtain rfl : outcome = .ok () := hok
    exact .inl ⟨rfl, hrest⟩
  · obtain rfl : outcome = .error e := herror
    exact .inr ⟨e, rfl, hstruck⟩

/-- Where no interrupt has arrived the status is taken. -/
theorem answer_waitpid_of_head (hw : w.KillsFail H) (hhead : w.waits.head? ≠ some .interrupt)
    (child : Int) (now : Bool) :
    answer (.waitpid child now) w = ⟨w.takeStatus.1, w.takeStatus.2, []⟩ := by
  rw [answer_waitpid_of_killsFail hw, answerWait, deliver_of_head hhead]

end OsWorld

end LineShell
