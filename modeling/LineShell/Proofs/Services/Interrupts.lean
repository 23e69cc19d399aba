import LineShell.Proofs.Os.Interrupts
import LineShell.Proofs.Program.Agreement
import LineShell.Proofs.Services.Host

/-!
# Services with interrupts and without

Two worlds that are the same but for the interrupts to come are compared.  What is done in the one is
done in the other, apart from the signals that hand interrupts on: the moments of the two runs stay
`Undisturbed` by them, unless a signal is `Struck` down.

Outside of a wait no interrupt is dealt with, so every call but a wait is answered alike
(`agrees_ask`).  During a wait both worlds have the handler that hands interrupts on
(`relates_install`), and there a look at the child is answered alike too (`agrees_look`).  All else is
composed of these, up to programs over all services (`agrees_onHost`).
-/

namespace LineShell

open Program OsCall

namespace OsWorld

/-- The same world without the interrupts to come, and with other faults. -/
def quieted (w : OsWorld) (faults : List (Fault OsCall.Name)) : OsWorld :=
  { w with waits := w.calmWaits, faults := faults }

/-- The same world without the interrupts to come. -/
def undisturbed (w : OsWorld) : OsWorld := w.quieted w.faults

variable {w v : OsWorld} {c : OsCall} {faults : List (Fault OsCall.Name)}

/-! ## What calls keep -/

/-- Waits and faults stay as they are, and so does the thread. -/
theorem serve_kept (hc : c.name ≠ .waitpid) (w : OsWorld) :
    (w.serve c).2.waits = w.waits ∧ (w.serve c).2.faults = w.faults ∧
      (w.serve c).2.mainThread = w.mainThread := by
  cases c with
  | waitpid pid now => exact absurd rfl hc
  | _ =>
      refine ⟨?_, ?_, ?_⟩ <;> simp only [serve, seek, readBytes, chdir, setSource] <;>
        (repeat' split) <;> rfl

theorem serve_handler (hc : c.name ≠ .signal) (w : OsWorld) :
    (w.serve c).2.handler = w.handler := by
  cases c with
  | signal handler => exact absurd rfl hc
  | _ =>
      simp only [serve, seek, readBytes, chdir, takeStatus, setSource] <;> (repeat' split) <;> rfl

/-- Only a wait depends on the waits to come, and no call that is carried out on the faults. -/
theorem serve_aside (hc : c.name ≠ .waitpid) (w : OsWorld) (waits : List WaitEvent)
    (faults : List (Fault OsCall.Name)) :
    ({ w with waits := waits, faults := faults } : OsWorld).serve c =
      ((w.serve c).1, { (w.serve c).2 with waits := waits, faults := faults }) := by
  cases c with
  | waitpid pid now => exact absurd rfl hc
  | _ => simp only [serve, seek, readBytes, chdir, setSource] <;> (repeat' split) <;> rfl

theorem serve_quieted (hc : c.name ≠ .waitpid) (w : OsWorld) (faults : List (Fault OsCall.Name)) :
    (w.quieted faults).serve c = ((w.serve c).1, (w.serve c).2.quieted faults) := by
  rw [quieted, serve_aside hc, quieted, calmWaits, calmWaits, (serve_kept hc w).1]

/-- A status is taken alike where no interrupt is in front of it. -/
theorem takeStatus_quieted (hhead : w.waits.head? ≠ some .interrupt)
    (faults : List (Fault OsCall.Name)) :
    (w.quieted faults).takeStatus = (w.takeStatus.1, w.takeStatus.2.quieted faults) := by
  cases hfirst : w.waits with
  | nil =>
      have hcalm : (w.quieted faults).waits = [] := by
        rw [quieted, calmWaits, hfirst]
        rfl
      rw [takeStatus_of_nil hfirst, takeStatus_of_nil hcalm]
  | cons first rest =>
      cases first with
      | interrupt => exact absurd (by rw [hfirst]; rfl) hhead
      | status process status =>
          have hcalm : (w.quieted faults).waits =
              .status process status :: rest.filter (· ≠ .interrupt) := by
            rw [quieted, calmWaits, hfirst]
            rfl
          rw [takeStatus_of_cons hfirst, takeStatus_of_cons hcalm]
          rfl

/-- Taking a status changes the waits to come at most. -/
theorem takeStatus_rest (w : OsWorld) : ∃ waits, w.takeStatus.2 = { w with waits := waits } := by
  unfold takeStatus
  split
  · exact ⟨_, rfl⟩
  · exact ⟨w.waits, rfl⟩

theorem quieted_head (w : OsWorld) (faults : List (Fault OsCall.Name)) :
    (w.quieted faults).waits.head? ≠ some .interrupt := by
  intro hinterrupt
  have hmem := List.mem_of_head? hinterrupt
  simp [quieted, calmWaits] at hmem

theorem answer_signal {H : Failure → Prop} (hmain : w.mainThread = true) (hw : w.KillsFail H)
    (handler : Handler) :
    answer (.signal handler) w = ⟨.ok w.handler, { w with handler := handler }, []⟩ := by
  have hkill : (OsCall.signal handler).name ≠ .kill := nofun
  have hwait : (OsCall.signal handler).name ≠ .waitpid := nofun
  rw [answer_of_killsFail hw hkill hwait, serve, if_pos hmain]

/-- Handing interrupts on leaves the same world without them. -/
theorem Handed.quieted {pid : Int} {H : Failure → Prop} {events : List (Event OsCall.Reply)}
    (h : Handed pid H w v events) (faults : List (Fault OsCall.Name)) :
    v.quieted faults = w.quieted faults := by
  rw [OsWorld.quieted, OsWorld.quieted, h.calm, h.rest]

end OsWorld

namespace Host

open Machine (plain after_request)
open OsWorld (answer KillsFail)

variable {σ : Type} {H : Failure → Prop} {pid : Int}

/-- A signal failed while its process was there. -/
def Struck (events : List (Event OsCall.Reply)) : Prop := ¬ Unhindered events

theorem lasting_struck : Lasting Struck :=
  fun _ _ hstruck h => hstruck (unhindered_append.mp h).1

/-- Two worlds that are the same but for the interrupts to come, in the main thread, where nothing but
the sending of signals fails. -/
structure Calmed (H : Failure → Prop) (w v : OsWorld) : Prop where
  same : v = w.quieted v.faults
  main : w.mainThread = true
  faults : w.KillsFail H
  calmFaults : v.KillsFail H

/-- Two moments that are the same but for interrupts: those to come, and what was done to hand them
on. -/
structure Undisturbed (H : Failure → Prop) (l r : (plain σ answer).Moment) : Prop where
  worlds : Calmed H l.world r.world
  state : r.state = l.state
  past : unforwarded r.past = unforwarded l.past
  quiet : signalsSent r.past = []

/-- The same while interrupts are handed on to a child. -/
def Watched (pid : Int) (H : Failure → Prop) (l r : (plain σ answer).Moment) : Prop :=
  l.world.handler = .forward pid ∧ Undisturbed H l r

variable {w v : OsWorld} {c : OsCall}

/-- Every call but a wait, or a signal that is sent, is answered alike. -/
theorem Calmed.ask (h : Calmed H w v) (hkill : c.name ≠ .kill) (hwait : c.name ≠ .waitpid) :
    (answer c w).outcome = (answer c v).outcome ∧
      Calmed H (answer c w).world (answer c v).world := by
  have hserve : v.serve c = ((w.serve c).1, (w.serve c).2.quieted v.faults) :=
    (congrArg (OsWorld.serve · c) h.same).trans (OsWorld.serve_quieted hwait w v.faults)
  obtain ⟨-, hfaults, hmain⟩ := OsWorld.serve_kept hwait w
  rw [OsWorld.answer_of_killsFail h.faults hkill hwait,
    OsWorld.answer_of_killsFail h.calmFaults hkill hwait, hserve]
  refine ⟨rfl, rfl, hmain.trans h.main, ?_, h.calmFaults⟩
  show ∀ f ∈ (w.serve c).2.faults, _
  rw [hfaults]
  exact h.faults

/-- While interrupts are handed on, a look at a child is answered alike too: the interrupts are dealt
with before the status is taken. -/
theorem Calmed.look (h : Calmed H w v) (hhandler : w.handler = .forward pid) (child : Int)
    (now : Bool) :
    Struck (answer (.waitpid child now) w).inner ∨
      ((answer (.waitpid child now) w).outcome = (answer (.waitpid child now) v).outcome ∧
        Calmed H (answer (.waitpid child now) w).world (answer (.waitpid child now) v).world ∧
        (answer (.waitpid child now) w).world.handler = .forward pid ∧
        unforwarded (answer (.waitpid child now) w).inner = [] ∧
        (answer (.waitpid child now) v).inner = []) := by
  obtain ⟨u, events, hhanded, hended⟩ :=
    OsWorld.answer_waitpid_forward hhandler h.faults child now
  rcases hended with ⟨hanswer, -, hhead⟩ | ⟨e, hanswer, hstruck⟩
  -- once the interrupts in front are gone, the two worlds differ in the later ones only
  · have hsame : v = u.quieted v.faults := by
      rw [hhanded.quieted]
      exact h.same
    have hfirst : v.waits.head? ≠ some .interrupt := by
      rw [hsame]
      exact OsWorld.quieted_head u _
    have htaken : v.takeStatus = (u.takeStatus.1, u.takeStatus.2.quieted v.faults) :=
      (congrArg OsWorld.takeStatus hsame).trans (OsWorld.takeStatus_quieted hhead v.faults)
    obtain ⟨waits, hrest⟩ := u.takeStatus_rest
    have hmain : u.mainThread = true := by
      rw [hhanded.rest]
      exact h.main
    have hforward : u.handler = .forward pid := by
      rw [hhanded.rest]
      exact hhandler
    right
    rw [hanswer, OsWorld.answer_waitpid_of_head h.calmFaults hfirst, htaken, hrest]
    exact ⟨rfl, ⟨rfl, hmain, hhanded.faults, h.calmFaults⟩, hforward, hhanded.aside, rfl⟩
  · left
    rw [hanswer]
    exact hstruck.not_unhindered

section Moments

variable {l r : (plain σ answer).Moment}

theorem Undisturbed.with_state (h : Undisturbed H l r) (t : σ) :
    Undisturbed H { l with state := t } { r with state := t } := ⟨h.worlds, rfl, h.past, h.quiet⟩

theorem Undisturbed.log (h : Undisturbed H l r) (entry : Log.Entry) :
    Undisturbed H { l with past := l.past ++ [.logged entry] }
      { r with past := r.past ++ [.logged entry] } := by
  refine ⟨h.worlds, h.state, ?_, ?_⟩
  · rw [unforwarded_append, unforwarded_append, h.past]
  · rw [signalsSent_append, h.quiet]
    rfl

/-- A call that is answered alike keeps the two together. -/
theorem Undisturbed.called (h : Undisturbed H l r) (hc : c.name ≠ .kill)
    (houtcome : (answer c l.world).outcome = (answer c r.world).outcome)
    (hworlds : Calmed H (answer c l.world).world (answer c r.world).world)
    (hl : unforwarded (answer c l.world).inner = []) (hr : (answer c r.world).inner = []) :
    Undisturbed H ((plain σ answer).after (ask c) l) ((plain σ answer).after (ask c) r) := by
  rw [ask, after_request, after_request, houtcome, hr]
  refine ⟨hworlds, h.state, ?_, ?_⟩
  · rw [List.append_cons l.past, unforwarded_append, unforwarded_append, unforwarded_append, h.past, hl,
      List.append_nil]
  · rw [signalsSent_append, h.quiet]
    cases c with
    | kill => exact absurd rfl hc
    | _ => rfl

end Moments

theorem Undisturbed.ask {l r : (plain σ answer).Moment} (h : Undisturbed H l r)
    (hkill : c.name ≠ .kill) (hwait : c.name ≠ .waitpid) :
    (answer c l.world).outcome = (answer c r.world).outcome ∧
      Undisturbed H ((plain σ answer).after (ask c) l) ((plain σ answer).after (ask c) r) := by
  obtain ⟨houtcome, hworlds⟩ := h.worlds.ask hkill hwait
  refine ⟨houtcome, h.called hkill houtcome hworlds ?_ (OsWorld.answer_inner_of_ne hwait _)⟩
  rw [OsWorld.answer_inner_of_ne hwait]
  rfl

theorem agrees_ask (hkill : c.name ≠ .kill) (hwait : c.name ≠ .waitpid) :
    Agrees (plain σ answer) (plain σ answer) Struck (Undisturbed H) (ask c) :=
  Agrees.request fun _ _ h => .inr (h.ask hkill hwait)

/-! ## Waiting -/

/-- Looking at a child keeps the handler that hands interrupts on. -/
theorem agrees_look (hc : lookingCalls.contains c.name) :
    Agrees (plain σ answer) (plain σ answer) Struck (Watched pid H) (ask c) := by
  have hkill : c.name ≠ .kill := fun heq => by simp [heq, lookingCalls] at hc
  have hsignal : c.name ≠ .signal := fun heq => by simp [heq, lookingCalls] at hc
  refine Agrees.request fun l r ⟨hhandler, h⟩ => ?_
  by_cases hwait : c.name = .waitpid
  · cases c with
    | waitpid child now =>
        rcases h.worlds.look hhandler child now with hstruck | ⟨houtcome, hworlds, hforward, hl, hr⟩
        · left
          rw [after_request]
          intro hunhindered
          rw [← List.singleton_append, unhindered_append, unhindered_append] at hunhindered
          exact hstruck hunhindered.2.2
        · refine .inr ⟨houtcome, ?_, h.called hkill houtcome hworlds hl hr⟩
          rw [after_request]
          exact hforward
    | _ => cases hwait
  · obtain ⟨houtcome, hafter⟩ := h.ask hkill hwait
    refine .inr ⟨houtcome, ?_, hafter⟩
    rw [after_request, OsWorld.answer_of_killsFail h.worlds.faults hkill hwait]
    exact (OsWorld.serve_handler hsignal l.world).trans hhandler

theorem Watched.with_state {l r : (plain σ answer).Moment} (h : Watched pid H l r) (t : σ) :
    Watched pid H { l with state := t } { r with state := t } := ⟨h.1, h.2.with_state t⟩

theorem agrees_awaitStatus (rounds : Nat) (child : Int) (timeout : Value) :
    Agrees (plain σ answer) (plain σ answer) Struck (Watched pid H)
      (awaitStatus rounds child timeout) := by
  refine Agrees.of_footprint lasting_struck (footprint_awaitStatus rounds child timeout)
    (fun c hc => agrees_look hc) (fun c m => ?_) (fun _ _ h => h.2.state) (fun _ _ t _ h => ?_)
    fun entry _ l r h => ⟨h.1, h.2.log entry⟩
  · rw [after_request]
  · exact h.with_state t

/-- The handler that is given back: one that was not set becomes the default one. -/
def givenBack (handler : Handler) : Handler := if handler = .unset then .default else handler

/-- In the main thread a handler is installed. -/
theorem run_install (handler : Handler) (s : σ) (hmain : w.mainThread = true) (hw : w.KillsFail H) :
    (install handler).run answer s w = ⟨.returned (some w.handler), s, { w with handler := handler },
      [.called (.signal handler) (.ok w.handler)]⟩ := by
  unfold install
  rw [bind_eq_bind, run_bind, run_attempt, OsCall.ask, run_request, OsWorld.answer_signal hmain hw]
  rfl

/-- In the main thread a handler is given back. -/
theorem run_giveBack (previous : Handler) (s : σ) (hmain : w.mainThread = true) (hw : w.KillsFail H) :
    (giveBack (some previous)).run answer s w =
      ⟨.returned (), s, { w with handler := givenBack previous },
        [.called (.signal (givenBack previous)) (.ok w.handler)]⟩ := by
  rw [giveBack, bind_eq_bind, run_bind, OsCall.ask, run_request, OsWorld.answer_signal hmain hw]
  rfl

/-- Behind the installation interrupts are handed on in both worlds. -/
theorem relates_install (pid : Int) :
    Relates (plain σ answer) (plain σ answer) Struck (Undisturbed H) (install (.forward pid))
      (install (.forward pid)) (fun a b l r => a = b ∧ Watched pid H l r)
      (fun e e' l r => e = e' ∧ Undisturbed H l r) (Undisturbed H) := by
  intro l r h
  have hprevious : r.world.handler = l.world.handler := by
    rw [h.worlds.same]
    rfl
  have hrmain : r.world.mainThread = true := by
    rw [h.worlds.same]
    exact h.worlds.main
  right
  unfold Machine.ending Machine.after
  rw [Machine.run_plain, Machine.run_plain, run_install _ _ h.worlds.main h.worlds.faults,
    run_install _ _ hrmain h.worlds.calmFaults, hprevious]
  have hasked := (h.ask (c := .signal (.forward pid)) nofun nofun).2
  rw [OsCall.ask, after_request, after_request, OsWorld.answer_signal h.worlds.main h.worlds.faults,
    OsWorld.answer_signal hrmain h.worlds.calmFaults, hprevious] at hasked
  exact ⟨rfl, rfl, hasked⟩

theorem agrees_giveBack (previous : Option Handler) :
    Agrees (plain σ answer) (plain σ answer) Struck (Undisturbed H) (giveBack previous) := by
  cases previous with
  | none => exact Agrees.done ()
  | some handler =>
      exact Agrees.bind lasting_struck (agrees_ask nofun nofun) fun _ => Agrees.done ()

/-- Whatever is done alike while interrupts are handed on is done alike as a whole. -/
theorem agrees_forwarding {α : Type} {p : Program σ OsCall.Reply α}
    (hp : Agrees (plain σ answer) (plain σ answer) Struck (Watched pid H) p) :
    Agrees (plain σ answer) (plain σ answer) Struck (Undisturbed H) (forwarding pid p) := by
  refine Relates.bind lasting_struck (relates_install pid) fun previous previous' =>
    Relates.and_pre fun hsame => ?_
  subst hsame
  have hinside : Relates (plain σ answer) (plain σ answer) Struck (Watched pid H) p p
      (fun a b l r => a = b ∧ Undisturbed H l r) (fun e e' l r => e = e' ∧ Undisturbed H l r)
      (Undisturbed H) :=
    Relates.mono hp (fun _ _ h => h) (fun _ _ _ _ h => ⟨h.1, h.2.2⟩) (fun _ _ _ _ h => ⟨h.1, h.2.2⟩)
      fun _ _ h => h.2
  refine Relates.andFinally lasting_struck hinside (fun a b => ?_) fun e e' => ?_
  · exact Relates.and_pre fun hab => (agrees_giveBack previous).mono_returns fun _ _ _ _ h => ⟨hab, h.2⟩
  · exact Relates.and_pre fun hee' => (agrees_giveBack previous).mono_returns fun _ _ _ _ h => ⟨hee', h.2⟩

/-! ## All services -/

/-- A service that neither waits nor sends signals comes to the same in both. -/
theorem agrees_of_footprint {α : Type} {p : Program σ OsCall.Reply α} {names : List OsCall.Name}
    {stops : Bool} (hp : p.Footprint (scope names stops)) (hkill : .kill ∉ names)
    (hwait : .waitpid ∉ names) :
    Agrees (plain σ answer) (plain σ answer) Struck (Undisturbed H) p := by
  refine Agrees.of_footprint lasting_struck hp (fun c hc => ?_) (fun c m => ?_) (fun _ _ h => h.state)
    (fun _ _ t _ h => h.with_state t) fun entry _ _ _ h => h.log entry
  · have hname : c.name ∈ names := List.contains_iff_mem.mp hc
    exact agrees_ask (fun heq => hkill (heq ▸ hname)) fun heq => hwait (heq ▸ hname)
  · rw [after_request]

/-- A wait comes to the same in both. -/
theorem agrees_waitpid (rounds : Nat) (pid : Int) (timeout : Value) :
    Agrees (plain σ answer) (plain σ answer) Struck (Undisturbed H) (waitpid rounds pid timeout) := by
  have hawait : Agrees (plain σ answer) (plain σ answer) Struck (Watched pid H)
      (awaitStatus rounds pid timeout) := agrees_awaitStatus rounds pid timeout
  have hwaited := agrees_forwarding hawait
  refine Agrees.bind lasting_struck hwaited.attempt fun outcome => ?_
  rcases outcome with e | _ | status
  · have hother : Agrees (plain σ answer) (plain σ answer) Struck (Undisturbed H)
        (if e.hasErrno Failure.noChild then pure .noSuchProcess else fail e :
          Program σ OsCall.Reply WaitOutcome) := by
      split
      · exact Agrees.done _
      · exact Agrees.fail _
    cases e with
    | interrupt => exact Agrees.done _
    | _ => exact hother
  · exact Agrees.done _
  · have hclassify : (classify pid status : Program σ OsCall.Reply WaitOutcome).Footprint
        (scope [] false) := footprint_classify pid status
    exact agrees_of_footprint hclassify nofun nofun

theorem agrees_carryOut (spare : Nat) (c : ServiceCall) :
    Agrees (plain σ answer) (plain σ answer) Struck (Undisturbed H) (carryOut spare c) := by
  by_cases hwait : c.name = .waitpid
  · cases c with
    | waitpid pid timeout => exact agrees_waitpid spare pid timeout
    | _ => cases hwait
  · have hcalls : .kill ∉ callsOf c.name ∧ .waitpid ∉ callsOf c.name := by
      revert hwait
      generalize c.name = name
      cases name <;> decide
    exact agrees_of_footprint (footprint_carryOut spare c) hcalls.1 hcalls.2

/-- A program over all services comes to the same in both. -/
theorem agrees_onHost {α : Type} (spare : Nat) (p : Program σ ServiceCall.Reply α) :
    Agrees (plain σ answer) (plain σ answer) Struck (Undisturbed H) (onHost spare p) := by
  refine Agrees.interpret_of_footprint lasting_struck (Footprint.anything p)
    (fun c _ => agrees_carryOut spare c) (fun c m => ?_) (fun _ _ h => h.state)
    (fun _ _ t _ h => h.with_state t) fun entry _ _ _ h => h.log entry
  unfold Machine.after
  rw [Machine.run_plain]
  exact (footprint_carryOut spare c).run_state (fun _ _ h => h) m.state m.world

/-- Two runs that are the same but for interrupts: the same calls apart from the signals that hand
interrupts on, of which the second run has none, the same ending, and nothing left different but the
interrupts to come and the faults. -/
structure SameButInterrupts {α : Type} (o calm : Outcome σ OsWorld OsCall.Reply α) : Prop where
  ending : calm.ending = o.ending
  calls : unforwarded calm.events = unforwarded o.events
  quiet : signalsSent calm.events = []
  state : calm.state = o.state
  world : calm.world = o.world.quieted calm.world.faults

/-- What agrees comes to the same, unless a signal is struck down. -/
theorem Agrees.sameButInterrupts {α : Type} {p : Program σ OsCall.Reply α}
    (hp : Agrees (plain σ answer) (plain σ answer) Struck (Undisturbed H) p) (s : σ)
    (hmain : w.mainThread = true) (hw : w.KillsFail H)
    (hunhindered : Unhindered (p.run answer s w).events) :
    SameButInterrupts (p.run answer s w) (p.run answer s w.undisturbed) := by
  have hstart : Undisturbed H (σ := σ) ⟨[], s, w⟩ ⟨[], s, w.undisturbed⟩ :=
    ⟨⟨rfl, hmain, hw, hw⟩, rfl, rfl, rfl⟩
  have hrun := hp _ _ hstart
  unfold Machine.ending Machine.after at hrun
  rw [Machine.run_plain, Machine.run_plain] at hrun
  generalize p.run answer s w = o at hrun hunhindered ⊢
  generalize p.run answer s w.undisturbed = calm at hrun ⊢
  have hsame : Undisturbed H ⟨[] ++ o.events, o.state, o.world⟩
      ⟨[] ++ calm.events, calm.state, calm.world⟩ → calm.ending = o.ending →
        SameButInterrupts o calm :=
    fun h hending => ⟨hending, h.past, h.quiet, h.state, h.worlds.same⟩
  replace hrun := hrun.resolve_left fun hstruck => hstruck hunhindered
  cases hend : o.ending <;> cases hend' : calm.ending <;> rw [hend, hend'] at hrun
  case returned.returned => exact hsame hrun.2 (by rw [hend, hend', hrun.1])
  case failed.failed => exact hsame hrun.2 (by rw [hend, hend', hrun.1])
  case outOfRounds.outOfRounds => exact hsame hrun (by rw [hend, hend'])
  all_goals exact hrun.elim

end Host

end LineShell
