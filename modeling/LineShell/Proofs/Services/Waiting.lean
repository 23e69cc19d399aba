import LineShell.Proofs.Services.Interrupts

/-!
# What a wait comes to

What waiting for a child comes to is told by the statuses to come, by the clock and by the timeout alone
(`seen`, `verdict`); interrupts have no part in it.  A wait comes to just that as long as the signals
that hand interrupts on fail harmlessly, and where one fails otherwise its failure is what the wait is
abandoned with (`ensures_waitpid`).

Either way a signal was sent for each interrupt that was dealt with (`Forwarded`), and the handler from
before is given back.
-/

namespace LineShell

open Program OsCall

namespace OsWorld

/-- The statuses to come, each with its process. -/
def statuses (w : OsWorld) : List (Int × Int) :=
  w.waits.filterMap fun
    | .status process status => some (process, status)
    | .interrupt => none

/-- What a wait fails with where there is no child. -/
def childless : Failure := .os (some Failure.noChild) "No child processes"

variable {w v : OsWorld}

theorem statuses_of_calm (h : v.calmWaits = w.calmWaits) : v.statuses = w.statuses := by
  have hfilter : ∀ u : OsWorld, u.statuses = u.calmWaits.filterMap fun
      | .status process status => some (process, status)
      | .interrupt => none := by
    intro u
    rw [calmWaits, List.filterMap_filter, statuses]
    congr 1
    funext event
    cases event <;> rfl
  rw [hfilter, hfilter, h]

/-- Behind the interrupts the next status is taken, if there is one. -/
theorem takeStatus_cases (hhead : w.waits.head? ≠ some .interrupt) :
    (w.statuses = [] ∧ w.takeStatus = (.error childless, w)) ∨
      ∃ found waits, w.takeStatus = (.ok found, { w with waits := waits }) ∧
        w.statuses = found :: ({ w with waits := waits } : OsWorld).statuses ∧
        ∃ process status, w.waits = .status process status :: waits := by
  cases hfirst : w.waits with
  | nil =>
      left
      rw [takeStatus_of_nil hfirst, statuses, hfirst]
      exact ⟨rfl, rfl⟩
  | cons first rest =>
      cases first with
      | interrupt => exact absurd (by rw [hfirst]; rfl) hhead
      | status process status =>
          right
          refine ⟨(process, status), rest, takeStatus_of_cons hfirst, ?_, process, status, rfl⟩
          rw [statuses, hfirst]
          rfl

end OsWorld

namespace Host

open OsWorld (answer KillsFail)

/-! ## What there is to see -/

/-- What looking at a child from time to time comes to: its status, or none once the clock has reached
the deadline. -/
def seenBy (deadline : Double) : (time : Nat) → List (Int × Int) → Except Failure (Option Int)
  | _, [] => .error OsWorld.childless
  | time, (process, status) :: later =>
    if process ≠ 0 then .ok (some status)
    else if deadline.le (Double.ofMilliseconds time) then .ok none
    else seenBy deadline (time + pollInterval) later

/-- What there is to see of a child: the next status, where there is no timeout. -/
def seen (timeout : Value) (w : OsWorld) : Except Failure (Option Int) :=
  match timeout.leInt? 0 with
  | none => .error .wrongKind
  | some true =>
    match w.statuses with
    | [] => .error OsWorld.childless
    | (_, status) :: _ => .ok (some status)
  | some false => (seconds timeout).bind fun timeout =>
    seenBy ((Double.ofMilliseconds w.clock).add timeout) w.clock w.statuses

/-- What the status of a child calls for. -/
def meaning (status : Int) : Except Failure WaitOutcome :=
  (checkStatus status).bind fun _ =>
    match signalOf? status with
    | some _ => .ok .killed
    | none => (exitCode status).map fun _ => .success

/-- What a wait comes to that was abandoned with a failure. -/
def abandoned (e : Failure) : Except Failure WaitOutcome :=
  match e with
  | .interrupt => .ok .interrupted
  | e => if e.hasErrno Failure.noChild then .ok .noSuchProcess else .error e

/-- What a wait comes to by what there was to see. -/
def verdict : Except Failure (Option Int) → Except Failure WaitOutcome
  | .ok (some status) => meaning status
  | .ok none => .ok .timeout
  | .error e => abandoned e

/-! ## While a child is looked at -/

variable {σ : Type} {H : Failure → Prop} {pid child : Int} {waits : List WaitEvent}
  {past : List (Event OsCall.Reply)} {w : OsWorld} {c : OsCall}

/-- Each interrupt that was dealt with so far was handed on to a child. -/
structure Forwarded (pid : Int) (H : Failure → Prop) (waits : List WaitEvent)
    (past : List (Event OsCall.Reply)) (w : OsWorld) : Prop where
  main : w.mainThread = true
  faults : w.KillsFail H
  sent : OsWorld.SignalForEach pid waits w.waits past
  failures : ∀ e ∈ signalFailures past, H e

/-- Interrupts are handed on to a child, and so far no signal failed that it needed. -/
structure Going (pid : Int) (H : Failure → Prop) (waits : List WaitEvent)
    (past : List (Event OsCall.Reply)) (w : OsWorld) : Prop where
  handler : w.handler = .forward pid
  forwarded : Forwarded pid H waits past w
  unhindered : Unhindered past

/-- Interrupts are handed on to a child, but a signal failed that it needed. -/
structure Stopped (pid : Int) (H : Failure → Prop) (waits : List WaitEvent) (e : Failure)
    (past : List (Event OsCall.Reply)) (w : OsWorld) : Prop where
  handler : w.handler = .forward pid
  forwarded : Forwarded pid H waits past w
  struck : StruckBy e past

theorem signalsSent_called (hc : c.name ≠ .kill) (outcome : Except Failure c.Reply) :
    signalsSent [.called c outcome] = [] ∧ signalFailures [.called c outcome] = [] := by
  cases c with
  | kill => exact absurd rfl hc
  | _ => exact ⟨rfl, rfl⟩

/-- Any other call sends no signal. -/
theorem Forwarded.called (h : Forwarded pid H waits past w) (hkill : c.name ≠ .kill)
    (hwait : c.name ≠ .waitpid) (outcome : Except Failure c.Reply) :
    Forwarded pid H waits (past ++ [.called c outcome]) (w.serve c).2 := by
  obtain ⟨hwaits, hfaults, hmain⟩ := OsWorld.serve_kept hwait w
  obtain ⟨hsent, hfailures⟩ := signalsSent_called hkill outcome
  refine ⟨hmain.trans h.main, ?_, ?_, ?_⟩
  · rw [KillsFail, hfaults]
    exact h.faults
  · rw [hwaits]
    exact h.sent.trans ⟨[], rfl, hsent⟩
  · rw [signalFailures_append, hfailures, List.append_nil]
    exact h.failures

/-- Installing a handler does not either. -/
theorem Forwarded.installed (h : Forwarded pid H waits past w) (handler : Handler)
    (outcome : Except Failure Handler) :
    Forwarded pid H waits (past ++ [.called (.signal handler) outcome])
      { w with handler := handler } := by
  have hcalled := h.called (c := .signal handler) nofun nofun outcome
  rwa [OsWorld.serve, if_pos h.main] at hcalled

theorem Going.called (h : Going pid H waits past w) (hkill : c.name ≠ .kill) (hwait : c.name ≠ .waitpid)
    (hsignal : c.name ≠ .signal) (outcome : Except Failure c.Reply) :
    Going pid H waits (past ++ [.called c outcome]) (w.serve c).2 where
  handler := (OsWorld.serve_handler hsignal w).trans h.handler
  forwarded := h.forwarded.called hkill hwait outcome
  unhindered := by
    rw [unhindered_append]
    exact ⟨h.unhindered, unhindered_of_nil (signalsSent_called hkill outcome).2⟩

/-- A wait sends the signals for the interrupts that it deals with. -/
theorem Forwarded.handed (h : Forwarded pid H waits past w) {v : OsWorld}
    {events : List (Event OsCall.Reply)} (hhanded : OsWorld.Handed pid H w v events) (now : Bool)
    (outcome : Except Failure (OsCall.waitpid child now).Reply) :
    Forwarded pid H waits (past ++ .called (.waitpid child now) outcome :: events) v := by
  have hkill : (OsCall.waitpid child now).name ≠ .kill := nofun
  obtain ⟨hsent, hfailures⟩ := signalsSent_called hkill outcome
  refine ⟨?_, hhanded.faults, ?_, fun e he => ?_⟩
  · rw [hhanded.rest]
    exact h.main
  · have hcalled : OsWorld.SignalForEach pid w.waits w.waits [.called (.waitpid child now) outcome] :=
      ⟨[], rfl, hsent⟩
    rw [List.append_cons]
    exact (h.sent.trans hcalled).trans hhanded.sent
  · rw [List.append_cons, signalFailures_append, signalFailures_append, hfailures, List.append_nil,
      List.mem_append] at he
    exact he.elim (h.failures e) (hhanded.failures e)

/-- Taking a status sends none. -/
theorem Forwarded.taken (h : Forwarded pid H waits past w) {process status : Int}
    {left : List WaitEvent} (hleft : w.waits = .status process status :: left) :
    Forwarded pid H waits past { w with waits := left } := by
  refine ⟨h.main, h.faults, ?_, h.failures⟩
  have htaken : OsWorld.SignalForEach pid w.waits left [] := by
    rw [hleft]
    exact ⟨[.status process status], rfl, rfl⟩
  rw [← List.append_nil past]
  exact h.sent.trans htaken

/-- Before a look at a child: the statuses that there are to see from now on, the time, and a number of
looks that is enough. -/
structure Ahead (pid : Int) (H : Failure → Prop) (waits : List WaitEvent)
    (statuses : List (Int × Int)) (time rounds : Nat) (past : List (Event OsCall.Reply))
    (w : OsWorld) : Prop where
  going : Going pid H waits past w
  statuses : w.statuses = statuses
  clock : w.clock = time
  enough : w.waits.length < rounds

/-- A look has failed as it was to, or else with the failure of a signal. -/
def LookFailed {α : Type} (pid : Int) (H : Failure → Prop) (waits : List WaitEvent)
    (expected : Except Failure α) (e : Failure) : Assertion σ OsWorld OsCall.Reply := fun past _ w =>
  (Going pid H waits past w ∧ expected = .error e) ∨ Stopped pid H waits e past w

/-- Any other call leaves ahead what is ahead, whatever it does to the clock. -/
theorem Ahead.called {statuses : List (Int × Int)} {time rounds : Nat}
    (h : Ahead pid H waits statuses time rounds past w) (hkill : c.name ≠ .kill)
    (hwait : c.name ≠ .waitpid) (hsignal : c.name ≠ .signal) (outcome : Except Failure c.Reply) :
    Ahead pid H waits statuses (w.serve c).2.clock rounds (past ++ [.called c outcome])
      (w.serve c).2 := by
  obtain ⟨hwaits, -, -⟩ := OsWorld.serve_kept hwait w
  refine ⟨h.going.called hkill hwait hsignal outcome, ?_, rfl, ?_⟩
  · rw [OsWorld.statuses, hwaits]
    exact h.statuses
  · rw [hwaits]
    exact h.enough

/-- A look at a child takes its next status, if there is one, unless a signal ends it. -/
theorem ensures_look (child : Int) (now : Bool) (statuses : List (Int × Int)) (time rounds : Nat) :
    Ensures (σ := σ) answer
      (fun past _ w => Ahead pid H waits statuses time (rounds + 1) past w)
      (ask (.waitpid child now))
      (fun found past _ w => ∃ later, statuses = found :: later ∧
        Ahead pid H waits later time rounds past w)
      (fun e past _ w => (Going pid H waits past w ∧ statuses = [] ∧ e = OsWorld.childless) ∨
        Stopped pid H waits e past w)
      Never := by
  intro past s w ⟨h, hstatuses, htime, henough⟩
  obtain ⟨v, events, hhanded, hended⟩ :=
    OsWorld.answer_waitpid_forward h.handler h.forwarded.faults child now
  have hhandler : v.handler = .forward pid := by
    rw [hhanded.rest]
    exact h.handler
  have htime' : v.clock = time := by
    rw [hhanded.rest]
    exact htime
  have hforwarded : ∀ outcome,
      Forwarded pid H waits (past ++ .called (.waitpid child now) outcome :: events) v :=
    fun outcome => h.forwarded.handed hhanded now outcome
  rw [ask, run_request]
  rcases hended with ⟨hanswer, hunhindered, hhead⟩ | ⟨e, hanswer, hstruck⟩
  · have hafter : ∀ outcome, Unhindered (past ++ .called (.waitpid child now) outcome :: events) := by
      intro outcome
      rw [List.append_cons, unhindered_append, unhindered_append]
      exact ⟨⟨h.unhindered, unhindered_of_nil rfl⟩, hunhindered⟩
    -- every interrupt was handed on, so the look finds the first status there is
    rw [OsWorld.statuses_of_calm hhanded.calm.symm] at hstatuses
    rw [hanswer]
    rcases OsWorld.takeStatus_cases hhead with ⟨hnone, htaken⟩ |
      ⟨found, left, htaken, hfound, process, status, hleft⟩
    · rw [htaken]
      exact .inl ⟨⟨hhandler, hforwarded _, hafter _⟩, hstatuses.symm.trans hnone, rfl⟩
    -- a status was taken, so there is one event less to wait for
    · have hfewer : left.length < rounds := by
        have hall := hhanded.sent.length_le
        rw [hleft, List.length_cons] at hall
        omega
      rw [htaken]
      exact ⟨_, hstatuses.symm.trans hfound, ⟨hhandler, (hforwarded _).taken hleft, hafter _⟩, rfl, htime',
        hfewer⟩
  · rw [hanswer]
    right
    refine ⟨hhandler, hforwarded _, ?_⟩
    rw [List.append_cons]
    refine hstruck.behind ?_
    rw [unhindered_append]
    exact ⟨h.unhindered, unhindered_of_nil rfl⟩

section Clock

variable {fails : Failure → Assertion σ OsWorld OsCall.Reply} (statuses : List (Int × Int))
  (time rounds : Nat)

/-- The clock tells the time. -/
theorem ensures_clock :
    Ensures answer (fun past _ w => Ahead pid H waits statuses time rounds past w) (ask .clock)
      (fun now past _ w => now = Double.ofMilliseconds time ∧
        Ahead pid H waits statuses time rounds past w) fails Never := by
  intro past s w h
  have hafter := h.called (c := .clock) nofun nofun nofun (.ok (Double.ofMilliseconds w.clock))
  rw [ask, run_request, OsWorld.answer_of_killsFail (c := .clock) h.going.forwarded.faults nofun nofun,
    ← h.clock]
  exact ⟨rfl, hafter⟩

/-- Sleeping takes its time. -/
theorem ensures_sleep (duration : Nat) :
    Ensures answer (fun past _ w => Ahead pid H waits statuses time rounds past w) (ask (.sleep duration))
      (fun _ past _ w => Ahead pid H waits statuses (time + duration) rounds past w) fails Never := by
  intro past s w h
  have hafter := h.called (c := .sleep duration) nofun nofun nofun (.ok ())
  rw [ask, run_request,
    OsWorld.answer_of_killsFail (c := .sleep duration) h.going.forwarded.faults nofun nofun, ← h.clock]
  exact hafter

end Clock

/-- Looking from time to time comes to what there is to see by the deadline.  Each look takes a status,
so there are rounds enough. -/
theorem ensures_poll (child : Int) (deadline : Double) (rounds : Nat) (statuses : List (Int × Int))
    (time : Nat) :
    Ensures (σ := σ) answer
      (fun past _ w => Ahead pid H waits statuses time rounds past w)
      (poll child deadline rounds)
      (fun found past _ w => Going pid H waits past w ∧ seenBy deadline time statuses = .ok found)
      (LookFailed pid H waits (seenBy deadline time statuses))
      Never := by
  induction rounds generalizing statuses time with
  | zero => exact Ensures.outOfRounds fun _ _ _ h => Nat.not_lt_zero _ h.enough
  | succ rounds ih =>
      unfold poll
      refine Ensures.bind ((ensures_look child true statuses time rounds).mono_fails ?_) ?_
      · rintro e past s w (⟨hgoing, rfl, rfl⟩ | hstopped)
        · exact .inl ⟨hgoing, rfl⟩
        · exact .inr hstopped
      rintro ⟨process, status⟩
      refine Ensures.exists_pre fun later => Ensures.and_pre ?_
      rintro rfl
      by_cases hprocess : process ≠ 0
      · simp only [seenBy, if_pos hprocess]
        exact Ensures.done fun _ _ _ h => ⟨h.going, rfl⟩
      · -- the child still runs, and the clock decides whether there is another look
        simp only [seenBy, if_neg hprocess]
        refine (ensures_clock later time rounds).bind fun now => Ensures.and_pre ?_
        rintro rfl
        by_cases hdeadline : deadline.le (Double.ofMilliseconds time) = true
        · simp only [if_pos hdeadline]
          exact Ensures.done fun _ _ _ h => ⟨h.going, rfl⟩
        · simp only [if_neg hdeadline]
          exact (ensures_sleep later time rounds pollInterval).bind fun _ =>
            ih later (time + pollInterval)

/-- A look at a child comes to what there is to see of it, unless a signal ends it. -/
theorem ensures_awaitStatus (rounds : Nat) (child : Int) (timeout : Value)
    (expected : Except Failure (Option Int)) :
    Ensures (σ := σ) answer
      (fun past _ w => Going pid H waits past w ∧ seen timeout w = expected ∧ w.waits.length < rounds)
      (awaitStatus rounds child timeout)
      (fun found past _ w => Going pid H waits past w ∧ expected = .ok found)
      (LookFailed pid H waits expected)
      Never := by
  intro past s w ⟨hgoing, hexpected, henough⟩
  have hahead : Ahead pid H waits w.statuses w.clock rounds past w := ⟨hgoing, rfl, rfl, henough⟩
  subst hexpected
  refine (?_ : Ensures answer
    (fun past _ v => Ahead pid H waits w.statuses w.clock rounds past v) _ _ _ _) past s w hahead
  unfold awaitStatus seen
  rcases timeout.leInt? 0 with _ | _ | _
  · exact Ensures.fail fun _ _ _ h => .inl ⟨h.going, rfl⟩
  · -- there is a timeout, so the clock tells the deadline
    refine (ensures_clock w.statuses w.clock rounds).bind fun now => Ensures.and_pre ?_
    rintro rfl
    cases seconds timeout with
    | error e => exact Ensures.fail fun _ _ _ h => .inl ⟨h.going, rfl⟩
    | ok timeout => exact ensures_poll child _ rounds w.statuses w.clock
  · have hlook := @ensures_look σ H pid waits child false w.statuses w.clock rounds
    refine Ensures.bind (hlook.mono ?_ (fun _ _ _ _ h => h) ?_ fun _ _ _ h => h) fun found => ?_
    · exact fun _ _ _ h => ⟨h.going, h.statuses, h.clock, Nat.lt_succ_of_lt h.enough⟩
    · rintro e past s v (⟨hgoing, hnone, rfl⟩ | hstopped)
      · rw [hnone]
        exact .inl ⟨hgoing, rfl⟩
      · exact .inr hstopped
    · refine Ensures.exists_pre fun later => Ensures.and_pre fun hfound => ?_
      rw [hfound]
      exact Ensures.done fun _ _ _ h => ⟨h.going, rfl⟩

/-! ## Around it -/

/-- What a whole wait has come to: an expected result, or else the failure of a signal.  The handler
from before is back. -/
structure Waited {α : Type} (pid : Int) (H : Failure → Prop) (waits : List WaitEvent)
    (previous : Handler) (expected : Except Failure α) (stopped : Failure → Except Failure α)
    (result : Except Failure α) (past : List (Event OsCall.Reply)) (w : OsWorld) : Prop where
  handler : w.handler = givenBack previous
  forwarded : Forwarded pid H waits past w
  came : (Unhindered past ∧ result = expected) ∨ ∃ e, StruckBy e past ∧ result = stopped e

/-- While a child is waited for interrupts are handed on to it. -/
theorem ensures_forwarding (rounds : Nat) (timeout : Value) (previous : Handler)
    (expected : Except Failure (Option Int)) :
    Ensures (σ := σ) answer
      (fun past _ w => Forwarded pid H waits past w ∧ Unhindered past ∧ w.handler = previous ∧
        seen timeout w = expected ∧ w.waits.length < rounds)
      (forwarding pid (awaitStatus rounds pid timeout))
      (fun found past _ w => Waited pid H waits previous expected .error (.ok found) past w)
      (fun e past _ w => Waited pid H waits previous expected .error (.error e) past w)
      Never := by
  have hinstall : Ensures (σ := σ) answer
      (fun past _ w => Forwarded pid H waits past w ∧ Unhindered past ∧ w.handler = previous ∧
        seen timeout w = expected ∧ w.waits.length < rounds)
      (install (.forward pid))
      (fun found past _ w => found = some previous ∧ Going pid H waits past w ∧
        seen timeout w = expected ∧ w.waits.length < rounds)
      (fun e past _ w => Waited pid H waits previous expected .error (.error e) past w) Never := by
    intro past s w ⟨hforwarded, hunhindered, hhandler, hseen⟩
    rw [run_install _ _ hforwarded.main hforwarded.faults, hhandler]
    refine ⟨rfl, ⟨rfl, hforwarded.installed _ _, ?_⟩, hseen⟩
    exact unhindered_append.mpr ⟨hunhindered, unhindered_of_nil rfl⟩
  -- whatever the look comes to, the handler is given back behind it
  have hback : ∀ result : Except Failure (Option Int), Ensures (σ := σ) answer
      (fun past _ w => w.handler = .forward pid ∧ Forwarded pid H waits past w ∧
        ((Unhindered past ∧ result = expected) ∨ ∃ e, StruckBy e past ∧ result = .error e))
      (giveBack (some previous))
      (fun _ past _ w => Waited pid H waits previous expected .error result past w)
      (fun e past _ w => Waited pid H waits previous expected .error (.error e) past w) Never := by
    intro result past s w ⟨hhandler, hforwarded, hcame⟩
    rw [run_giveBack _ _ hforwarded.main hforwarded.faults]
    refine ⟨rfl, hforwarded.installed _ _, ?_⟩
    rcases hcame with ⟨hunhindered, hresult⟩ | ⟨e, hstruck, hresult⟩
    · exact .inl ⟨unhindered_append.mpr ⟨hunhindered, unhindered_of_nil rfl⟩, hresult⟩
    · exact .inr ⟨e, hstruck.append rfl, hresult⟩
  refine hinstall.bind fun found => Ensures.and_pre fun hfound => ?_
  subst hfound
  refine Ensures.andFinally (ensures_awaitStatus rounds pid timeout expected) (fun found => ?_) fun e => ?_
  · exact (hback (.ok found)).weaken fun past s w ⟨h, hexpected⟩ =>
      ⟨h.handler, h.forwarded, .inl ⟨h.unhindered, hexpected.symm⟩⟩
  · refine (hback (.error e)).weaken ?_
    rintro past s w (⟨h, hexpected⟩ | h)
    · exact ⟨h.handler, h.forwarded, .inl ⟨h.unhindered, hexpected.symm⟩⟩
    · exact ⟨h.handler, h.forwarded, .inr ⟨e, h.struck, rfl⟩⟩

/-- What a status calls for is all that it comes to, and no signal is sent. -/
theorem run_classify_meaning (pid status : Int) (s : σ) (w : OsWorld) :
    ∃ events, (classify pid status).run answer s w = ⟨endingOf (meaning status), s, w, events⟩ ∧
      signalsSent events = [] ∧ signalFailures events = [] := by
  unfold classify meaning
  cases checkStatus status with
  | error e => exact ⟨[], rfl, rfl, rfl⟩
  | ok nothing =>
      cases signalOf? status with
      | some number => exact ⟨_, rfl, rfl, rfl⟩
      | none =>
          cases exitCode status with
          | error e => exact ⟨[], rfl, rfl, rfl⟩
          | ok code => exact ⟨_, rfl, rfl, rfl⟩

/-- Behind the look a status is classified, and a failure abandons the wait. -/
theorem waitpid_eq (rounds : Nat) (pid : Int) (timeout : Value) :
    (waitpid rounds pid timeout : Program σ OsCall.Reply WaitOutcome) =
      (forwarding pid (awaitStatus rounds pid timeout)).attempt.bind fun
        | .ok (some status) => classify pid status
        | .ok none => done .timeout
        | .error e => ofExcept (abandoned e) := by
  unfold waitpid
  rw [bind_eq_bind]
  congr 1
  funext result
  rcases result with e | _ | status
  · unfold abandoned
    cases e with
    | interrupt => rfl
    | _ => dsimp only; split <;> rfl
  · rfl
  · rfl

/-- A wait comes to what the statuses of the child call for as long as signals fail harmlessly, and
otherwise it is abandoned with the failure of a signal. -/
theorem ensures_waitpid (rounds : Nat) (timeout : Value) (previous : Handler)
    (expected : Except Failure (Option Int)) :
    Ensures (σ := σ) answer
      (fun past _ w => Forwarded pid H waits past w ∧ Unhindered past ∧ w.handler = previous ∧
        seen timeout w = expected ∧ w.waits.length < rounds)
      (waitpid rounds pid timeout)
      (fun found past _ w =>
        Waited pid H waits previous (verdict expected) abandoned (.ok found) past w)
      (fun e past _ w => Waited pid H waits previous (verdict expected) abandoned (.error e) past w)
      Never := by
  rw [waitpid_eq]
  refine Ensures.bind (Ensures.attempt (ensures_forwarding rounds timeout previous expected))
    fun result => ?_
  rcases result with e | _ | status
  · -- the failure decides what the wait comes to, wherever it is from
    have hwaited : ∀ past w, Waited pid H waits previous expected .error (.error e) past w →
        Waited pid H waits previous (verdict expected) abandoned (abandoned e) past w := by
      rintro past w ⟨hhandler, hforwarded, ⟨hunhindered, rfl⟩ | ⟨e', hstruck, he⟩⟩
      · exact ⟨hhandler, hforwarded, .inl ⟨hunhindered, rfl⟩⟩
      · obtain rfl : e = e' := Except.error.inj he
        exact ⟨hhandler, hforwarded, .inr ⟨e, hstruck, rfl⟩⟩
    refine Ensures.ofExcept (fun a ha past s w h => ?_) fun x hx past s w h => ?_
    · rw [← ha]
      exact hwaited past w h
    · rw [← hx]
      exact hwaited past w h
  · refine Ensures.done ?_
    rintro past s w ⟨hhandler, hforwarded, ⟨hunhindered, rfl⟩ | ⟨e, -, he⟩⟩
    · exact ⟨hhandler, hforwarded, .inl ⟨hunhindered, rfl⟩⟩
    · cases he
  · rintro past s w ⟨hhandler, hforwarded, ⟨hunhindered, rfl⟩ | ⟨e, -, he⟩⟩
    -- making sense of a status sends nothing
    · obtain ⟨events, hrun, hsent, hfailures⟩ := run_classify_meaning pid status s w
      have hafter : Waited pid H waits previous (verdict (.ok (some status))) abandoned (meaning status)
          (past ++ events) w := by
        refine ⟨hhandler, ⟨hforwarded.main, hforwarded.faults, ?_, ?_⟩, .inl ⟨?_, rfl⟩⟩
        · exact hforwarded.sent.trans ⟨[], rfl, hsent⟩
        · rw [signalFailures_append, hfailures, List.append_nil]
          exact hforwarded.failures
        · exact unhindered_append.mpr ⟨hunhindered, unhindered_of_nil hfailures⟩
      dsimp only
      rw [hrun]
      cases hmeaning : meaning status with
      | ok found =>
          rw [hmeaning] at hafter
          exact hafter
      | error e =>
          rw [hmeaning] at hafter
          exact hafter
    · cases he

/-! ## From the start -/

/-- What is known of a wait in the main thread where nothing fails but the sending of signals. -/
theorem waited_of_run (rounds : Nat) (pid : Int) (timeout : Value) (s : σ) (w : OsWorld)
    (hmain : w.mainThread = true) (hfaults : w.KillsFail H) (hrounds : w.waits.length < rounds) :
    ∃ result, ((waitpid rounds pid timeout).run answer s w).ending = endingOf result ∧
      Waited pid H w.waits w.handler (verdict (seen timeout w)) abandoned result
        ((waitpid rounds pid timeout).run answer s w).events
        ((waitpid rounds pid timeout).run answer s w).world := by
  have hstart : Forwarded pid H w.waits [] w := ⟨hmain, hfaults, ⟨[], rfl, rfl⟩, fun _ he => nomatch he⟩
  have hrun := ensures_waitpid rounds timeout w.handler (seen timeout w) [] s w
    ⟨hstart, unhindered_of_nil rfl, rfl, rfl, hrounds⟩
  generalize (waitpid rounds pid timeout).run answer s w = o at hrun ⊢
  cases hend : o.ending with
  | returned found =>
      rw [hend] at hrun
      exact ⟨.ok found, rfl, hrun⟩
  | failed e =>
      rw [hend] at hrun
      exact ⟨.error e, rfl, hrun⟩
  | outOfRounds =>
      rw [hend] at hrun
      exact hrun.elim

/-- Interrupts during a wait change nothing but the signals that are sent: one to the child for each
interrupt that is dealt with, and none without interrupts.  The wait comes to the same, by the same
calls, and gives the same handler back. -/
theorem waitpid_undisturbed (rounds : Nat) (pid : Int) (timeout : Value) (s : σ) (w : OsWorld)
    (hmain : w.mainThread = true) (hfaults : w.KillsFail Harmless) (hrounds : w.waits.length < rounds) :
    let o := (waitpid rounds pid timeout).run answer s w
    let calm := (waitpid rounds pid timeout).run answer s w.undisturbed
    SameButInterrupts o calm ∧ o.ending ≠ .outOfRounds ∧
      OsWorld.SignalForEach pid w.waits o.world.waits o.events ∧
      o.world.handler = givenBack w.handler ∧ calm.world.handler = givenBack w.handler := by
  dsimp only
  obtain ⟨result, hending, hwaited⟩ := waited_of_run rounds pid timeout s w hmain hfaults hrounds
  have hsame := Agrees.sameButInterrupts (agrees_waitpid rounds pid timeout) s hmain hfaults
    hwaited.forwarded.failures
  refine ⟨hsame, ?_, hwaited.forwarded.sent, hwaited.handler, ?_⟩
  · rw [hending]
    cases result <;> nofun
  · rw [hsame.world]
    exact hwaited.handler

/-- A world with three interrupts to come while a child runs, of which the second finds it gone. -/
def interrupted : OsWorld where
  files := []
  dirs := []
  denied := []
  environment := []
  cwd := "/"
  cwdGone := false
  sources := []
  stdinPipe := false
  writeMax := none
  nextFd := 3
  forks := []
  waits := [.interrupt, .status 0 0, .interrupt, .interrupt, .status 101 2]
  execError := OsWorld.noSuchFile
  handler := .unset
  mainThread := true
  clock := 0
  faults := [⟨.kill, 2, .os (some Failure.noSuchProcess) "No such process"⟩]

/-- Looked at twice, the child is killed by the interrupt, of which all three were handed on. -/
theorem waitpid_undisturbed_of_threeInterrupts :
    let o := (waitpid 6 101 (.int 1)).run answer () interrupted
    let calm := (waitpid 6 101 (.int 1)).run answer () interrupted.undisturbed
    (SameButInterrupts o calm ∧ o.ending ≠ .outOfRounds ∧
      OsWorld.SignalForEach 101 interrupted.waits o.world.waits o.events ∧
      o.world.handler = givenBack interrupted.handler ∧
      calm.world.handler = givenBack interrupted.handler) ∧
    signalsSent o.events = List.replicate 3 (101, 2) ∧ o.world.waits = [] ∧
      o.world.handler = .default := by
  have hfaults : interrupted.KillsFail Harmless := by
    intro f hf
    obtain rfl := List.mem_singleton.mp hf
    exact ⟨rfl, rfl⟩
  refine ⟨waitpid_undisturbed 6 101 (.int 1) () interrupted rfl hfaults (by decide), ?_, ?_, ?_⟩
  · decide +kernel
  · decide +kernel
  · decide +kernel

end Host

end LineShell
