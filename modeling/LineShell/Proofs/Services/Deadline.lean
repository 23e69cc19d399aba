import LineShell.Proofs.Double.Clock
import LineShell.Proofs.Services.HostRun
import LineShell.Proofs.Services.Waiting

/-!
# Waiting up to a deadline

With a timeout a child is looked at every `pollInterval` milliseconds.  A look that finds it running is
followed by a glance at the clock, so the look at which the deadline is reached counts, and it is the
last one (`Due`).  Each look takes one of the statuses to come; by induction on these the looks go on
up to the first that does not find the child running or to the last one (`looked_poll`), and the wait
comes to what they found (`answered_waitpid`).

Which look is the last one is up to a rounded clock.  Up to `2 ^ 49` seconds it is the one at which the
seconds have passed, and with more of them none behind that (`waitpid_deadline`).
-/

namespace LineShell.Host

open Program OsCall
open OsWorld (answer run_ask)

variable {σ : Type} {s : σ} {w : OsWorld} {pid : Int} {deadline : Double} {rounds last : Nat}
  {rest waits : List WaitEvent} {process status : Int}

/-! ## What is seen of the looks -/

/-- The waits among some events, each with the milliseconds that were slept before it. -/
def looks : (slept : Nat) → List (Event OsCall.Reply) → List (Nat × OsCall)
  | _, [] => []
  | slept, .called (.waitpid child now) _ :: later => (slept, .waitpid child now) :: looks slept later
  | slept, .called (.sleep duration) _ :: later => looks (slept + duration) later
  | slept, _ :: later => looks slept later

/-- How long the process slept, each time it did. -/
def naps (events : List (Event OsCall.Reply)) : List Nat :=
  events.filterMap fun
    | .called (.sleep duration) _ => some duration
    | _ => none

/-! ## The looks that there will be -/

/-- A status that says that the child still runs. -/
def isRunning : WaitEvent → Bool
  | .status process _ => process == 0
  | .interrupt => false

/-- How many looks find the child still running. -/
def idleLooks (waits : List WaitEvent) : Nat := (waits.takeWhile isRunning).length

/-- What the looks up to the last one find: the status behind those that find the child still
running, if they are not all of that kind. -/
def foundBy (last : Nat) (waits : List WaitEvent) : Except Failure (Option Int) :=
  if last < idleLooks waits then .ok none
  else match waits.find? fun event => !isRunning event with
    | some (.status _ status) => .ok (some status)
    | _ => .error OsWorld.childless

/-- What the wait comes to by that. -/
def outcomeBy (last : Nat) (waits : List WaitEvent) : WaitOutcome :=
  match foundBy last waits with
  | .ok (some status) => outcomeOf status
  | .ok none => .timeout
  | .error _ => .noSuchProcess

@[simp] theorem idleLooks_nil : idleLooks [] = 0 := rfl

@[simp] theorem idleLooks_cons_zero : idleLooks (.status 0 status :: rest) = idleLooks rest + 1 := rfl

theorem idleLooks_cons_of_ne (h : process ≠ 0) : idleLooks (.status process status :: rest) = 0 := by
  simp [idleLooks, isRunning, h]

theorem foundBy_nil : foundBy last [] = .error OsWorld.childless := by
  simp [foundBy]

theorem foundBy_cons_of_ne (h : process ≠ 0) :
    foundBy last (.status process status :: rest) = .ok (some status) := by
  simp [foundBy, idleLooks_cons_of_ne h, isRunning, h]

theorem foundBy_zero_cons_zero : foundBy 0 (.status 0 status :: rest) = .ok none := by
  simp [foundBy]

theorem foundBy_succ_cons_zero : foundBy (last + 1) (.status 0 status :: rest) = foundBy last rest := by
  simp [foundBy, isRunning]

/-! ## One look after the other -/

/-- A world in which nothing fails and no interrupt arrives. -/
structure Quiet (w : OsWorld) : Prop where
  faults : w.faults = []
  waits : .interrupt ∉ w.waits

theorem Quiet.later (h : Quiet w) (hwaits : w.waits = .status process status :: rest) (clock : Nat) :
    Quiet { w with waits := rest, clock := clock } := by
  refine ⟨h.faults, fun hmem => h.waits ?_⟩
  rw [hwaits]
  exact List.mem_cons_of_mem _ hmem

theorem run_look (s : σ) (h : Quiet w) (pid : Int) :
    (ask (.waitpid pid true)).run answer s w =
      ⟨endingOf w.takeStatus.1, s, w.takeStatus.2, [.called (.waitpid pid true) w.takeStatus.1]⟩ := by
  rw [ask, run_request, OsWorld.answer_waitpid h.faults h.waits]

theorem run_poll_of_nil (h : Quiet w) (hwaits : w.waits = []) :
    (poll pid deadline (rounds + 1)).run answer s w =
      ⟨.failed OsWorld.childless, s, w, [.called (.waitpid pid true) (.error OsWorld.childless)]⟩ := by
  rw [poll, bind_eq_bind, run_bind, run_look s h, OsWorld.takeStatus_of_nil hwaits]
  rfl

theorem run_poll_of_ended (h : Quiet w) (hwaits : w.waits = .status process status :: rest)
    (hended : process ≠ 0) :
    (poll pid deadline (rounds + 1)).run answer s w =
      ⟨.returned (some status), s, { w with waits := rest },
        [.called (.waitpid pid true) (.ok (process, status))]⟩ := by
  rw [poll, bind_eq_bind, run_bind, run_look s h, OsWorld.takeStatus_of_cons hwaits]
  simp [endingOf, Outcome.andThen, hended]

/-- Behind a look that finds the child running the clock decides. -/
theorem run_poll_of_running (h : Quiet w) (hwaits : w.waits = .status 0 status :: rest) :
    (poll pid deadline (rounds + 1)).run answer s w =
      if deadline.le (Double.ofMilliseconds w.clock) then
        ⟨.returned none, s, { w with waits := rest }, [.called (.waitpid pid true) (.ok (0, status)),
          .called .clock (.ok (Double.ofMilliseconds w.clock))]⟩
      else
        let o := (poll pid deadline rounds).run answer s
          { w with waits := rest, clock := w.clock + pollInterval }
        { o with events := .called (.waitpid pid true) (.ok (0, status)) ::
          .called .clock (.ok (Double.ofMilliseconds w.clock)) ::
          .called (.sleep pollInterval) (.ok ()) :: o.events } := by
  have hclock := run_ask (c := .clock) s (w := { w with waits := rest }) h.faults rfl
  have hsleep := run_ask (c := .sleep pollInterval) s (w := { w with waits := rest }) h.faults rfl
  rw [poll, bind_eq_bind, run_bind, run_look s h, OsWorld.takeStatus_of_cons hwaits]
  simp only [endingOf, Outcome.andThen, ne_eq, not_true_eq_false, if_false, bind_eq_bind, run_bind,
    hclock, OsWorld.serve]
  split
  · rfl
  · rw [run_bind, hsleep]
    rfl

theorem with_own {clock : Nat} (hwaits : w.waits = waits) (hclock : w.clock = clock) :
    { w with waits := waits, clock := clock } = w := by
  subst hwaits hclock
  rfl

/-- The looks from one on, of which a number are left behind it: each `pollInterval` milliseconds after
the one before, until the child has a status or none is left. -/
structure Looked (pid : Int) (waits : List WaitEvent) (first left : Nat) (s : σ) (w : OsWorld)
    (o : Outcome σ OsWorld OsCall.Reply (Option Int)) : Prop where
  ending : o.ending = endingOf (foundBy left waits)
  state : o.state = s
  world : o.world = { w with
    waits := waits.drop (min (idleLooks waits) left + 1)
    clock := (first + min (idleLooks waits) left) * pollInterval }
  looks : looks (first * pollInterval) o.events =
    (List.range' first (min (idleLooks waits) left + 1)).map fun k =>
      (k * pollInterval, .waitpid pid true)
  naps : naps o.events = List.replicate (min (idleLooks waits) left) pollInterval

theorem Looked.eq {first left : Nat} {o : Outcome σ OsWorld OsCall.Reply (Option Int)}
    (h : Looked pid waits first left s w o) :
    o = ⟨endingOf (foundBy left waits), s, { w with
      waits := waits.drop (min (idleLooks waits) left + 1)
      clock := (first + min (idleLooks waits) left) * pollInterval }, o.events⟩ := by
  rw [← h.ending, ← h.world]
  cases o
  cases h.state
  rfl

/-- The deadline is first reached at a look. -/
structure Due (deadline : Double) (last : Nat) : Prop where
  reached : deadline.le (Double.ofMilliseconds (last * pollInterval : Nat)) = true
  early : ∀ k < last, deadline.le (Double.ofMilliseconds (k * pollInterval : Nat)) = false

/-- The looks go on up to the one at which the deadline is reached.  Each takes a status, so there are
rounds enough. -/
theorem looked_poll (s : σ) (pid : Int) (hdue : Due deadline last) {waits : List WaitEvent} :
    ∀ {w : OsWorld} {rounds first left : Nat}, Quiet w → w.waits = waits → waits.length < rounds →
      w.clock = first * pollInterval → first + left = last →
      Looked pid waits first left s w ((poll pid deadline rounds).run answer s w) := by
  induction waits with
  | nil =>
      intro w rounds first left hquiet hwaits hrounds hclock hsum
      obtain ⟨more, rfl⟩ : ∃ more, rounds = more + 1 := ⟨rounds - 1, by omega⟩
      rw [run_poll_of_nil hquiet hwaits]
      constructor
      · rw [foundBy_nil]
        rfl
      · rfl
      · simp [with_own hwaits hclock]
      · simp [Host.looks]
      · simp [Host.naps]
  | cons event rest ih =>
      intro w rounds first left hquiet hwaits hrounds hclock hsum
      obtain ⟨more, rfl⟩ : ∃ more, rounds = more + 1 := ⟨rounds - 1, by omega⟩
      rw [List.length_cons] at hrounds
      cases event with
      | interrupt => exact absurd (hwaits ▸ List.mem_cons_self) hquiet.waits
      | status process status =>
          by_cases hended : process ≠ 0
          · -- the child has ended, and the looks end with this one
            rw [run_poll_of_ended hquiet hwaits hended]
            constructor
            · rw [foundBy_cons_of_ne hended]
              rfl
            · rfl
            · simp [idleLooks_cons_of_ne hended, ← hclock]
            · simp [Host.looks, idleLooks_cons_of_ne hended]
            · simp [Host.naps, idleLooks_cons_of_ne hended]
          · obtain rfl : process = 0 := not_not.mp hended
            rw [run_poll_of_running hquiet hwaits, hclock]
            cases left with
            | zero =>
                -- the deadline is reached at this look
                obtain rfl : first = last := hsum
                rw [if_pos hdue.reached]
                constructor
                · rw [foundBy_zero_cons_zero]
                  rfl
                · rfl
                · simp [← hclock]
                · simp [Host.looks]
                · simp [Host.naps]
            | succ left =>
                have hclock' : first * pollInterval + pollInterval = (first + 1) * pollInterval :=
                  (Nat.succ_mul first pollInterval).symm
                have hmin : min (idleLooks rest + 1) (left + 1) = min (idleLooks rest) left + 1 :=
                  Nat.succ_min_succ _ _
                let slept : OsWorld := { w with waits := rest, clock := (first + 1) * pollInterval }
                have hnext : Looked pid rest (first + 1) left s slept
                    ((poll pid deadline more).run answer s slept) :=
                  ih (hquiet.later hwaits _) rfl (by omega) rfl (by omega)
                rw [if_neg (by rw [hdue.early first (by omega)]; nofun), hclock']
                constructor
                · rw [foundBy_succ_cons_zero]
                  exact hnext.ending
                · exact hnext.state
                · rw [idleLooks_cons_zero, hmin, List.drop_succ_cons,
                    show first + (min (idleLooks rest) left + 1) =
                      first + 1 + min (idleLooks rest) left by omega]
                  exact hnext.world
                · rw [idleLooks_cons_zero, hmin, List.range'_succ, List.map_cons, ← hnext.looks]
                  exact congrArg (fun slept => (_ : Nat × OsCall) :: Host.looks slept _) hclock'
                · rw [idleLooks_cons_zero, hmin, List.replicate_succ, ← hnext.naps]
                  rfl

/-! ## The whole wait -/

theorem looks_append (slept : Nat) (before after : List (Event OsCall.Reply)) :
    looks slept (before ++ after) =
      looks slept before ++ looks (slept + (naps before).sum) after := by
  induction before generalizing slept with
  | nil => rfl
  | cons event before ih =>
      cases event with
      | logged entry => exact ih slept
      | called c outcome =>
          cases c with
          | sleep duration => simpa [looks, naps, Nat.add_assoc] using ih (slept + duration)
          | waitpid child now => exact congrArg ((slept, OsCall.waitpid child now) :: ·) (ih slept)
          | _ => exact ih slept

theorem naps_append (before after : List (Event OsCall.Reply)) :
    naps (before ++ after) = naps before ++ naps after :=
  List.filterMap_append

/-- Among the events there is no look and no nap. -/
structure Unseen (events : List (Event OsCall.Reply)) : Prop where
  looks (slept : Nat) : looks slept events = []
  naps : naps events = []

theorem Installing.unseen {events : List (Event OsCall.Reply)} (h : Installing events) :
    Unseen events := by
  rcases h with rfl | ⟨handler, outcome, rfl⟩ <;> exact ⟨fun _ => rfl, rfl⟩

theorem looks_framed {before events after later : List (Event OsCall.Reply)} (hbefore : Unseen before)
    (hafter : Unseen after) (hlater : Unseen later) (slept : Nat) :
    looks slept (before ++ (events ++ after) ++ later) = looks slept events := by
  simp [looks_append, hbefore.looks, hbefore.naps, hafter.looks, hlater.looks]

theorem naps_framed {before events after later : List (Event OsCall.Reply)} (hbefore : Unseen before)
    (hafter : Unseen after) (hlater : Unseen later) :
    naps (before ++ (events ++ after) ++ later) = naps events := by
  simp [naps_append, hbefore.naps, hafter.naps, hlater.naps]

theorem leInt?_zero_of_pos {t : Int} (ht : 1 ≤ t) : (Value.int t).leInt? 0 = some false := by
  simp [Value.leInt?]
  omega

theorem seconds_of_some {t : Int} {d : Double} (h : Double.ofInt? t = some d) :
    seconds (.int t) = .ok d := by
  rw [seconds, h]

/-- A timeout that there is gives the deadline, and the looks go on up to that. -/
theorem looked_awaitStatus (s : σ) (pid : Int) {t : Int} {d : Double} (ht : 1 ≤ t)
    (hd : Double.ofInt? t = some d) (hquiet : Quiet w) (hclock : w.clock = 0)
    (hdue : Due ((Double.ofMilliseconds 0).add d) last) (hrounds : w.waits.length < rounds) :
    Looked pid w.waits 0 last s w ((awaitStatus rounds pid (.int t)).run answer s w) := by
  have hpoll := looked_poll s pid hdue hquiet rfl hrounds (hclock.trans (Nat.zero_mul _).symm)
    (Nat.zero_add last)
  have hnow := run_ask (c := .clock) s hquiet.faults rfl
  have hrun : (awaitStatus rounds pid (.int t)).run answer s w =
      let o := (poll pid ((Double.ofMilliseconds 0).add d) rounds).run answer s w
      { o with events := .called .clock (.ok (Double.ofMilliseconds 0)) :: o.events } := by
    simp only [awaitStatus, leInt?_zero_of_pos ht, bind_eq_bind, run_bind, hnow, OsWorld.serve, hclock,
      endingOf, seconds_of_some hd, run_ofExcept_ok]
    rfl
  rw [hrun]
  exact ⟨hpoll.ending, hpoll.state, hpoll.world, hpoll.looks, hpoll.naps⟩

/-- A wait up to a last look: what it comes to, when it looks at the child, and how often it sleeps. -/
structure Answered (pid : Int) (last : Nat) (waits : List WaitEvent)
    (o : Outcome σ OsWorld OsCall.Reply WaitOutcome) : Prop where
  ending : o.ending = .returned (outcomeBy last waits)
  timeout : o.ending = .returned .timeout ↔ last < idleLooks waits
  looks : looks 0 o.events = (List.range (min (idleLooks waits) last + 1)).map fun k =>
    (k * pollInterval, .waitpid pid true)
  naps : naps o.events = List.replicate (min (idleLooks waits) last) pollInterval

/-- The statuses to come are those of a child that runs until it has ended. -/
def RunsThenEnds (waits : List WaitEvent) : Prop :=
  ∀ event ∈ waits, ∃ process status, event = .status process status ∧ (process = 0 ∨ Final status)

theorem RunsThenEnds.quiet (h : RunsThenEnds w.waits) (hfaults : w.faults = []) : Quiet w where
  faults := hfaults
  waits hmem := by
    obtain ⟨process, status, heq, -⟩ := h _ hmem
    cases heq

/-- The status that is found is that of a child that has ended. -/
theorem RunsThenEnds.final (h : RunsThenEnds waits) (hfound : foundBy last waits = .ok (some status)) :
    Final status := by
  unfold foundBy at hfound
  split at hfound
  · cases hfound
  · split at hfound
    · rename_i process found hfirst
      cases hfound
      obtain ⟨process', status', heq, hstatus⟩ := h _ (List.mem_of_find?_eq_some hfirst)
      cases heq
      refine hstatus.resolve_left fun hzero => ?_
      have hended := List.find?_some hfirst
      simp [isRunning, hzero] at hended
    · cases hfound

theorem foundBy_error {e : Failure} (h : foundBy last waits = .error e) : e = OsWorld.childless := by
  unfold foundBy at h
  split at h
  · cases h
  · split at h <;> cases h
    rfl

theorem outcomeBy_eq_timeout_iff : outcomeBy last waits = .timeout ↔ last < idleLooks waits := by
  unfold outcomeBy foundBy
  constructor
  · intro h
    by_contra hended
    rw [if_neg hended] at h
    split at h
    · rename_i status _
      unfold outcomeOf at h
      cases hsignal : signalOf? status <;> rw [hsignal] at h <;> cases h
    · rename_i hfound
      split at hfound <;> cases hfound
    · cases h
  · intro h
    rw [if_pos h]

/-- What is done around the looks is not seen among them. -/
theorem Looked.answered {o : Outcome σ OsWorld OsCall.Reply (Option Int)} {outcome : WaitOutcome}
    {before after later : List (Event OsCall.Reply)} {t : σ} {v : OsWorld}
    (h : Looked pid waits 0 last s w o) (houtcome : outcomeBy last waits = outcome)
    (hbefore : Unseen before) (hafter : Unseen after) (hlater : Unseen later) :
    Answered pid last waits
      (⟨.returned outcome, t, v, before ++ (o.events ++ after) ++ later⟩ :
        Outcome σ OsWorld OsCall.Reply WaitOutcome) where
  ending := by rw [houtcome]
  timeout := by rw [Ending.returned.injEq, ← houtcome, outcomeBy_eq_timeout_iff]
  looks := by
    rw [looks_framed hbefore hafter hlater, List.range_eq_range', ← h.looks, Nat.zero_mul]
  naps := (naps_framed hbefore hafter hlater).trans h.naps

/-- With a deadline that is first reached at a look, that look is the last one. -/
theorem answered_waitpid (s : σ) (pid : Int) {t : Int} {d : Double} (ht : 1 ≤ t)
    (hd : Double.ofInt? t = some d) (hfaults : w.faults = []) (hclock : w.clock = 0)
    (hwaits : RunsThenEnds w.waits) (hdue : Due ((Double.ofMilliseconds 0).add d) last)
    (hrounds : w.waits.length < rounds) :
    Answered pid last w.waits ((waitpid rounds pid (.int t)).run answer s w) := by
  have hlooked : ∀ handler, Looked pid w.waits 0 last s { w with handler := handler }
      ((awaitStatus rounds pid (.int t)).run answer s { w with handler := handler }) := by
    intro handler
    have hquiet : Quiet { w with handler := handler } := ⟨hfaults, (hwaits.quiet hfaults).waits⟩
    exact looked_awaitStatus s pid ht hd hquiet hclock hdue hrounds
  have hends : endingOf (foundBy last w.waits) ≠ .outOfRounds := by
    cases foundBy last w.waits <;> nofun
  -- no look depends on the handler, so it may be any while the wait lasts
  obtain ⟨inside, handler, before, after, hrun, hbefore, hafter⟩ :=
    run_forwarding s pid hfaults hends fun handler => (hlooked handler).eq
  rw [waitpid_eq, run_bind, run_attempt, hrun]
  cases hfound : foundBy last w.waits with
  | error e =>
      obtain rfl := foundBy_error hfound
      have houtcome : outcomeBy last w.waits = .noSuchProcess := by rw [outcomeBy, hfound]
      exact (hlooked inside).answered houtcome hbefore.unseen hafter.unseen ⟨fun _ => rfl, rfl⟩
  | ok found =>
      cases found with
      | none =>
          have houtcome : outcomeBy last w.waits = .timeout := by rw [outcomeBy, hfound]
          exact (hlooked inside).answered houtcome hbefore.unseen hafter.unseen ⟨fun _ => rfl, rfl⟩
      | some status =>
          have houtcome : outcomeBy last w.waits = outcomeOf status := by rw [outcomeBy, hfound]
          let behind : OsWorld := { w with
            waits := w.waits.drop (min (idleLooks w.waits) last + 1)
            clock := (0 + min (idleLooks w.waits) last) * pollInterval
            handler := handler }
          obtain ⟨entry, hclassify⟩ := run_classify s (w := behind) pid (hwaits.final hfound)
          have hlater : Unseen [.logged entry] := ⟨fun _ => rfl, rfl⟩
          simp only [endingOf, Ending.attempt, Outcome.andThen, behind] at hclassify ⊢
          rw [hclassify]
          exact (hlooked inside).answered houtcome hbefore.unseen hafter.unseen hlater

/-! ## The last look -/

/-- The look at which so many seconds have passed. -/
def lastLook (seconds : Nat) : Nat := 20 * seconds

/-- The milliseconds up to that look. -/
theorem lastLook_mul (t : Nat) : lastLook t * pollInterval = 1000 * t := by
  rw [lastLook, pollInterval]
  omega

theorem Due.le (h : Due deadline last) {k : Nat}
    (hk : deadline.le (Double.ofMilliseconds (k * pollInterval : Nat)) = true) : last ≤ k := by
  by_contra hlt
  rw [h.early k (Nat.lt_of_not_le hlt)] at hk
  cases hk

/-- When the seconds have passed the deadline is reached. -/
theorem reached_lastLook {t : Nat} {d : Double} (ht : 1 ≤ t) (hd : Double.ofInt? (t : Int) = some d) :
    ((Double.ofMilliseconds 0).add d).le
      (Double.ofMilliseconds (lastLook t * pollInterval : Nat)) = true := by
  rw [lastLook_mul]
  exact Double.le_ofMilliseconds ht hd

/-- The deadline is first reached at some look, and none behind the last one. -/
theorem exists_due {t : Nat} {d : Double} (ht : 1 ≤ t) (hd : Double.ofInt? (t : Int) = some d) :
    ∃ last ≤ lastLook t, Due ((Double.ofMilliseconds 0).add d) last := by
  have hreached : ∃ k : Nat, ((Double.ofMilliseconds 0).add d).le
      (Double.ofMilliseconds (k * pollInterval : Nat)) = true := ⟨lastLook t, reached_lastLook ht hd⟩
  refine ⟨Nat.find hreached, Nat.find_min' hreached (reached_lastLook ht hd),
    Nat.find_spec hreached, fun k hk => ?_⟩
  exact Bool.eq_false_iff.mpr (Nat.find_min hreached hk)

/-- Up to `2 ^ 49` seconds it is reached at no look before. -/
theorem due_lastLook {t : Nat} {d : Double} (ht : 1 ≤ t) (hmost : t ≤ 2 ^ 49)
    (hd : Double.ofInt? (t : Int) = some d) : Due ((Double.ofMilliseconds 0).add d) (lastLook t) := by
  constructor
  · exact reached_lastLook ht hd
  · intro k hk
    apply Double.not_le_ofMilliseconds ht hmost hd
    rw [← lastLook_mul]
    calc k * pollInterval + pollInterval = (k + 1) * pollInterval := (Nat.succ_mul k _).symm
      _ ≤ lastLook t * pollInterval := Nat.mul_le_mul_right _ hk

/-- A number of seconds that is too large for the clock ends the wait before the first look. -/
theorem run_waitpid_of_tooLarge (s : σ) (pid : Int) {t : Int} (ht : 1 ≤ t)
    (hd : Double.ofInt? t = none) (hfaults : w.faults = []) :
    let o := (waitpid rounds pid (.int t)).run answer s w
    o.ending = .failed (.tooLarge "int too large to convert to float") ∧ looks 0 o.events = [] ∧
      naps o.events = [] := by
  let tooLarge : Failure := .tooLarge "int too large to convert to float"
  have hawait : ∀ handler, (awaitStatus rounds pid (.int t)).run answer s { w with handler := handler } =
      ⟨.failed tooLarge, s, { w with handler := handler },
        [.called .clock (.ok (Double.ofMilliseconds w.clock))]⟩ := by
    intro handler
    have hnow := run_ask (c := .clock) s (w := { w with handler := handler }) hfaults rfl
    simp only [awaitStatus, leInt?_zero_of_pos ht, bind_eq_bind, run_bind, hnow, OsWorld.serve, endingOf,
      Outcome.andThen, seconds, hd, run_ofExcept_error]
    rfl
  have hends : (Ending.failed tooLarge : Ending (Option Int)) ≠ .outOfRounds := by
    intro h
    cases h
  obtain ⟨-, handler, before, after, hrun, hbefore, hafter⟩ :=
    run_forwarding s pid hfaults hends hawait
  have hlater : Unseen [] := ⟨fun _ => rfl, rfl⟩
  dsimp only
  rw [waitpid_eq, run_bind, run_attempt, hrun]
  exact ⟨rfl, looks_framed hbefore.unseen hafter.unseen hlater 0,
    naps_framed hbefore.unseen hafter.unseen hlater⟩

/-- With a timeout of up to `2 ^ 49` seconds the looks are exact: one each `pollInterval` milliseconds,
up to the first that does not find the child running, and none behind the one at which the timeout has
passed.  With more seconds the rounded clock can reach the deadline at a look before, and a number of
seconds that it cannot hold is refused. -/
theorem waitpid_deadline (rounds : Nat) (pid : Int) {t : Nat} (ht : 1 ≤ t) (s : σ) (w : OsWorld)
    (hclock : w.clock = 0) (hfaults : w.faults = []) (hwaits : RunsThenEnds w.waits)
    (hrounds : w.waits.length < rounds) :
    let o := (waitpid rounds pid (.int t)).run answer s w
    (t ≤ 2 ^ 49 → Answered pid (lastLook t) w.waits o) ∧
      (∀ d, Double.ofInt? t = some d → ∃ last ≤ lastLook t,
        Due ((Double.ofMilliseconds 0).add d) last ∧ Answered pid last w.waits o) ∧
      (Double.ofInt? t = none →
        o.ending = .failed (.tooLarge "int too large to convert to float") ∧ looks 0 o.events = [] ∧
          naps o.events = []) := by
  have ht' : (1 : Int) ≤ t := by exact_mod_cast ht
  refine ⟨fun hmost => ?_, fun d hd => ?_, fun hd => ?_⟩
  · obtain ⟨d, hd⟩ := Double.exists_ofInt? ht (lt_of_le_of_lt hmost (by decide))
    exact answered_waitpid s pid ht' hd hfaults hclock hwaits (due_lastLook ht hmost hd) hrounds
  · obtain ⟨last, hlast, hdue⟩ := exists_due ht hd
    exact ⟨last, hlast, hdue, answered_waitpid s pid ht' hd hfaults hclock hwaits hdue hrounds⟩
  · exact run_waitpid_of_tooLarge s pid ht' hd hfaults

/-- A world with a child and the statuses to come. -/
def waiting (waits : List WaitEvent) : OsWorld := { interrupted with waits := waits, faults := [] }

theorem runsThenEnds_replicate_append (n : Nat) (h : Final status) :
    RunsThenEnds (List.replicate n (.status 0 0) ++ [.status pid status]) := by
  intro event hmem
  rcases List.mem_append.mp hmem with hmem | hmem
  · obtain rfl := List.eq_of_mem_replicate hmem
    exact ⟨0, 0, rfl, .inl rfl⟩
  · obtain rfl := List.mem_singleton.mp hmem
    exact ⟨pid, status, rfl, .inr h⟩

theorem idleLooks_replicate_append (n : Nat) (h : pid ≠ 0) :
    idleLooks (List.replicate n (.status 0 0) ++ [.status pid status]) = n := by
  induction n with
  | zero => exact idleLooks_cons_of_ne h
  | succ n ih => rw [List.replicate_succ, List.cons_append, idleLooks_cons_zero, ih]

/-- A child that runs at the first twenty looks and was killed by the next, which is the last one. -/
theorem waitpid_deadline_of_lastLook :
    let waits := List.replicate 20 (.status 0 0) ++ [.status 101 9]
    let o := (waitpid 22 101 (.int (1 : Nat))).run answer () (waiting waits)
    Answered 101 (lastLook 1) waits o ∧ o.ending = .returned .killed ∧ (looks 0 o.events).length = 21 ∧
      naps o.events = List.replicate 20 50 := by
  have hends : RunsThenEnds (List.replicate 20 (.status 0 0) ++ [.status 101 9]) :=
    runsThenEnds_replicate_append 20 ⟨rfl, by decide⟩
  have h := (waitpid_deadline 22 101 (t := 1) (by decide) () (waiting _) rfl rfl hends (by decide)).1
    (by decide)
  refine ⟨h, h.ending, ?_, h.naps⟩
  rw [h.looks]
  rfl

/-- The clock cannot hold `10 ^ 309` seconds, and it cannot tell the look before `2 ^ 49 + 1` seconds
from the deadline. -/
theorem waitpid_deadline_rounded :
    let waits := List.replicate (lastLook (2 ^ 49 + 1)) (.status 0 0) ++ [.status 101 0]
    ((waitpid 2 101 (.int (10 ^ 309))).run answer () (waiting [.status 101 0])).ending =
        .failed (.tooLarge "int too large to convert to float") ∧
      idleLooks waits = lastLook (2 ^ 49 + 1) ∧
      ((waitpid (waits.length + 1) 101 (.int (2 ^ 49 + 1 : Nat))).run answer () (waiting waits)).ending =
        .returned .timeout := by
  have hidle : idleLooks (List.replicate (lastLook (2 ^ 49 + 1)) (.status 0 0) ++ [.status 101 0]) =
      lastLook (2 ^ 49 + 1) := idleLooks_replicate_append _ (by decide)
  have hends : RunsThenEnds (List.replicate (lastLook (2 ^ 49 + 1)) (.status 0 0) ++ [.status 101 0]) :=
    runsThenEnds_replicate_append _ ⟨rfl, by decide⟩
  have hd : Double.ofInt? ((2 ^ 49 + 1 : Nat) : Int) = some (.finite false (8 * (2 ^ 49 + 1)) (-3)) := by
    decide +kernel
  obtain ⟨last, -, hdue⟩ := exists_due (by decide) hd
  -- the look before is rounded to the deadline
  have hbefore : last ≤ lastLook (2 ^ 49 + 1) - 1 := by
    apply hdue.le
    decide +kernel
  have hlast : lastLook (2 ^ 49 + 1) - 1 < lastLook (2 ^ 49 + 1) := Nat.sub_lt (by decide) Nat.one_pos
  have hrefused : Double.ofInt? (10 ^ 309) = none := by decide +kernel
  have hanswered : ∀ waits, RunsThenEnds waits → Answered 101 last waits
      ((waitpid (waits.length + 1) 101 (.int (2 ^ 49 + 1 : Nat))).run answer () (waiting waits)) :=
    fun waits hends => answered_waitpid () 101 (w := waiting waits) (by decide) hd rfl rfl hends hdue
      (Nat.lt_succ_self _)
  refine ⟨?_, hidle, ?_⟩
  · exact (run_waitpid_of_tooLarge () 101 (one_le_pow₀ (by decide)) hrefused rfl).1
  · rw [(hanswered _ hends).timeout, hidle]
    exact lt_of_le_of_lt hbefore hlast

end LineShell.Host
