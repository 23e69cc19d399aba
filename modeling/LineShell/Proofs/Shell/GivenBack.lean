import LineShell.Proofs.Program.Between
import LineShell.Proofs.Services.Interrupts
import LineShell.Proofs.Services.Mirror
import LineShell.Proofs.Shell.Start

/-!
# The handler is given back

A wait installs a handler of its own and gives the one from before back, however it ends: by a result,
by any failure of a call or of a handler, or by a status that means nothing.  As long as handlers can be
installed at all, nothing of the wait is left but that a handler that was not set is the default one
from then on.  Outside of the main thread no handler is installed, and there the wait touches none.

`OsWorld.Holds` is what all calls but the installation of a handler keep (`Holds.answer`), so it is
enough to follow the two installations around the look at the child (`ensures_waitpid_givesBack`).  A
look takes a status or ends the wait, which is why the rounds suffice (`length_waits_look`).

The main result is `Shell.run_givesBack`.
-/

namespace LineShell

open Program OsCall

namespace OsWorld

/-- Handlers can be installed wherever the thread allows it. -/
def Installs (w : OsWorld) : Prop := ∀ f ∈ w.faults, f.call ≠ .signal

/-- A world with a handler and a kind of thread, in which handlers can be installed. -/
structure Holds (handler : Handler) (main : Bool) (w : OsWorld) : Prop where
  handler : w.handler = handler
  main : w.mainThread = main
  installs : w.Installs

variable {handler : Handler} {main : Bool} {w : OsWorld} {c : OsCall}

/-! ## What calls keep -/

theorem serve_mainThread (c : OsCall) (w : OsWorld) : (w.serve c).2.mainThread = w.mainThread := by
  by_cases hc : c.name = .waitpid
  · cases c with
    | waitpid pid now =>
        obtain ⟨waits, hrest⟩ := w.takeStatus_rest
        rw [serve, hrest]
    | _ => cases hc
  · exact (serve_kept hc w).2.2

/-- Only the installation of a handler changes it, whatever else happens during a call. -/
theorem Holds.answer (hc : c.name ≠ .signal) (h : Holds handler main w) :
    Holds handler main (answer c w).world := by
  refine answer_preserves (P := Holds handler main) ?_ ?_ ?_ h
  · exact fun v waits hv => ⟨hv.handler, hv.main, hv.installs⟩
  · intro v call hv
    refine ⟨hv.handler, hv.main, fun f hf => ?_⟩
    obtain ⟨g, hg, hcall, -⟩ := Fault.exists_of_mem_advance hf
    rw [← hcall]
    exact hv.installs g hg
  · intro d v hd hv
    have hsignal : d.name ≠ .signal := by
      rcases hd with hd | hd
      · rw [hd]
        exact hc
      · rw [hd]
        nofun
    refine ⟨(serve_handler hsignal v).trans hv.handler, (serve_mainThread d v).trans hv.main, ?_⟩
    unfold Installs
    rw [serve_faults]
    exact hv.installs

/-- In the main thread a handler takes the place of the one before. -/
theorem Holds.answer_signal (h : Holds handler true w) (other : Handler) :
    OsWorld.answer (.signal other) w = ⟨.ok handler, { w with handler := other }, []⟩ := by
  rw [answer_of_unhit (c := .signal other) h.installs nofun, serve, if_pos h.main, h.handler]

/-- Where the thread does not allow it nothing is installed. -/
theorem Holds.answer_signal_refused (h : Holds handler false w) (other : Handler) :
    OsWorld.answer (.signal other) w =
      ⟨.error (.badValue "signal only works in main thread of the main interpreter"), w, []⟩ := by
  rw [answer_of_unhit (c := .signal other) h.installs nofun, serve, if_neg (by simp [h.main])]

/-- There no call at all touches the handler. -/
theorem Holds.answer_threaded (h : Holds handler false w) (c : OsCall) :
    Holds handler false (OsWorld.answer c w).world := by
  by_cases hc : c.name = .signal
  · cases c with
    | signal other =>
        rw [h.answer_signal_refused]
        exact h
    | _ => cases hc
  · exact h.answer hc

/-! ## Statuses are used up -/

theorem waits_answer (hc : c.name ≠ .waitpid) (w : OsWorld) :
    (OsWorld.answer c w).world.waits = w.waits := by
  rcases answer_cases hc w with ⟨f, -, -, hanswer⟩ | hanswer <;> rw [hanswer]
  · rfl
  · exact (serve_kept hc _).1

theorem length_waits_deliver_le {n : Nat} (waits : List WaitEvent) {w : OsWorld}
    (hw : w.waits.length ≤ n) (hwaits : waits.length ≤ n) :
    (deliver waits w).2.1.waits.length ≤ n := by
  induction waits generalizing w with
  | nil => exact hw
  | cons first rest ih =>
      cases first with
      | status pid status => exact hw
      | interrupt =>
          have hrest : rest.length ≤ n := Nat.le_of_succ_le hwaits
          simp only [deliver]
          cases haction : w.handler.action? with
          | none => exact ih hrest hrest
          | some action =>
              have hrun : (action.run answerAtOnce () { w with waits := rest }).world.waits.length ≤ n := by
                -- a handler makes no calls but kills, which take nothing from the list
                have hkept : Ensures answerAtOnce (fun _ _ v => v.waits.length ≤ n) action
                    (fun _ _ _ v => v.waits.length ≤ n) (fun _ _ _ v => v.waits.length ≤ n)
                    fun _ _ v => v.waits.length ≤ n := by
                  refine (footprint_action haction).ensures (fun c hc _ _ v hv => ?_)
                    (fun _ _ _ _ _ hv => hv) (fun _ _ _ _ _ hv => hv) fun _ _ _ _ hv => hv
                  have hwait : c.name ≠ .waitpid := fun heq => by
                    rw [show c.name = .kill from hc] at heq
                    cases heq
                  rw [← answer_of_ne hwait, waits_answer hwait]
                  exact hv
                exact hkept.always (fun _ _ _ _ hv => hv) (fun _ _ _ _ hv => hv) (fun _ _ _ hv => hv)
                  hrest
              dsimp only
              cases (action.run answerAtOnce () { w with waits := rest }).ending with
              | failed e => exact hrun
              | outOfRounds => exact hrun
              | returned nothing => exact ih hrun hrest

/-- A look at a child that finds a status uses it up. -/
theorem length_waits_look {pid : Int} {now : Bool} {found : Int × Int}
    (h : (OsWorld.answer (.waitpid pid now) w).outcome = .ok found) :
    (OsWorld.answer (.waitpid pid now) w).world.waits.length < w.waits.length := by
  simp only [OsWorld.answer] at h ⊢
  cases hhit : Fault.hit? w.faults .waitpid with
  | some e =>
      rw [hhit] at h
      cases h
  | none =>
      rw [hhit] at h
      simp only at h ⊢
      have hdelivered := length_waits_deliver_le w.waits
        (w := { w with faults := Fault.advance w.faults .waitpid }) (Nat.le_refl _) (Nat.le_refl _)
      unfold answerWait at h ⊢
      dsimp only at h ⊢
      rcases hcame : deliver w.waits { w with faults := Fault.advance w.faults .waitpid } with
        ⟨e | ⟨⟩, after, inner⟩ <;> rw [hcame] at h hdelivered <;> simp only at h hdelivered ⊢
      · cases h
      · cases hfirst : after.waits with
        | nil =>
            rw [takeStatus_of_nil hfirst] at h
            cases h
        | cons first rest =>
            cases first with
            | interrupt => simp [takeStatus, hfirst] at h
            | status process status =>
                rw [takeStatus_of_cons hfirst]
                rw [hfirst] at hdelivered
                exact hdelivered

end OsWorld

namespace Host

open OsWorld (answer Holds)

variable {σ : Type} {handler : Handler} {main : Bool} {n : Nat}

/-! ## While a child is looked at -/

/-- A handler holds, and there are so many events to come at most. -/
def HoldsFor (handler : Handler) (main : Bool) (n : Nat) : Assertion σ OsWorld OsCall.Reply :=
  fun _ _ w => Holds handler main w ∧ w.waits.length ≤ n

/-- What installs no handler and looks at no child leaves all as it is. -/
theorem ensures_aside {c : OsCall} (hsignal : c.name ≠ .signal) (hwait : c.name ≠ .waitpid) :
    Ensures (σ := σ) answer (HoldsFor handler main n) (ask c) (fun _ => HoldsFor handler main n)
      (fun _ _ _ w => Holds handler main w) Never := by
  refine Ensures.request (fun past s w r h _ => ⟨h.1.answer hsignal, ?_⟩) fun past s w e h _ =>
    h.1.answer hsignal
  rw [OsWorld.waits_answer hwait]
  exact h.2

/-- A look takes one of the events to come, or it ends the wait. -/
theorem ensures_takingLook (pid : Int) (now : Bool) :
    Ensures (σ := σ) answer (HoldsFor handler main n) (ask (.waitpid pid now))
      (fun _ past s w => ∃ left, n = left + 1 ∧ HoldsFor handler main left past s w)
      (fun _ _ _ w => Holds handler main w) Never := by
  refine Ensures.request (fun past s w found h hfound => ?_) fun past s w e h _ => h.1.answer nofun
  have hless := OsWorld.length_waits_look hfound
  obtain ⟨hholds, hmost⟩ := h
  exact ⟨n - 1, by omega, hholds.answer nofun, by omega⟩

/-- Looking from time to time stops for want of rounds only if more was to come. -/
theorem ensures_polling (pid : Int) (deadline : Double) (rounds n : Nat) :
    Ensures (σ := σ) answer (HoldsFor handler main n) (poll pid deadline rounds)
      (fun _ _ _ w => Holds handler main w) (fun _ _ _ w => Holds handler main w)
      fun _ _ _ => rounds ≤ n := by
  induction rounds generalizing n with
  | zero => exact Ensures.outOfRounds fun _ _ _ _ => Nat.zero_le _
  | succ rounds ih =>
      refine Ensures.bind ((ensures_takingLook pid true).part fun _ _ _ _ h => h) ?_
      rintro ⟨process, status⟩
      refine Ensures.exists_pre fun left => Ensures.and_pre ?_
      rintro rfl
      dsimp only
      by_cases hprocess : process ≠ 0
      · simp only [if_pos hprocess]
        exact Ensures.done fun _ _ _ h => h.1
      · simp only [if_neg hprocess]
        refine Ensures.bind ((ensures_aside (c := .clock) nofun nofun).part fun _ _ _ _ h => h)
          fun now => ?_
        by_cases hdeadline : deadline.le now = true
        · simp only [if_pos hdeadline]
          exact Ensures.done fun _ _ _ h => h.1
        · simp only [if_neg hdeadline]
          refine Ensures.bind ((ensures_aside (c := .sleep pollInterval) nofun nofun).part
            fun _ _ _ _ h => h) fun _ => ?_
          exact (ih left).mono (fun _ _ _ h => h) (fun _ _ _ _ h => h) (fun _ _ _ _ h => h)
            fun _ _ _ h => Nat.succ_le_succ h

theorem ensures_awaiting (rounds : Nat) (pid : Int) (timeout : Value) :
    Ensures (σ := σ) answer (HoldsFor handler main n) (awaitStatus rounds pid timeout)
      (fun _ _ _ w => Holds handler main w) (fun _ _ _ w => Holds handler main w)
      fun _ _ _ => rounds ≤ n := by
  unfold awaitStatus
  rcases timeout.leInt? 0 with _ | _ | _
  · exact Ensures.fail fun _ _ _ h => h.1
  · refine Ensures.bind ((ensures_aside (c := .clock) nofun nofun).part fun _ _ _ _ h => h)
      fun now => ?_
    refine Ensures.bind (m := fun _ => HoldsFor handler main n) ?_ fun timeout =>
      ensures_polling pid _ rounds n
    exact Ensures.ofExcept (fun _ _ _ _ _ h => h) fun _ _ _ _ _ h => h.1
  · refine Ensures.bind ((ensures_takingLook pid false).part fun _ _ _ _ h => h) fun found => ?_
    exact Ensures.done fun _ _ _ h => h.choose_spec.2.1

/-! ## Around it -/

/-- The handler that a wait leaves behind, by the one from before. -/
def leftBy (handler : Handler) (main : Bool) : Handler := if main then givenBack handler else handler

/-- In the main thread a handler is installed, and the one before is known. -/
theorem ensures_signal (other : Handler) :
    Ensures (σ := σ) answer (HoldsFor handler true n) (ask (.signal other))
      (fun previous past s w => previous = handler ∧ HoldsFor other true n past s w) (fun _ => Never)
      Never := by
  refine Ensures.request (fun past s w r h hr => ?_) fun past s w e h he => ?_
  · rw [h.1.answer_signal] at hr ⊢
    exact ⟨(Except.ok.inj hr).symm, ⟨rfl, h.1.main, h.1.installs⟩, h.2⟩
  · rw [h.1.answer_signal] at he
    cases he

/-- While a child is waited for interrupts are handed on, in the main thread. -/
theorem ensures_installing (pid : Int) :
    Ensures (σ := σ) answer (HoldsFor handler main n) (install (.forward pid))
      (fun previous past s w => previous = (if main then some handler else none) ∧
        HoldsFor (if main then .forward pid else handler) main n past s w)
      (fun _ => Never) Never := by
  cases main with
  | true =>
      refine Ensures.bind (ensures_signal _).attempt fun outcome => ?_
      cases outcome with
      | error e => exact fun _ _ _ h => h.elim
      | ok previous => exact Ensures.done fun _ _ _ h => ⟨congrArg some h.1, h.2⟩
  | false =>
      have hrefused : Ensures (σ := σ) answer (HoldsFor handler false n) (ask (.signal (.forward pid)))
          (fun _ => Never) (fun e past s w => (∃ text, e = .badValue text) ∧
            HoldsFor handler false n past s w) Never := by
        refine Ensures.request (fun past s w r h hr => ?_) fun past s w e h he => ?_
        · rw [h.1.answer_signal_refused] at hr
          cases hr
        · rw [h.1.answer_signal_refused] at he ⊢
          exact ⟨⟨_, (Except.error.inj he).symm⟩, h⟩
      refine Ensures.bind hrefused.attempt fun outcome => ?_
      cases outcome with
      | ok previous => exact fun _ _ _ h => h.elim
      | error e =>
          refine Ensures.and_pre ?_
          rintro ⟨text, rfl⟩
          exact Ensures.done fun _ _ _ h => ⟨rfl, h⟩

/-- A handler that was installed gives way to the one from before. -/
theorem ensures_givingBack (pid : Int) {fails : Failure → Assertion σ OsWorld OsCall.Reply} :
    Ensures answer (fun _ _ w => Holds (if main then .forward pid else handler) main w)
      (giveBack (if main then some handler else none))
      (fun _ _ _ w => Holds (leftBy handler main) main w) fails Never := by
  cases main with
  | false => exact Ensures.done fun _ _ _ h => h
  | true =>
      have hsome : Ensures answer (fun past s w => ∃ n, HoldsFor (.forward pid) true n past s w)
          (giveBack (some handler)) (fun _ _ _ w => Holds (givenBack handler) true w) fails Never := by
        refine Ensures.exists_pre fun n => ?_
        refine Ensures.bind ((ensures_signal (givenBack handler)).part fun _ _ _ _ h => h.elim)
          fun _ => ?_
        exact Ensures.done fun _ _ _ h => h.2.1
      exact hsome.weaken fun _ _ w h => ⟨w.waits.length, h, Nat.le_refl _⟩

/-- However the look at the child ends, the handler from before is back when the wait is over. -/
theorem ensures_waitpid_givesBack (rounds : Nat) (pid : Int) (timeout : Value) :
    Ensures (σ := σ) answer (HoldsFor handler main n) (waitpid rounds pid timeout)
      (fun _ _ _ w => Holds (leftBy handler main) main w)
      (fun _ _ _ w => Holds (leftBy handler main) main w) fun _ _ _ => rounds ≤ n := by
  have hforwarding : Ensures (σ := σ) answer (HoldsFor handler main n)
      (forwarding pid (awaitStatus rounds pid timeout))
      (fun _ _ _ w => Holds (leftBy handler main) main w)
      (fun _ _ _ w => Holds (leftBy handler main) main w) fun _ _ _ => rounds ≤ n := by
    refine Ensures.bind ((ensures_installing pid).part fun _ _ _ _ h => h.elim) fun previous =>
      Ensures.and_pre ?_
    rintro rfl
    have hback : Ensures (σ := σ) answer
        (fun _ _ w => Holds (if main then .forward pid else handler) main w)
        (giveBack (if main then some handler else none))
        (fun _ _ _ w => Holds (leftBy handler main) main w)
        (fun _ _ _ w => Holds (leftBy handler main) main w) fun _ _ _ => rounds ≤ n :=
      (ensures_givingBack pid).part fun _ _ _ _ h => h
    exact Ensures.andFinally (ensures_awaiting rounds pid timeout) (fun _ => hback) fun _ => hback
  rw [waitpid]
  refine Ensures.bind hforwarding.attempt fun outcome => ?_
  rcases outcome with e | _ | status
  · cases e with
    | interrupt => exact Ensures.done fun _ _ _ h => h
    | _ =>
        dsimp only
        split
        · exact Ensures.done fun _ _ _ h => h
        · exact Ensures.fail fun _ _ _ h => h
  · exact Ensures.done fun _ _ _ h => h
  · -- a status is classified without a call
    have hclassify : (classify pid status : Program σ OsCall.Reply WaitOutcome).Footprint
        (scope [] false) := footprint_classify pid status
    exact hclassify.ensures (fun _ hc => nomatch hc) (fun _ _ _ _ hchange => hchange.elim)
      (fun _ _ _ _ _ h => h) nofun

/-- With rounds enough for what is to come a wait ends, and the handler from before is back. -/
theorem holds_after_waitpid {rounds : Nat} (pid : Int) (timeout : Value) (s : σ) {w : OsWorld}
    (h : Holds handler main w) (hrounds : w.waits.length < rounds) :
    ((waitpid rounds pid timeout).run answer s w).ending ≠ .outOfRounds ∧
      Holds (leftBy handler main) main ((waitpid rounds pid timeout).run answer s w).world := by
  have hrun := ensures_waitpid_givesBack rounds pid timeout [] s w ⟨h, Nat.le_refl _⟩
  cases hend : ((waitpid rounds pid timeout).run answer s w).ending with
  | returned outcome =>
      rw [hend] at hrun
      exact ⟨nofun, hrun⟩
  | failed e =>
      rw [hend] at hrun
      exact ⟨nofun, hrun⟩
  | outOfRounds =>
      rw [hend] at hrun
      exact absurd hrounds (Nat.not_lt.mpr hrun)

/-- A handler that hands interrupts on is left behind only where it was there before. -/
theorem forward_of_leftBy {child : Int} (h : leftBy handler main = .forward child) :
    handler = .forward child := by
  unfold leftBy givenBack at h
  split at h
  · split at h
    · cases h
    · exact h
  · exact h

/-! ## All services -/

/-- No service but a wait has anything to do with handlers. -/
theorem ensures_carryOut_holds (spare : Nat) {c : ServiceCall} (hc : c.name ≠ .waitpid) :
    Ensures (σ := σ) answer (fun _ _ w => Holds handler main w) (carryOut spare c)
      (fun _ _ _ w => Holds handler main w) (fun _ _ _ w => Holds handler main w)
      fun _ _ w => Holds handler main w := by
  refine (footprint_carryOut spare c).ensures (fun d hd _ _ w h => h.answer ?_)
    (fun _ _ _ _ hchange => hchange.elim) (fun _ _ _ _ _ h => h) fun _ _ _ _ h => h
  have hname : d.name ∈ callsOf c.name := List.contains_iff_mem.mp hd
  intro hsignal
  rw [hsignal] at hname
  revert hname hc
  generalize c.name = name
  cases name <;> decide

end Host

/-- Whether an event is a wait for a child. -/
def Event.isWait : Event ServiceCall.Reply → Bool
  | .called (.waitpid ..) _ => true
  | _ => false

/-- The handler behind some events in a world: that of the world before the first wait, and from then on
the one that a wait leaves behind. -/
def OsWorld.handlerBy (w : OsWorld) (past : List (Event ServiceCall.Reply)) : Handler :=
  if past.any Event.isWait then Host.leftBy w.handler w.mainThread else w.handler

theorem Host.leftBy_leftBy (handler : Handler) (main : Bool) :
    leftBy (leftBy handler main) main = leftBy handler main := by
  unfold leftBy givenBack
  cases main <;> cases handler <;> rfl

namespace OsWorld

variable {w : OsWorld} {past : List (Event ServiceCall.Reply)} {e : Event ServiceCall.Reply}

theorem handlerBy_wait (h : e.isWait = true) :
    w.handlerBy (past ++ [e]) = Host.leftBy (w.handlerBy past) w.mainThread := by
  have hwaited : (past ++ [e]).any Event.isWait = true := by simp [h]
  unfold handlerBy
  rw [if_pos hwaited]
  split
  · rw [Host.leftBy_leftBy]
  · rfl

theorem handlerBy_aside (h : e.isWait = false) : w.handlerBy (past ++ [e]) = w.handlerBy past := by
  unfold handlerBy
  rw [List.any_append, List.any_cons, h]
  simp

end OsWorld

/-- Between the services that a program calls the handler is the one from before the first wait, or the
one that each wait leaves behind. -/
theorem Between.handler_eq {σ α : Type} {p : Program σ ServiceCall.Reply α} {spare : Nat} {s : σ}
    {w : OsWorld} (hw : w.Installs) {past : List (Event ServiceCall.Reply)}
    {inner : List (Event OsCall.Reply)} {x : Point σ OsWorld ServiceCall.Reply α}
    (h : Between (Host.carryOut spare) OsWorld.answer ⟨p, s, w⟩ past inner x) :
    x.world.handler = w.handlerBy past := by
  have hholds : x.world.Holds (w.handlerBy past) w.mainThread := by
    refine h.kept (P := fun past v => v.Holds (w.handlerBy past) w.mainThread) (fun c past => ?_)
      (fun entry past v hv => ?_) ⟨rfl, rfl, hw⟩
    -- a wait leaves the handler it gives back, and nothing else touches it
    · by_cases hc : c.name = .waitpid
      · cases c with
        | waitpid pid timeout =>
            simp only [OsWorld.handlerBy_wait (e := .called (.waitpid pid timeout) _) rfl]
            have hwait : Ensures (σ := σ) OsWorld.answer
                (fun past' s v => ∃ n, Host.HoldsFor (w.handlerBy past) w.mainThread n past' s v)
                (Host.waitpid spare pid timeout)
                (fun _ _ _ v => v.Holds (Host.leftBy (w.handlerBy past) w.mainThread) w.mainThread)
                (fun _ _ _ v => v.Holds (Host.leftBy (w.handlerBy past) w.mainThread) w.mainThread)
                fun _ _ _ => True :=
              Ensures.exists_pre fun n => (Host.ensures_waitpid_givesBack spare pid timeout).mono
                (fun _ _ _ h => h) (fun _ _ _ _ h => h) (fun _ _ _ _ h => h) fun _ _ _ _ => trivial
            exact hwait.weaken fun _ _ v hv => ⟨v.waits.length, hv, Nat.le_refl _⟩
        | _ => cases hc
      · have haside : ∀ outcome, (Event.called c outcome).isWait = false := by
          intro outcome
          cases c with
          | waitpid => exact absurd rfl hc
          | _ => rfl
        simp only [OsWorld.handlerBy_aside (haside _)]
        exact (Host.ensures_carryOut_holds spare hc).mono (fun _ _ _ h => h) (fun _ _ _ _ h => h)
          (fun _ _ _ _ h => h) fun _ _ _ _ => trivial
    · rw [OsWorld.handlerBy_aside rfl]
      exact hv
  exact hholds.handler

namespace Shell

open OsWorld (answer)
open Host (waitpid carryOut onHost)

/-- A wait leaves no handler of its own behind.  Whatever fails during it, it comes to an end with the
handler from before, or with the default one where none was set; where handlers cannot be installed it
never touches the one there is.  So in a run of the shell the handler is the same at all points between
two services from the first wait on. -/
theorem run_givesBack {w : OsWorld} (hw : w.Installs) :
    (∀ (rounds : Nat) (pid : Int) (timeout : Value) (s : Session), w.waits.length < rounds →
      let o := (waitpid rounds pid timeout).run answer s w
      o.ending ≠ .outOfRounds ∧ o.world.handler = Host.leftBy w.handler w.mainThread ∧
        (∀ child, o.world.handler = .forward child → w.handler = .forward child)) ∧
    (w.mainThread = false → ∀ (rounds : Nat) (pid : Int) (timeout : Value) (s : Session) past x,
      Passes answer ⟨waitpid rounds pid timeout, s, w⟩ past x → x.world.handler = w.handler) ∧
    ∀ (shell : Shell) (spare rounds : Nat) (scripts : List Text) (s : Session) past inner x,
      Between (carryOut spare) answer ⟨shell.run rounds scripts, s, w⟩ past inner x →
        x.world.handler = w.handlerBy past := by
  refine ⟨fun rounds pid timeout s hrounds => ?_, fun hmain rounds pid timeout s past x hpass => ?_,
    fun shell spare rounds scripts s past inner x hbetween => hbetween.handler_eq hw⟩
  · obtain ⟨hends, hholds⟩ := Host.holds_after_waitpid pid timeout s ⟨rfl, rfl, hw⟩ hrounds
    refine ⟨hends, hholds.handler, fun child hchild => ?_⟩
    rw [hholds.handler] at hchild
    exact Host.forward_of_leftBy hchild
  · have hholds : x.world.Holds w.handler false :=
      hpass.kept (P := fun _ v => v.Holds w.handler false) (fun c _ _ hv => hv.answer_threaded c)
        (fun _ _ _ hv => hv) ⟨rfl, hmain, hw⟩
    exact hholds.handler

/-- A host in which no handler was set, with two commands on standard input.  The child of the first is
interrupted and told so; the signal for the child of the second is not permitted. -/
def forbiddenHost : OsWorld :=
  { (InMemory.create [] [] "/" "/bin" [0x6C, 0x73, 0x0A, 0x6C, 0x73, 0x0A] [7, 8] [] false false []).asHost
      false none [.interrupt, .status 7 0x100, .interrupt, .status 8 0] with
    handler := .unset
    faults := [⟨.kill, 2, .os (some 1) "Operation not permitted"⟩] }

/-- The second wait fails, and with it the run, but the handler is the default one from the first wait
on, and a wait by itself leaves that one behind, too. -/
theorem run_givesBack_of_forbiddenSignal :
    let o := (onHost 5 (Shell.default.run 8 [])).run answer (.default "/") forbiddenHost
    let wait := (waitpid 5 7 (.int 1)).run answer (Session.default "/") forbiddenHost
    o.ending = .failed (.os (some 1) "Operation not permitted") ∧ o.world.handler = .default ∧
      wait.ending = .returned .success ∧ wait.world.handler = .default ∧
      ∀ past inner x, Between (carryOut 5) answer ⟨Shell.default.run 8 [], .default "/", forbiddenHost⟩
        past inner x → x.world.handler = if past.any Event.isWait then .default else .unset := by
  intro o wait
  have hw : forbiddenHost.Installs := by
    intro f hf
    obtain rfl := List.mem_singleton.mp hf
    nofun
  obtain ⟨hwait, -, hbetween⟩ := run_givesBack hw
  refine ⟨rfl, rfl, rfl, (hwait 5 7 (.int 1) (.default "/") (by decide)).2.1, ?_⟩
  exact hbetween Shell.default 5 8 [] (.default "/")

end Shell

end LineShell
