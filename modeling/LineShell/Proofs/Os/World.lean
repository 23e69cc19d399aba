import LineShell.Os.World
import LineShell.Proofs.Program.Footprint

/-!
# Answers of an operating system in memory

Only a wait has something to report from inside: the interrupts that arrive during it are handed on
to the child by the handler, so nothing but signals is sent behind a call (`answer_inner_kill`).  The
most bytes that a write takes stay the same in all of it (`answer_writeMax`).
-/

namespace LineShell

open Program

/-! ## Faults -/

namespace Fault

variable {Name : Type} [DecidableEq Name] {faults : List (Fault Name)} {call : Name}

theorem hit?_of_forall_ne (h : ∀ f ∈ faults, f.call ≠ call) : hit? faults call = none := by
  rw [hit?, List.find?_eq_none.mpr, Option.map_none]
  intro f hf
  simp [h f hf]

theorem advance_of_forall_ne (h : ∀ f ∈ faults, f.call ≠ call) : advance faults call = faults := by
  induction faults with
  | nil => rfl
  | cons first rest ih =>
      have hfirst : first.call ≠ call := h first List.mem_cons_self
      rw [advance, List.filterMap_cons, if_neg hfirst]
      exact congrArg (first :: ·) (ih fun f hf => h f (List.mem_cons_of_mem first hf))

theorem exists_of_hit? {e : Failure} (h : hit? faults call = some e) :
    ∃ f ∈ faults, f.call = call ∧ f.failure = e := by
  obtain ⟨f, hfind, hfailure⟩ := Option.map_eq_some_iff.mp h
  have hdue := List.find?_some hfind
  rw [Bool.and_eq_true, decide_eq_true_eq] at hdue
  exact ⟨f, List.mem_of_find?_eq_some hfind, hdue.1, hfailure⟩

/-- A fault that is still to come was to come before. -/
theorem exists_of_mem_advance {f : Fault Name} (h : f ∈ advance faults call) :
    ∃ g ∈ faults, g.call = f.call ∧ g.failure = f.failure := by
  obtain ⟨g, hg, hgf⟩ := List.mem_filterMap.mp h
  refine ⟨g, hg, ?_⟩
  by_cases hcall : g.call = call
  · rw [if_pos hcall] at hgf
    by_cases hlast : g.countdown ≤ 1
    · rw [if_pos hlast] at hgf
      cases hgf
    · rw [if_neg hlast] at hgf
      cases hgf
      exact ⟨rfl, rfl⟩
  · rw [if_neg hcall] at hgf
    cases hgf
    exact ⟨rfl, rfl⟩

end Fault

namespace OsWorld

/-- A world in which nothing is there yet, and nothing goes wrong. -/
def bare : OsWorld where
  files := []
  dirs := []
  denied := []
  environment := []
  cwd := "/"
  cwdGone := false
  sources := []
  stdinPipe := false
  writeMax := none
  nextFd := 3
  forks := []
  waits := []
  execError := noSuchFile
  handler := .default
  mainThread := true
  clock := 0
  faults := []

/-- Events in which nothing is called but sending signals. -/
def OnlySignals (events : List (Event OsCall.Reply)) : Prop :=
  ∀ c outcome, .called c outcome ∈ events → c.name = .kill

theorem answerAtOnce_inner (c : OsCall) (w : OsWorld) : (answerAtOnce c w).inner = [] := by
  unfold answerAtOnce
  cases Fault.hit? w.faults c.name <;> rfl

/-- Every call but a wait is answered at once. -/
theorem answer_of_ne {c : OsCall} (hc : c.name ≠ .waitpid) (w : OsWorld) :
    answer c w = answerAtOnce c w := by
  cases c with
  | waitpid pid now => exact absurd rfl hc
  | _ => rfl

theorem answer_inner_of_ne {c : OsCall} (hc : c.name ≠ .waitpid) (w : OsWorld) :
    (answer c w).inner = [] := by
  rw [answer_of_ne hc, answerAtOnce_inner]

/-- A call that no fault is to hit is carried out. -/
theorem answer_of_unhit {c : OsCall} {w : OsWorld} (h : ∀ f ∈ w.faults, f.call ≠ c.name)
    (hwait : c.name ≠ .waitpid) : answer c w = ⟨(w.serve c).1, (w.serve c).2, []⟩ := by
  rw [answer_of_ne hwait, answerAtOnce, Fault.hit?_of_forall_ne h, Fault.advance_of_forall_ne h]

/-- The world that carries a call out, with the faults one call closer. -/
def ready (w : OsWorld) (c : OsCall) : OsWorld :=
  { w with faults := Fault.advance w.faults c.name }

/-- A call is hit by a fault, or it is carried out. -/
theorem answer_cases {c : OsCall} (hc : c.name ≠ .waitpid) (w : OsWorld) :
    (∃ f ∈ w.faults, f.call = c.name ∧ answer c w = ⟨.error f.failure, w.ready c, []⟩) ∨
      answer c w = ⟨((w.ready c).serve c).1, ((w.ready c).serve c).2, []⟩ := by
  rw [answer_of_ne hc, answerAtOnce]
  cases hhit : Fault.hit? w.faults c.name with
  | none => exact .inr rfl
  | some e =>
      obtain ⟨f, hf, hcall, rfl⟩ := Fault.exists_of_hit? hhit
      exact .inl ⟨f, hf, hcall, rfl⟩

/-- A call that returns was carried out. -/
theorem serve_of_answer_ok {c : OsCall} (hc : c.name ≠ .waitpid) {w : OsWorld} {r : c.Reply}
    (h : (answer c w).outcome = .ok r) : ((w.ready c).serve c).1 = .ok r := by
  rcases answer_cases hc w with ⟨f, -, -, hanswer⟩ | hanswer
  · rw [hanswer] at h
    cases h
  · rw [hanswer] at h
    exact h

/-! ## What calls keep -/

theorem serve_writeMax (c : OsCall) (w : OsWorld) : (w.serve c).2.writeMax = w.writeMax := by
  cases c <;> simp only [serve, seek, readBytes, chdir, takeStatus, setSource] <;>
    (repeat' split) <;> rfl

theorem serve_faults (c : OsCall) (w : OsWorld) : (w.serve c).2.faults = w.faults := by
  cases c <;> simp only [serve, seek, readBytes, chdir, takeStatus, setSource] <;>
    (repeat' split) <;> rfl

/-- An operating system knows nothing of reports, apart from what becoming another program is set up to
fail with. -/
theorem fileReport?_of_serve_error {c : OsCall} (hc : c.name ≠ .execve) {w : OsWorld} {e : Failure}
    (h : (w.serve c).1 = .error e) : e.fileReport? = none := by
  cases c with
  | execve => exact absurd rfl hc
  | _ =>
      simp only [serve, seek, readBytes, chdir, takeStatus] at h
      repeat' split at h
      all_goals first | cases h; rfl | cases h

theorem answerAtOnce_writeMax (c : OsCall) (w : OsWorld) :
    (answerAtOnce c w).world.writeMax = w.writeMax := by
  unfold answerAtOnce
  cases Fault.hit? w.faults c.name with
  | some e => rfl
  | none => exact serve_writeMax c _

/-- What a program finds its way by: the working directory and the environment. -/
def surroundings (w : OsWorld) : Text × Environment := (w.cwd, w.environment)

theorem serve_surroundings {c : OsCall} (hchdir : c.name ≠ .chdir) (hset : c.name ≠ .setVariable)
    (w : OsWorld) : (w.serve c).2.surroundings = w.surroundings := by
  cases c with
  | chdir path => exact absurd rfl hchdir
  | setVariable name value => exact absurd rfl hset
  | _ =>
      simp only [serve, seek, readBytes, takeStatus, setSource]
      repeat' split
      all_goals rfl

theorem answerAtOnce_surroundings {c : OsCall} (hchdir : c.name ≠ .chdir)
    (hset : c.name ≠ .setVariable) (w : OsWorld) :
    (answerAtOnce c w).world.surroundings = w.surroundings := by
  unfold answerAtOnce
  cases Fault.hit? w.faults c.name with
  | some e => rfl
  | none => exact serve_surroundings hchdir hset _

/-! ## Handlers -/

/-- What a handler does. -/
def handlerScope : Scope Unit OsCall where
  calls c := c.name = .kill
  changes _ _ := True
  notes _ := True
  stops := False

theorem footprint_action {handler : Handler} {action : Program Unit OsCall.Reply Unit}
    (h : handler.action? = some action) : action.Footprint handlerScope := by
  cases handler with
  | default => cases h; exact Footprint.fail _
  | ignore => cases h
  | unset => cases h
  | forward pid =>
      cases h
      refine Footprint.bind (Footprint.log trivial) fun _ => ?_
      refine Footprint.orElse (Footprint.request rfl) fun e => ?_
      split
      · exact Footprint.done _
      · exact Footprint.fail _

/-- Handlers send signals at most, and keep the most bytes that a write takes. -/
theorem ensures_action {handler : Handler} {action : Program Unit OsCall.Reply Unit}
    (h : handler.action? = some action) (limit : Option Nat) :
    Ensures answerAtOnce (fun past _ w => OnlySignals past ∧ w.writeMax = limit) action
      (fun _ past _ w => OnlySignals past ∧ w.writeMax = limit)
      (fun _ past _ w => OnlySignals past ∧ w.writeMax = limit)
      (fun past _ w => OnlySignals past ∧ w.writeMax = limit) := by
  refine (footprint_action h).ensures (fun c hc past s w hI => ⟨?_, ?_⟩)
    (fun _ _ _ _ _ h => h) (fun entry _ past s w hI => ⟨?_, hI.2⟩) fun h => h.elim
  · intro d outcome hmem
    rw [answerAtOnce_inner, List.mem_append, List.mem_singleton] at hmem
    rcases hmem with hpast | hlast
    · exact hI.1 d outcome hpast
    · rw [(Event.called.inj hlast).1]
      exact hc
  · exact (answerAtOnce_writeMax c w).trans hI.2
  · intro d outcome hmem
    rw [List.mem_append, List.mem_singleton] at hmem
    rcases hmem with hpast | hlast
    · exact hI.1 d outcome hpast
    · cases hlast

theorem deliver_kept (waits : List WaitEvent) (w : OsWorld) :
    OnlySignals (deliver waits w).2.2 ∧ (deliver waits w).2.1.writeMax = w.writeMax := by
  have hnil : OnlySignals [] := fun _ _ hmem => nomatch hmem
  induction waits generalizing w with
  | nil => exact ⟨hnil, rfl⟩
  | cons first rest ih =>
      cases first with
      | status pid status => exact ⟨hnil, rfl⟩
      | interrupt =>
          simp only [deliver]
          cases haction : w.handler.action? with
          | none => exact ih _
          | some action =>
              have hrun := ensures_action haction w.writeMax [] () { w with waits := rest }
                ⟨hnil, rfl⟩
              dsimp only
              cases hend : (action.run answerAtOnce () { w with waits := rest }).ending with
              | failed e => rw [hend] at hrun; exact hrun
              | outOfRounds => rw [hend] at hrun; exact hrun
              | returned nothing =>
                  -- the handler is done, and the interrupts behind this one follow in its world
                  rw [hend] at hrun
                  obtain ⟨hevents, hworld⟩ := hrun
                  obtain ⟨hmore, hafter⟩ :=
                    ih (action.run answerAtOnce () { w with waits := rest }).world
                  refine ⟨fun c outcome hmem => ?_, hafter.trans hworld⟩
                  rcases List.mem_append.mp hmem with hfirst | hlater
                  · exact hevents c outcome hfirst
                  · exact hmore c outcome hlater

theorem answerWait_kept (pid : Int) (now : Bool) (w : OsWorld) :
    OnlySignals (answerWait pid now w).inner ∧
      (answerWait pid now w).world.writeMax = w.writeMax := by
  have hkept := deliver_kept w.waits w
  unfold answerWait
  rcases hdeliver : deliver w.waits w with ⟨e | ⟨⟩, after, inner⟩
  · rw [hdeliver] at hkept
    exact hkept
  · -- no interrupt got through, so the wait itself is carried out
    rw [hdeliver] at hkept
    refine ⟨hkept.1, Eq.trans ?_ hkept.2⟩
    exact serve_writeMax (.waitpid pid now) after

theorem answer_inner_kill (c : OsCall) (w : OsWorld) : OnlySignals (answer c w).inner := by
  by_cases hc : c.name = .waitpid
  · cases c with
    | waitpid pid now =>
        simp only [answer]
        cases Fault.hit? w.faults .waitpid with
        | some e => exact fun _ _ hmem => nomatch hmem
        | none => exact (answerWait_kept pid now _).1
    | _ => cases hc
  · rw [answer_inner_of_ne hc]
    exact fun _ _ hmem => nomatch hmem

theorem answer_writeMax (c : OsCall) (w : OsWorld) :
    (answer c w).world.writeMax = w.writeMax := by
  by_cases hc : c.name = .waitpid
  · cases c with
    | waitpid pid now =>
        simp only [answer]
        cases Fault.hit? w.faults .waitpid with
        | some e => rfl
        | none => exact (answerWait_kept pid now _).2
    | _ => cases hc
  · rw [answer_of_ne hc, answerAtOnce_writeMax]

/-! ## What calls preserve -/

section Preserves

variable {P : OsWorld → Prop}

/-- What sending a signal preserves and the waits to come have nothing to do with is preserved by the
interrupts that arrive. -/
theorem deliver_preserves (hwaits : ∀ w waits, P w → P { w with waits := waits })
    (hkill : ∀ c w, c.name = .kill → P w → P (answerAtOnce c w).world) (waits : List WaitEvent)
    {w : OsWorld} (h : P w) : P (deliver waits w).2.1 := by
  induction waits generalizing w with
  | nil => exact h
  | cons first rest ih =>
      cases first with
      | status pid status => exact h
      | interrupt =>
          simp only [deliver]
          cases haction : w.handler.action? with
          | none => exact ih (hwaits w rest h)
          | some action =>
              have hrun : P (action.run answerAtOnce () { w with waits := rest }).world := by
                have hkept : Ensures answerAtOnce (fun _ _ v => P v) action (fun _ _ _ v => P v)
                    (fun _ _ _ v => P v) fun _ _ v => P v :=
                  (footprint_action haction).ensures (fun c hc _ _ v hv => hkill c v hc hv)
                    (fun _ _ _ _ _ hv => hv) (fun _ _ _ _ _ hv => hv) fun _ _ _ _ hv => hv
                exact hkept.always (fun _ _ _ _ hv => hv) (fun _ _ _ _ hv => hv)
                  (fun _ _ _ hv => hv) (hwaits w rest h)
              dsimp only
              cases (action.run answerAtOnce () { w with waits := rest }).ending with
              | failed e => exact hrun
              | outOfRounds => exact hrun
              | returned nothing => exact ih hrun

theorem answerAtOnce_preserves {c : OsCall}
    (hready : ∀ w call, P w → P { w with faults := Fault.advance w.faults call })
    (hserve : ∀ w, P w → P (w.serve c).2) {w : OsWorld} (h : P w) : P (answerAtOnce c w).world := by
  unfold answerAtOnce
  cases Fault.hit? w.faults c.name with
  | some e => exact hready w c.name h
  | none => exact hserve _ (hready w c.name h)

/-- What carrying out a call preserves its answer preserves, if signals do and faults and waits have
nothing to do with it. -/
theorem answer_preserves {c : OsCall} (hwaits : ∀ w waits, P w → P { w with waits := waits })
    (hready : ∀ w call, P w → P { w with faults := Fault.advance w.faults call })
    (hserve : ∀ d w, d.name = c.name ∨ d.name = .kill → P w → P (w.serve d).2) {w : OsWorld}
    (h : P w) : P (answer c w).world := by
  by_cases hc : c.name = .waitpid
  · cases c with
    | waitpid pid now =>
        simp only [answer]
        cases Fault.hit? w.faults .waitpid with
        | some e => exact hready w .waitpid h
        | none =>
            have hkill : ∀ d v, d.name = .kill → P v → P (answerAtOnce d v).world := fun d v hd hv =>
              answerAtOnce_preserves hready (fun u hu => hserve d u (.inr hd) hu) hv
            have hdelivered : P (deliver w.waits (w.ready (.waitpid pid now))).2.1 :=
              deliver_preserves hwaits hkill w.waits (hready w .waitpid h)
            change P (answerWait pid now (w.ready (.waitpid pid now))).world
            unfold answerWait
            change P (deliver (w.ready (.waitpid pid now)).waits _).2.1 at hdelivered
            rcases hcame : deliver (w.ready (.waitpid pid now)).waits (w.ready (.waitpid pid now)) with
              ⟨e | ⟨⟩, after, inner⟩ <;> rw [hcame] at hdelivered
            · exact hdelivered
            · exact hserve (.waitpid pid now) after (.inl rfl) hdelivered
    | _ => cases hc
  · rw [answer_of_ne hc]
    exact answerAtOnce_preserves hready (fun v hv => hserve c v (.inl rfl) hv) h

end Preserves

/-- A write takes something, unless the world never takes anything. -/
theorem answer_writeBytes_pos {fd : Int} {bytes : Bytes} {w : OsWorld} {taken : Nat}
    (hw : w.writeMax ≠ some 0) (hbytes : bytes ≠ [])
    (h : (answer (.writeBytes fd bytes) w).outcome = .ok taken) : 0 < taken := by
  have hlength : 0 < bytes.length := List.length_pos_iff.mpr hbytes
  simp only [answer, answerAtOnce] at h
  cases hhit : Fault.hit? w.faults (OsCall.writeBytes fd bytes).name with
  | some e => rw [hhit] at h; cases h
  | none =>
      rw [hhit] at h
      cases h
      cases hmax : w.writeMax with
      | none => simpa using hlength
      | some most =>
          have hmost : most ≠ 0 := fun hzero => hw (hzero ▸ hmax)
          simp only [Option.getD_some]
          omega

/-! ## Statuses -/

theorem takeStatus_of_nil {w : OsWorld} (h : w.waits = []) :
    w.takeStatus = (.error (.os (some Failure.noChild) "No child processes"), w) := by
  unfold takeStatus
  rw [h]

theorem takeStatus_of_cons {w : OsWorld} {child status : Int} {rest : List WaitEvent}
    (h : w.waits = .status child status :: rest) :
    w.takeStatus = (.ok (child, status), { w with waits := rest }) := by
  unfold takeStatus
  rw [h]

/-- Ending the process does not return. -/
theorem answer_exit_ne_ok (status : Value) (w : OsWorld) (r : Unit) :
    (answer (.exit status) w).outcome ≠ .ok r := by
  simp only [answer, answerAtOnce]
  cases Fault.hit? w.faults (OsCall.exit status).name with
  | some e => nofun
  | none => nofun

end OsWorld

end LineShell
