import LineShell.Proofs.Program.Alike
import LineShell.Proofs.Services.HostRun

/-!
# Standard input that cannot seek

Whether standard input can seek makes no difference to a service but to the reading of a line, which
goes to the place to read from where it can and reads on where it cannot.  So two worlds that differ in
this alone are told apart by seeks on standard input only (`SameButPipe`, `OsWorld.alike_answer`), and a
line is read alike in both of them as long as the source is where the line is to be read from
(`Host.alike_readLine`).
-/

namespace LineShell

open Program OsCall

/-- Whether an event is a seek on a descriptor. -/
def Event.isSeekOn (fd : Int) : Event OsCall.Reply → Bool
  | .called (.seek g _ _) _ => g == fd
  | _ => false

namespace OsWorld

/-- Two worlds that are the same but for whether standard input can seek, and the order in which sources
are kept. -/
structure SameButPipe (w v : OsWorld) : Prop where
  rest : v = { w with stdinPipe := v.stdinPipe, sources := v.sources }
  lookup : ∀ fd, v.sources.lookup fd = w.sources.lookup fd

variable {w v : OsWorld}

theorem sameButPipe_of_lookup {sources : List (Int × OpenSource)} (pipe : Bool)
    (h : ∀ fd, sources.lookup fd = w.sources.lookup fd) :
    SameButPipe w { w with stdinPipe := pipe, sources := sources } := ⟨rfl, h⟩

theorem lookup_setSource (w : OsWorld) (fd g : Int) (source : OpenSource) :
    (w.setSource fd source).sources.lookup g = if g = fd then some source else w.sources.lookup g := by
  have hmoved := moved_setSource w fd source
  split
  · rename_i hg
    rw [hg]
    exact hmoved.here
  · exact hmoved.elsewhere g ‹_›

/-- A call that is no seek on standard input is carried out in the same way. -/
theorem SameButPipe.serve (h : SameButPipe w v) {c : OsCall}
    (hc : ∀ outcome, (Event.called c outcome).isSeekOn standardInput = false) :
    (v.serve c).1 = (w.serve c).1 ∧ SameButPipe (w.serve c).2 (v.serve c).2 := by
  obtain ⟨hrest, hlookup⟩ := h
  revert hrest hlookup
  generalize v.stdinPipe = pipe
  generalize v.sources = sources
  rintro rfl hlookup
  have hset : ∀ fd source, SameButPipe (w.setSource fd source)
      (({ w with stdinPipe := pipe, sources := sources } : OsWorld).setSource fd source) := by
    intro fd source
    refine ⟨rfl, fun g => ?_⟩
    rw [lookup_setSource, lookup_setSource, hlookup]
  cases c with
  | openFile path =>
      simp only [OsWorld.serve]
      split
      · exact ⟨rfl, sameButPipe_of_lookup pipe hlookup⟩
      · cases w.files.lookup path with
        | none => exact ⟨rfl, sameButPipe_of_lookup pipe hlookup⟩
        | some content =>
            refine ⟨rfl, rfl, fun g => ?_⟩
            rw [List.lookup_cons, List.lookup_cons, hlookup]
  | close fd =>
      simp only [OsWorld.serve, hlookup]
      split
      · refine ⟨rfl, rfl, fun g => ?_⟩
        dsimp only
        rw [lookup_filter_key (· != fd), lookup_filter_key (· != fd), hlookup]
      · exact ⟨rfl, sameButPipe_of_lookup pipe hlookup⟩
  | seek fd position whence =>
      -- a seek on standard input was left out, and any other descriptor can seek in both worlds
      have hfd : fd ≠ standardInput := by
        simpa [Event.isSeekOn] using hc (.ok 0)
      have hpiped : ∀ piped : Bool, ¬(fd = 0 ∧ piped = true) := fun _ h => hfd h.1
      simp only [OsWorld.serve, seek, hlookup]
      cases w.sources.lookup fd with
      | none => exact ⟨rfl, sameButPipe_of_lookup pipe hlookup⟩
      | some source =>
          simp only [if_neg (hpiped _)]
          cases whence with
          | current => exact ⟨rfl, hset fd _⟩
          | start =>
              dsimp only
              split
              · exact ⟨rfl, sameButPipe_of_lookup pipe hlookup⟩
              · exact ⟨rfl, hset fd _⟩
  | readBytes fd count =>
      simp only [OsWorld.serve, readBytes, hlookup]
      cases w.sources.lookup fd with
      | none => exact ⟨rfl, sameButPipe_of_lookup pipe hlookup⟩
      | some source => exact ⟨rfl, hset fd _⟩
  | _ =>
      simp only [OsWorld.serve, chdir, takeStatus]
      repeat' split
      all_goals exact ⟨by trivial, sameButPipe_of_lookup pipe hlookup⟩

/-- What is not about sources may be changed on both sides. -/
theorem SameButPipe.with_faults (h : SameButPipe w v) (faults : List (Fault OsCall.Name)) :
    SameButPipe { w with faults := faults } { v with faults := faults } where
  rest := by
    rw [h.rest]
  lookup := h.lookup

theorem SameButPipe.with_waits (h : SameButPipe w v) (waits : List WaitEvent) :
    SameButPipe { w with waits := waits } { v with waits := waits } where
  rest := by
    rw [h.rest]
  lookup := h.lookup

theorem SameButPipe.faults (h : SameButPipe w v) : v.faults = w.faults := by rw [h.rest]

theorem SameButPipe.answerAtOnce (h : SameButPipe w v) {c : OsCall}
    (hc : ∀ outcome, (Event.called c outcome).isSeekOn standardInput = false) :
    (answerAtOnce c w).Alike SameButPipe (answerAtOnce c v) := by
  unfold OsWorld.answerAtOnce
  rw [h.faults]
  dsimp only
  have hready := h.with_faults (Fault.advance w.faults c.name)
  cases Fault.hit? w.faults c.name with
  | some e => exact ⟨rfl, rfl, hready⟩
  | none =>
      obtain ⟨houtcome, hworld⟩ := hready.serve hc
      exact ⟨houtcome, rfl, hworld⟩

/-- Interrupts arrive in the same way. -/
theorem SameButPipe.deliver {waits waits' : List WaitEvent} (hwaits : waits' = waits)
    (h : SameButPipe w v) :
    (deliver waits' v).1 = (deliver waits w).1 ∧
      SameButPipe (deliver waits w).2.1 (deliver waits' v).2.1 ∧
      (deliver waits' v).2.2 = (deliver waits w).2.2 := by
  subst hwaits
  induction waits' generalizing w v with
  | nil => exact ⟨rfl, h, rfl⟩
  | cons first rest ih =>
      cases first with
      | status pid status => exact ⟨rfl, h, rfl⟩
      | interrupt =>
          have hhandler : v.handler.action? (σ := Unit) = w.handler.action? := by rw [h.rest]
          cases haction : w.handler.action? (σ := Unit) with
          | none =>
              simp only [OsWorld.deliver, haction, hhandler.trans haction]
              exact ih (h.with_waits rest)
          | some action =>
              -- a handler sends a signal at most
              have hrun : Outcome.Alike SameButPipe (fun _ => true)
                  (action.run OsWorld.answerAtOnce () { w with waits := rest })
                  (action.run OsWorld.answerAtOnce () { v with waits := rest }) := by
                refine (footprint_action haction).alike (fun c hc w v h => h.answerAtOnce ?_) ()
                  (h.with_waits rest)
                intro outcome
                cases c <;> first | rfl | cases hc
              obtain ⟨hending, -, hworld, hevents⟩ := hrun
              rw [List.filter_eq_self.mpr fun _ _ => rfl, List.filter_eq_self.mpr fun _ _ => rfl]
                at hevents
              simp only [OsWorld.deliver, haction, hhandler.trans haction]
              rw [hending, hevents]
              cases (action.run OsWorld.answerAtOnce () { w with waits := rest }).ending with
              | failed e => exact ⟨rfl, hworld, rfl⟩
              | outOfRounds => exact ⟨rfl, hworld, rfl⟩
              | returned nothing =>
                  obtain ⟨houtcome, hlast, hmore⟩ := ih hworld
                  exact ⟨houtcome, hlast, by dsimp only; rw [hmore]⟩

theorem SameButPipe.answerWait (h : SameButPipe w v) (pid : Int) (now : Bool) :
    (answerWait pid now w).Alike SameButPipe (answerWait pid now v) := by
  have hwaits : v.waits = w.waits := by rw [h.rest]
  obtain ⟨houtcome, hworld, hinner⟩ := h.deliver hwaits
  unfold OsWorld.answerWait
  dsimp only
  rw [houtcome, hinner]
  cases (OsWorld.deliver w.waits w).1 with
  | error e => exact ⟨rfl, rfl, hworld⟩
  | ok nothing =>
      obtain ⟨htaken, hlast⟩ := hworld.serve (c := .waitpid pid now) fun _ => rfl
      exact ⟨htaken, rfl, hlast⟩

/-- A call that is no seek on standard input is answered in the same way. -/
theorem SameButPipe.answer (h : SameButPipe w v) {c : OsCall}
    (hc : ∀ outcome, (Event.called c outcome).isSeekOn standardInput = false) :
    (answer c w).Alike SameButPipe (answer c v) := by
  by_cases hwait : c.name = .waitpid
  · cases c with
    | waitpid pid now =>
        have hready := h.with_faults (Fault.advance w.faults .waitpid)
        simp only [OsWorld.answer, h.faults]
        cases Fault.hit? w.faults .waitpid with
        | some e => exact ⟨rfl, rfl, hready⟩
        | none => exact hready.answerWait pid now
    | _ => cases hwait
  · rw [answer_of_ne hwait, answer_of_ne hwait]
    exact h.answerAtOnce hc

end OsWorld

namespace Host

open OsWorld (answer SameButPipe run_ask)

variable {σ : Type} {w v : OsWorld} {fd : Int} {offset : Nat}

/-- Going to the place where a source is already leaves everything as it is. -/
theorem run_rewind (s : σ) (hfaults : w.faults = [])
    (hplace : ∀ source, w.sources.lookup fd = some source → source.position = offset) :
    ∃ v events, (rewind fd offset).run answer s w = ⟨.returned (), s, v, events⟩ ∧
      v = { w with sources := v.sources } ∧ (∀ g, v.sources.lookup g = w.sources.lookup g) ∧
      ∀ e ∈ events, e.isSeekOn fd = true := by
  have hask := run_ask (c := .seek fd 0 .current) s hfaults rfl
  unfold rewind isSeekable
  rw [run_bind, bind_eq_bind, run_bind, run_attempt, hask]
  cases hsource : w.sources.lookup fd with
  | none =>
      have hserve : w.serve (.seek fd 0 .current) = (.error OsWorld.badDescriptor, w) := by
        simp only [OsWorld.serve, OsWorld.seek, hsource]
      rw [hserve]
      refine ⟨w, [.called (.seek fd 0 .current) (.error OsWorld.badDescriptor)], rfl, rfl,
        fun _ => rfl, ?_⟩
      simp [Event.isSeekOn]
  | some source =>
      by_cases hpipe : fd = 0 ∧ w.stdinPipe
      · have hserve : w.serve (.seek fd 0 .current) = (.error (.os (some 29) "Illegal seek"), w) := by
          simp only [OsWorld.serve, OsWorld.seek, hsource, if_pos hpipe]
        rw [hserve]
        -- a pipe says so at once and is left alone
        refine ⟨w, [.called (.seek fd 0 .current) (.error (.os (some 29) "Illegal seek"))], rfl, rfl,
          fun _ => rfl, ?_⟩
        simp [Event.isSeekOn]
      · -- the source is found where it is, and then sent there
        have hserve : w.serve (.seek fd 0 .current) =
            (.ok source.position, w.setSource fd source) := by
          simp only [OsWorld.serve, OsWorld.seek, hsource, if_neg hpipe, Int.add_zero]
        have hagain : (w.setSource fd source).serve (.seek fd offset .start) =
            (.ok (offset : Int), (w.setSource fd source).setSource fd source) := by
          have hsame : source = { source with position := (offset : Int) } := by
            rw [← hplace source hsource]
          have hfree : ¬(fd = 0 ∧ (w.setSource fd source).stdinPipe) := hpipe
          simp only [OsWorld.serve, OsWorld.seek, (OsWorld.moved_setSource w fd source).here]
          rw [if_neg hfree, if_neg (Int.not_lt.mpr (Int.natCast_nonneg offset)), ← hsame]
        have hseek := run_ask (c := .seek fd offset .start) (w := w.setSource fd source) s hfaults rfl
        rw [hagain] at hseek
        simp only [hserve, endingOf, Ending.attempt, Outcome.andThen, run_done, if_true, run_bind, hseek,
          pure_eq_done]
        refine ⟨_, _, rfl, rfl, fun g => ?_, ?_⟩
        · rw [OsWorld.lookup_setSource, OsWorld.lookup_setSource]
          split
          · rename_i hg
            rw [hg, hsource]
          · rfl
        · simp [Event.isSeekOn]

/-- Calls that are no seeks on standard input. -/
def unsought : Scope σ OsCall where
  calls c := ∀ outcome, (Event.called c outcome).isSeekOn standardInput = false
  changes _ _ := False
  notes _ := True
  stops := True

/-- Calls of a kind that is no seek are no seeks on standard input. -/
theorem footprint_unsought {α : Type} {p : Program σ OsCall.Reply α} {names : List OsCall.Name}
    {stops : Bool} (hp : p.Footprint (scope names stops)) (hnames : .seek ∉ names) :
    p.Footprint unsought := by
  refine hp.mono ⟨fun c hc outcome => ?_, fun _ _ h => h, fun _ h => h, fun _ => trivial⟩
  cases c with
  | seek => exact absurd (List.contains_iff_mem.mp hc) hnames
  | _ => rfl

theorem footprint_rewind_unsought (hfd : fd ≠ standardInput) (place : Int) :
    (rewind fd place : Program σ OsCall.Reply Unit).Footprint unsought := by
  have hseek : ∀ position whence, (unsought : Scope σ OsCall).calls (.seek fd position whence) :=
    fun _ _ _ => beq_false_of_ne hfd
  refine Footprint.bind (Footprint.bind (Footprint.request (hseek _ _)).attempt fun found => ?_)
    fun seekable => ?_
  · rcases found with e | position
    · cases e with
      | os errno text => exact Footprint.done _
      | _ => exact Footprint.fail _
    · exact Footprint.done _
  · split
    · exact Footprint.bind (Footprint.request (hseek _ _)) fun _ => Footprint.done _
    · exact Footprint.done _

/-- What makes no seek on standard input runs in the same way where standard input can seek and where it
cannot. -/
theorem alike_of_unsought {α : Type} {p : Program σ OsCall.Reply α} {keep : Event OsCall.Reply → Bool}
    (hp : p.Footprint unsought) (h : SameButPipe w v) (s : σ) :
    Outcome.Alike SameButPipe keep (p.run answer s w) (p.run answer s v) :=
  hp.alike (fun _ hc _ _ h => h.answer hc) s h

/-- Going to the place to read from makes no difference where the source is there already. -/
theorem alike_rewind (h : SameButPipe w v) (s : σ) (hfaults : w.faults = [])
    (hplace : ∀ source, w.sources.lookup fd = some source → source.position = offset) :
    Outcome.Alike SameButPipe (fun e => !e.isSeekOn standardInput) ((rewind fd offset).run answer s w)
      ((rewind fd offset).run answer s v) := by
  by_cases hfd : fd = standardInput
  · subst hfd
    have hplace' : ∀ source, v.sources.lookup standardInput = some source →
        source.position = offset := by
      rw [h.lookup]
      exact hplace
    obtain ⟨w', events, hrun, hrest, hlookup, hevents⟩ := run_rewind s hfaults hplace
    obtain ⟨v', events', hrun', hrest', hlookup', hevents'⟩ :=
      run_rewind s (h.faults.trans hfaults) hplace'
    rw [hrun, hrun']
    refine ⟨rfl, rfl, ⟨?_, fun g => ?_⟩, ?_⟩
    · rw [hrest', hrest, h.rest]
    · rw [hlookup', hlookup, h.lookup]
    · dsimp only
      rw [List.filter_eq_nil_iff.mpr, List.filter_eq_nil_iff.mpr]
      · exact fun e he => by simp [hevents e he]
      · exact fun e he => by simp [hevents' e he]
  · exact alike_of_unsought (footprint_rewind_unsought hfd offset) h s

/-- A line is read in the same way where the source is at the place to read from. -/
theorem alike_readLine (h : SameButPipe w v) (s : σ) (rounds : Nat) (capacity : Value)
    (hfaults : w.faults = [])
    (hplace : ∀ source, w.sources.lookup fd = some source → source.position = offset) :
    Outcome.Alike SameButPipe (fun e => !e.isSeekOn standardInput)
      ((readLine rounds fd offset capacity).run answer s w)
      ((readLine rounds fd offset capacity).run answer s v) := by
  rw [readLine_eq]
  refine (alike_rewind h s hfaults hplace).bind fun _ t w' v' h => ?_
  refine alike_of_unsought (Footprint.bind (Footprint.ofExcept _) fun count => ?_) h t
  have hread : (readUpTo fd count : Program σ OsCall.Reply Bytes).Footprint (scope [.readBytes]) :=
    footprint_readUpTo rfl fd count
  exact footprint_unsought hread (by decide)

/-- All other services are carried out in the same way. -/
theorem alike_carryOut (h : SameButPipe w v) (s : σ) (spare : Nat) {c : ServiceCall}
    (hc : c.name ≠ .readLine) {keep : Event OsCall.Reply → Bool} :
    Outcome.Alike SameButPipe keep ((carryOut spare c).run answer s w)
      ((carryOut spare c).run answer s v) := by
  refine alike_of_unsought (footprint_unsought (footprint_carryOut spare c) ?_) h s
  revert hc
  generalize c.name = name
  cases name <;> decide

end Host

end LineShell
