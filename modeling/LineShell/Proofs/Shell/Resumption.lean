import LineShell.Proofs.Program.Agreement
import LineShell.Proofs.Shell.HostAgreement
import LineShell.Proofs.Shell.Termination

/-!
# Resuming at the prompt

An interrupt at the prompt only starts a new line: the read is made once more, behind a newline and
another prompt, at the same offset and with the same buffer.  So a run with interrupts at the prompt is
the run without them, in which each of the interrupts leaves three more events behind (`Resumed`).

The two runs are kept side by side.  They are `Apart` by what is still to be interrupted and by those
events, and stay so over everything but a read at the prompt (`agrees_of_footprint`).  There the run
that is interrupted goes round the loop on its own, while the other one waits in front of its read
(`turn_interrupted`), which is why the two loops have different numbers of rounds left
(`rejoins_turn`).  A round that was interrupted has used up a fault, so the rounds suffice.

The main result is `Shell.run_resumed`.
-/

namespace LineShell

open Program LineShell.Action
open Machine (memory)

/-- Whether an event is a call that was interrupted. -/
def Event.Interrupted : Event ServiceCall.Reply → Prop
  | .called _ (.error .interrupt) => True
  | _ => False

theorem Event.interrupted_iff {c : ServiceCall} {outcome : Except Failure c.Reply} :
    (Event.called c outcome).Interrupted ↔ outcome = .error .interrupt := by
  refine ⟨fun h => ?_, fun h => by rw [h]; trivial⟩
  cases outcome with
  | ok r => exact h.elim
  | error e =>
      cases e with
      | interrupt => rfl
      | _ => exact h.elim

/-- The events of a run with interrupts at the prompt, and those that are left without them: for each
interrupt the read that it hit, a newline and the repeated prompt are left out. -/
inductive Resumed : List (Event ServiceCall.Reply) → List (Event ServiceCall.Reply) → Prop
  | start : Resumed [] []
  | alike {past past' : List (Event ServiceCall.Reply)} {e : Event ServiceCall.Reply} :
      ¬e.Interrupted → Resumed past past' → Resumed (past ++ [e]) (past' ++ [e])
  | again {past past' : List (Event ServiceCall.Reply)} {prompt : Text} {offset : Int} {size : Value} :
      Resumed (past ++ [.called (.write standardOutput prompt) (.ok ())]) past' →
        Resumed (past ++ [.called (.write standardOutput prompt) (.ok ()),
          .called (.readLine standardInput offset size) (.error .interrupt),
          .called (.write standardOutput "\n") (.ok ()),
          .called (.write standardOutput prompt) (.ok ())]) past'

/-! ## Worlds in which reading is interrupted -/

namespace InMemory

/-- Nothing goes wrong in a world but that reads are interrupted. -/
def Impatient (w : InMemory) : Prop := ∀ f ∈ w.faults, f.call = .readLine ∧ f.failure = .interrupt

/-- The world without its faults. -/
def calm (w : InMemory) : InMemory := { w with faults := [] }

variable {w : InMemory} {c : ServiceCall}

theorem serve_calm (c : ServiceCall) (w : InMemory) :
    w.calm.serve c = ((w.serve c).1, (w.serve c).2.calm) := by
  unfold calm
  cases c <;> simp only [serve] <;> (repeat' split) <;> rfl

theorem Impatient.ready (h : w.Impatient) (call : ServiceCall.Name) : (w.ready call).Impatient := by
  intro f hf
  obtain ⟨g, hg, hcall, hfailure⟩ := Fault.exists_of_mem_advance hf
  rw [← hcall, ← hfailure]
  exact h g hg

theorem Impatient.answer (h : w.Impatient) (c : ServiceCall) : (answer c w).world.Impatient := by
  refine answer_keeps (P := Impatient) (fun v hv f hf => ?_) (fun hw => hw.ready c.name) h
  rw [serve_faults] at hf
  exact hv f hf

/-- A call that is not interrupted is answered as it is without faults. -/
theorem Impatient.answer_calm (h : w.Impatient)
    (hc : (InMemory.answer c w).outcome ≠ .error .interrupt) :
    InMemory.answer c w.calm =
      ⟨(InMemory.answer c w).outcome, (InMemory.answer c w).world.calm, []⟩ := by
  cases hhit : Fault.hit? w.faults c.name with
  | some e =>
      obtain ⟨f, hf, -, rfl⟩ := Fault.exists_of_hit? hhit
      rw [answer_hit hhit, (h f hf).2] at hc
      exact absurd rfl hc
  | none =>
      rw [answer_miss hhit, answer_of_faults_nil rfl]
      have hready := serve_calm c (w.ready c.name)
      change w.calm.serve c = _ at hready
      rw [hready]

/-- Only reads are interrupted. -/
theorem Impatient.answer_other (h : w.Impatient) (hc : c.name ≠ .readLine) :
    InMemory.answer c w = ⟨(w.serve c).1, (w.serve c).2, []⟩ := by
  have hunhit : ∀ f ∈ w.faults, f.call ≠ c.name := by
    intro f hf heq
    rw [(h f hf).1] at heq
    exact hc heq.symm
  have hready : w.ready c.name = w := by
    unfold InMemory.ready
    rw [Fault.advance_of_forall_ne hunhit]
  rw [answer_miss (Fault.hit?_of_forall_ne hunhit), hready]

end InMemory

/-! ## Apart -/

/-- A run with interrupts at the prompt and the run without them have come to the same. -/
structure Apart (l r : memory.Moment) : Prop where
  state : r.state = l.state
  world : r.world = l.world.calm
  impatient : l.world.Impatient
  nextFd : standardInput < l.world.nextFd
  past : Resumed l.past r.past

/-- A script was being read when an interrupt came. -/
def ScriptInterrupted : Event ServiceCall.Reply → Prop
  | .called (.readLine fd _ _) (.error .interrupt) => fd ≠ standardInput
  | _ => False

/-- Reading a script was interrupted. -/
def Astray (past : List (Event ServiceCall.Reply)) : Prop := ∃ e ∈ past, ScriptInterrupted e

theorem lasting_astray : Lasting Astray := lasting_exists_mem ScriptInterrupted

theorem Machine.after_ask (c : ServiceCall) (m : memory.Moment) : memory.after (ask c) m =
    ⟨m.past ++ [.called c (InMemory.answer c m.world).outcome], m.state,
      (InMemory.answer c m.world).world⟩ := by
  have hafter := Machine.after_request c m
  rw [InMemory.answer_inner] at hafter
  exact hafter

/-- Runs that are apart when each of them has made a call that was not interrupted. -/
theorem Apart.answered {l r : memory.Moment} (h : Apart l r) {c : ServiceCall}
    (hc : (InMemory.answer c l.world).outcome ≠ .error .interrupt) :
    (InMemory.answer c l.world).outcome = (InMemory.answer c r.world).outcome ∧
      Apart (memory.after (ask c) l) (memory.after (ask c) r) := by
  have hcalm := h.impatient.answer_calm hc
  rw [← h.world] at hcalm
  rw [Machine.after_ask, Machine.after_ask, hcalm]
  refine ⟨rfl, h.state, rfl, h.impatient.answer c, ?_, ?_⟩
  · exact Int.lt_of_lt_of_le h.nextFd (InMemory.nextFd_le_answer c l.world)
  · exact .alike (fun hinterrupted => hc (Event.interrupted_iff.mp hinterrupted)) h.past

/-- Started where `pre` holds, the two return the same or fail in the same way, and are apart then. -/
abbrev Rejoins {α : Type} (pre : Relation memory memory) (p q : Action α) : Prop :=
  Relates memory memory Astray pre p q (fun a b l r => a = b ∧ Apart l r)
    (fun e e' l r => e = e' ∧ Apart l r) Apart

/-! ## Parts that run alike -/

/-- Two runs that are apart agree on a part of the shell. -/
abbrev Alike {α : Type} (p : Action α) : Prop := Agrees memory memory Astray Apart p

theorem Apart.logged {l r : memory.Moment} (h : Apart l r) (entry : Log.Entry) :
    Apart { l with past := l.past ++ [.logged entry] } { r with past := r.past ++ [.logged entry] } :=
  ⟨h.state, h.world, h.impatient, h.nextFd, .alike id h.past⟩

/-- Whatever is called but a read at the prompt, if it is interrupted a script was being read. -/
theorem alike_ask {c : ServiceCall} (hc : ∀ offset size, c ≠ .readLine standardInput offset size) :
    Alike (ask c) := by
  refine Agrees.request fun l r h => ?_
  by_cases hinterrupt : (InMemory.answer c l.world).outcome = .error .interrupt
  · left
    change Astray (memory.after (ask c) l).past
    rw [Machine.after_ask, hinterrupt]
    refine ⟨_, List.mem_append_right _ List.mem_cons_self, ?_⟩
    by_cases hname : c.name = .readLine
    · cases c with
      | readLine fd offset size =>
          intro hfd
          rw [hfd] at hc
          exact hc offset size rfl
      | _ => cases hname
    · rw [h.impatient.answer_other hname] at hinterrupt
      exact absurd hinterrupt (InMemory.serve_ne_interrupt c _)
  · exact .inr (h.answered hinterrupt)

theorem alike_of_footprint {α : Type} {p : Action α} {names : List ServiceCall.Name}
    {parts : List Session.Part} {stops : Bool} (hp : p.Footprint (Shell.scope names parts stops))
    (hnames : names.contains .readLine = false) : Alike p := by
  refine Agrees.of_footprint lasting_astray hp (fun c hc => alike_ask ?_) (fun c m => ?_)
    (fun l r h => h.state) (fun l r t _ h => ⟨rfl, h.world, h.impatient, h.nextFd, h.past⟩)
    fun entry _ l r h => h.logged entry
  · rintro offset size rfl
    exact Shell.name_ne_of_mem hc hnames rfl
  · change (memory.after (ask c) m).state = m.state
    rw [Machine.after_ask]

theorem alike_state_bind {α : Type} {f : Session → Action α} (hf : ∀ s, Alike (f s)) :
    Alike (state.bind f) := by
  refine Relates.state_bind fun s t l r ⟨⟨hs, ht⟩, h⟩ => ?_
  obtain rfl : t = s := by rw [← hs, ← ht, h.state]
  exact hf t l r h

namespace Shell

variable (shell : Shell)

theorem alike_readLine {fd : Int} (hfd : fd ≠ standardInput) (interactive : Bool) (offset : Int) :
    Alike (readLine interactive fd offset) := by
  rw [readLine_eq]
  refine alike_state_bind fun s => ?_
  have hread : Alike (ask (.readLine fd offset s.line.size)) := by
    refine alike_ask fun other size heq => ?_
    cases heq
    exact hfd rfl
  exact Agrees.bind lasting_astray hread.attempt fun outcome =>
    alike_of_footprint (footprint_readingOf interactive fd outcome) rfl

theorem alike_runLine (interactive : Bool) (chunk : Bytes) :
    Alike (shell.runLine (Builtin.dispatch shell.home) interactive chunk) :=
  alike_of_footprint (shell.footprint_command interactive chunk) rfl

theorem alike_runFrom {fd : Int} (hfd : fd ≠ standardInput) (interactive : Bool) (rounds : Nat)
    (offset : Int) :
    Alike (shell.runFrom (Builtin.dispatch shell.home) fd interactive rounds offset) := by
  induction rounds generalizing offset with
  | zero => exact Relates.outOfRounds fun _ _ h => h
  | succ rounds ih =>
      have hannounce : Alike (shell.announce interactive) :=
        alike_of_footprint (shell.footprint_announce interactive) rfl
      refine Agrees.bind lasting_astray hannounce fun _ => ?_
      refine Agrees.bind lasting_astray (alike_readLine hfd interactive offset) fun reading => ?_
      cases reading with
      | exhausted => exact Agrees.done _
      | interrupted => exact ih offset
      | line chunk =>
          refine Agrees.bind lasting_astray (shell.alike_runLine interactive chunk) fun next => ?_
          cases next with
          | leaveAll => exact Agrees.done _
          | leaveSource => exact Agrees.done _
          | goOn => exact ih _

/-- A script that was opened is not standard input. -/
theorem relates_openScript (path : Text) :
    Relates memory memory Astray Apart (openScript path) (openScript path)
      (fun opened opened' l r => (opened = opened' ∧ ∀ fd, opened = some fd → fd ≠ standardInput) ∧
        Apart l r) (fun e e' l r => e = e' ∧ Apart l r) Apart := by
  -- a script never gets the descriptor of standard input
  have hopen : Ensures InMemory.answer (fun _ (_ : Session) w => standardInput < w.nextFd)
      (ask (.openReadOnly path)) (fun (fd : Int) _ _ _ => fd ≠ standardInput) (fun _ _ _ _ => True)
      Never := by
    refine Ensures.request_alone (InMemory.answer_inner _) (fun past s w fd hw hfd => ?_)
      fun _ _ _ _ _ _ => trivial
    rw [InMemory.answer_openReadOnly_ok hfd]
    exact (Int.ne_of_lt hw).symm
  have hask : Alike (ask (.openReadOnly path)) := alike_ask nofun
  have hboth : Relates memory memory Astray Apart (ask (.openReadOnly path)) (ask (.openReadOnly path))
      (fun fd fd' l r => fd ≠ standardInput ∧ fd = fd' ∧ Apart l r)
      (fun e e' l r => e = e' ∧ Apart l r) Apart :=
    (Relates.and_ensures_returns hask hopen).weaken fun _ _ h => ⟨h.nextFd, h⟩
  refine Relates.attempt_bind lasting_astray hboth (fun fd fd' => ?_) fun e e' => ?_
  · refine Relates.and_pre fun hne => Relates.and_pre fun hsame => Relates.done fun _ _ h => ?_
    subst hsame
    refine ⟨⟨rfl, fun other heq => ?_⟩, h⟩
    cases heq
    exact hne
  · refine Relates.and_pre fun hsame => ?_
    subst hsame
    dsimp only
    cases e.reportOf? .fileNotFound with
    | none => exact Agrees.fail e
    | some report =>
        refine Relates.bind lasting_astray (alike_of_footprint (@footprint_say [] [] false _ _ _) rfl)
          fun _ _ => Relates.done fun _ _ h => ⟨⟨rfl, nofun⟩, h.2⟩

theorem alike_runScript (rounds : Nat) (script : Text) : Alike (shell.runScript rounds script) := by
  refine alike_state_bind fun s => ?_
  refine Agrees.bind lasting_astray (alike_ask (by exact nofun)) fun searchPath => ?_
  refine Agrees.bind lasting_astray
    (alike_of_footprint (footprint_resolve script s.cwd searchPath) rfl) fun path => ?_
  refine Relates.bind lasting_astray (relates_openScript path) fun opened opened' => ?_
  refine Relates.and_pre fun ⟨hsame, hne⟩ => ?_
  subst hsame
  cases opened with
  | none => exact Agrees.done true
  | some fd =>
      refine Agrees.bind lasting_astray (alike_of_footprint (@footprint_say [] [] false _ _ _) rfl)
        fun _ => ?_
      refine Agrees.andFinally lasting_astray (shell.alike_runFrom (hne fd rfl) false rounds 0) ?_
      exact alike_ask nofun

theorem alike_runScripts (rounds : Nat) (scripts : List Text) :
    Alike (shell.runScripts rounds scripts) := by
  induction scripts with
  | nil => exact Agrees.done true
  | cons script rest ih =>
      refine Agrees.bind lasting_astray (shell.alike_runScript rounds script) fun goOn => ?_
      cases goOn with
      | true => exact ih
      | false => exact Agrees.done false

/-! ## Round the loop -/

section Prompt

variable {shell} {suffix : Text} {s : Session} {w : InMemory} {m : memory.Moment}

theorem run_print (hw : w.Impatient) (text : Text) (s : Session) :
    (print text).run InMemory.answer s w =
      ⟨.returned (), s, w, [.called (.write standardOutput text) (.ok ())]⟩ := by
  rw [print, ask, run_request, hw.answer_other (by rintro ⟨⟩)]
  rfl

theorem run_announce (hsuffix : shell.promptSuffix = .text suffix) (hw : m.world.Impatient) :
    memory.run (shell.announce true) m = ⟨.returned (), m.state, m.world,
      [.called (.write standardOutput (m.state.cwd ++ suffix)) (.ok ())]⟩ := by
  rw [Machine.run_memory, ← run_print hw]
  simp only [announce, prompt, hsuffix]
  rfl

/-- A read that is interrupted at the prompt shows a newline. -/
theorem run_readLine_interrupted (hw : m.world.Impatient) {e : Failure}
    (hhit : Fault.hit? m.world.faults .readLine = some e) (offset : Int) :
    memory.run (readLine true standardInput offset) m =
      ⟨.returned .interrupted, m.state, m.world.ready .readLine,
        [.called (.readLine standardInput offset m.state.line.size) (.error .interrupt),
          .called (.write standardOutput "\n") (.ok ())]⟩ := by
  obtain ⟨f, hf, -, rfl⟩ := Fault.exists_of_hit? hhit
  have hread : InMemory.answer (.readLine standardInput offset m.state.line.size) m.world =
      ⟨.error .interrupt, m.world.ready .readLine, []⟩ := by
    rw [InMemory.answer_hit (e := f.failure) hhit, (hw f hf).2]
    rfl
  have hnewline : (readingOf true standardInput (.error .interrupt)).run InMemory.answer m.state
      (m.world.ready .readLine) = ⟨.returned .interrupted, m.state, m.world.ready .readLine,
        [.called (.write standardOutput "\n") (.ok ())]⟩ := by
    change ((print "\n").bind fun _ => done Reading.interrupted).run InMemory.answer _ _ = _
    rw [run_bind, run_print (hw.ready _)]
    rfl
  rw [Machine.run_memory, readLine_eq]
  change ((ask (.readLine standardInput offset m.state.line.size)).attempt.bind
    (readingOf true standardInput)).run InMemory.answer m.state m.world = _
  rw [run_bind, run_attempt, ask, run_request, hread]
  simp only [Outcome.andThen, Ending.attempt, endingOf]
  rw [hnewline]
  rfl

end Prompt

/-- What a round does with what reading a line came to. -/
def goOnWith (rounds : Nat) (offset : Int) : Reading → Action Bool
  | .exhausted => done true
  | .interrupted => shell.runFrom (Builtin.dispatch shell.home) standardInput true rounds offset
  | .line chunk =>
    (shell.runLine (Builtin.dispatch shell.home) true chunk).bind fun
      | .leaveAll => done false
      | .leaveSource => done true
      | .goOn =>
        shell.runFrom (Builtin.dispatch shell.home) standardInput true rounds (offset + chunk.length)

/-- A round of the loop behind the prompt. -/
def turn (rounds : Nat) (offset : Int) : Action Bool :=
  (readLine true standardInput offset).bind (shell.goOnWith rounds offset)

theorem runFrom_eq_turn (rounds : Nat) (offset : Int) :
    shell.runFrom (Builtin.dispatch shell.home) standardInput true (rounds + 1) offset =
      (shell.announce true).bind fun _ => shell.turn rounds offset := rfl

/-- The moment behind a read that was interrupted, when the prompt has been shown again. -/
def promptedAgain (suffix : Text) (offset : Int) (m : memory.Moment) : memory.Moment :=
  ⟨m.past ++ [
    .called (.readLine standardInput offset m.state.line.size) (.error .interrupt),
    .called (.write standardOutput "\n") (.ok ()),
    .called (.write standardOutput (m.state.cwd ++ suffix)) (.ok ())], m.state,
    m.world.ready .readLine⟩

/-- An interrupt is followed by another turn, with a fault and a round less. -/
theorem turn_interrupted {suffix : Text} {m : memory.Moment}
    (hsuffix : shell.promptSuffix = .text suffix) (hw : m.world.Impatient) {e : Failure}
    (hhit : Fault.hit? m.world.faults .readLine = some e) (rounds : Nat) (offset : Int) :
    let later := promptedAgain suffix offset m
    memory.ending (shell.turn (rounds + 1) offset) m = memory.ending (shell.turn rounds offset) later ∧
      memory.after (shell.turn (rounds + 1) offset) m =
        memory.after (shell.turn rounds offset) later := by
  intro later
  let between : memory.Moment := ⟨m.past ++ [
    .called (.readLine standardInput offset m.state.line.size) (.error .interrupt),
    .called (.write standardOutput "\n") (.ok ())], m.state, m.world.ready .readLine⟩
  have hlater : (⟨between.past ++ [.called (.write standardOutput (m.state.cwd ++ suffix)) (.ok ())],
      between.state, between.world⟩ : memory.Moment) = later := by
    simp only [between, later, promptedAgain, List.append_assoc, List.cons_append, List.nil_append]
  have hread := Machine.bind_of_run (f := shell.goOnWith (rounds + 1) offset)
    (run_readLine_interrupted hw hhit offset)
  have hshown := Machine.bind_of_run (f := fun _ => shell.turn rounds offset)
    (run_announce (m := between) hsuffix (hw.ready _))
  rw [← runFrom_eq_turn, hlater] at hshown
  exact ⟨hread.1.trans hshown.1, hread.2.trans hshown.2⟩

/-- Besides being apart, both runs have just shown the prompt. -/
structure Prompted (l r : memory.Moment) : Prop where
  apart : Apart l r
  shown : ∃ past suffix, shell.promptSuffix = .text suffix ∧
    l.past = past ++ [.called (.write standardOutput (l.state.cwd ++ suffix)) (.ok ())]

/-- Showing the prompt once more behind an interrupt is what `Resumed` leaves out. -/
theorem Prompted.again {suffix : Text} {past : List (Event ServiceCall.Reply)} {l r : memory.Moment}
    (happart : Apart l r) (hsuffix : shell.promptSuffix = .text suffix)
    (hpast : l.past = past ++ [.called (.write standardOutput (l.state.cwd ++ suffix)) (.ok ())])
    (offset : Int) : shell.Prompted (promptedAgain suffix offset l) r := by
  refine ⟨⟨happart.state, happart.world, happart.impatient.ready _, happart.nextFd, ?_⟩, ?_⟩
  · have hresumed := happart.past
    rw [hpast] at hresumed
    unfold promptedAgain
    dsimp only
    rw [hpast, List.append_assoc]
    exact hresumed.again
  · refine ⟨l.past ++ [
      .called (.readLine standardInput offset l.state.line.size) (.error .interrupt),
      .called (.write standardOutput "\n") (.ok ())], suffix, hsuffix, ?_⟩
    unfold promptedAgain
    dsimp only
    rw [List.append_assoc]
    rfl

/-- Besides, the run with interrupts has rounds enough. -/
def Ample (bound : Nat) (offset : Int) (left : Nat) (A : Relation memory memory) :
    Relation memory memory :=
  fun l r => Left bound standardInput offset left l.past l.state l.world ∧ A l r

theorem relates_announce :
    Relates memory memory Astray Apart (shell.announce true) (shell.announce true)
      (fun _ _ => shell.Prompted) (fun e e' l r => e = e' ∧ Apart l r) Apart := by
  refine Relates.state_bind fun s t l r ⟨⟨hs, ht⟩, h⟩ => ?_
  obtain rfl : t = s := by rw [← hs, ← ht, h.state]
  cases hsuffix : shell.promptSuffix with
  | text suffix =>
      have hprint : Relates memory memory Astray (fun l r => l.state = t ∧ Apart l r)
          (print (t.cwd ++ suffix)) (print (t.cwd ++ suffix))
          (fun a b l r => a = b ∧ shell.Prompted l r) (fun e e' l r => e = e' ∧ shell.Prompted l r)
          Apart := by
        refine Relates.request fun l r ⟨hl, h⟩ => .inr ?_
        have hwrite := h.impatient.answer_other (c := .write standardOutput (t.cwd ++ suffix)) nofun
        obtain ⟨hsame, happart⟩ := h.answered (c := .write standardOutput (t.cwd ++ suffix)) <| by
          rw [hwrite]
          exact nofun
        refine ⟨hsame, happart, l.past, suffix, hsuffix, ?_⟩
        change (memory.after (ask (.write standardOutput (t.cwd ++ suffix))) l).past = _ ++ [.called
          (.write _ ((memory.after (ask (.write standardOutput (t.cwd ++ suffix))) l).state.cwd ++ _)) _]
        rw [Machine.after_ask, hwrite, hl]
        rfl
      exact hprint.mono (fun _ _ h => h) (fun _ _ _ _ h => h.2) (fun _ _ _ _ h => ⟨h.1, h.2.apart⟩)
        (fun _ _ h => h) l r ⟨hs, h⟩
  | _ => exact Agrees.fail .wrongKind l r h

/-- A read that is not interrupted comes to the same in both runs. -/
theorem rejoins_readLine_calm (offset : Int) :
    Rejoins (fun l r => Fault.hit? l.world.faults .readLine = none ∧ Apart l r)
      (readLine true standardInput offset) (readLine true standardInput offset) := by
  rw [readLine_eq]
  refine Relates.state_bind fun s t l r ⟨⟨hs, ht⟩, hcalm, h⟩ => ?_
  obtain rfl : t = s := by rw [← hs, ← ht, h.state]
  have hread : Rejoins (fun l r => Fault.hit? l.world.faults .readLine = none ∧ Apart l r)
      (ask (.readLine standardInput offset t.line.size))
      (ask (.readLine standardInput offset t.line.size)) := by
    refine Relates.request fun l r ⟨hcalm, h⟩ => .inr (h.answered ?_)
    rw [InMemory.answer_miss (c := .readLine standardInput offset t.line.size) hcalm]
    exact InMemory.serve_ne_interrupt _ _
  have hbehind : ∀ outcome, Alike (readingOf true standardInput outcome) := fun outcome =>
    alike_of_footprint (footprint_readingOf true standardInput outcome) rfl
  refine Relates.attempt_bind lasting_astray hread (fun line line' => ?_) (fun e e' => ?_) l r ⟨hcalm, h⟩
  · refine Relates.and_pre fun hsame => ?_
    subst hsame
    exact hbehind (.ok line)
  · refine Relates.and_pre fun hsame => ?_
    subst hsame
    exact hbehind (.error e)

section Rounds

variable {shell} {bound fewer more : Nat} {offset : Int}

/-- What both runs have come to when a line was read. -/
def Behind (bound fewer : Nat) (offset : Int) : Reading → Relation memory memory
  | .line chunk => Ample bound (offset + chunk.length) fewer Apart
  | .interrupted => Ample bound offset fewer Apart
  | .exhausted => Apart

/-- A turn in which the read is not interrupted is taken by both runs. -/
theorem rejoins_turn_calm (hoffset : 0 ≤ offset)
    (hnext : ∀ offset, 0 ≤ offset → Rejoins (Ample bound offset fewer Apart)
      (shell.runFrom (Builtin.dispatch shell.home) standardInput true fewer offset)
      (shell.runFrom (Builtin.dispatch shell.home) standardInput true more offset)) :
    Rejoins
      (fun l r => Fault.hit? l.world.faults .readLine = none ∧ Ample bound offset (fewer + 1) Apart l r)
      (shell.turn fewer offset) (shell.turn more offset) := by
  -- no fault hits this read, so both sides read the same
  have hread : Relates memory memory Astray
      (fun l r => Fault.hit? l.world.faults .readLine = none ∧ Ample bound offset (fewer + 1) Apart l r)
      (readLine true standardInput offset) (readLine true standardInput offset)
      (fun reading reading' l r => reading = reading' ∧ Behind bound fewer offset reading l r)
      (fun e e' l r => e = e' ∧ Apart l r) Apart := by
    have hensured := @ensures_reading standardInput offset bound fewer true hoffset
    have hboth := (rejoins_readLine_calm offset).and_ensures_returns hensured
    refine (hboth.weaken fun _ _ h => ⟨h.2.1, h.1, h.2.2⟩).mono_returns fun reading _ l r h => ?_
    refine ⟨h.2.1, ?_⟩
    cases reading with
    | line chunk => exact ⟨h.1, h.2.2⟩
    | interrupted => exact ⟨h.1, h.2.2⟩
    | exhausted => exact h.2.2
  refine Relates.bind lasting_astray hread fun reading reading' => Relates.and_pre fun hsame => ?_
  subst hsame
  cases reading with
  | exhausted => exact Agrees.done true
  | interrupted => exact hnext offset hoffset
  | line chunk =>
      have hnonneg : 0 ≤ offset + chunk.length := by omega
      have hleft := @ensures_left standardInput (offset + chunk.length) bound fewer _ _ _ _
        (shell.footprint_runLine true chunk) rfl
      have hline := (shell.alike_runLine true chunk).and_ensures_returns hleft
      refine Relates.bind lasting_astray hline ?_
      rintro next next' l r ⟨hleft, rfl, happart⟩
      cases next with
      | leaveAll => exact Agrees.done false l r happart
      | leaveSource => exact Agrees.done true l r happart
      | goOn => exact hnext _ hnonneg l r ⟨hleft, happart⟩

/-- Behind the prompt each run takes its turns, so it is with the loop as with them. -/
theorem rejoins_runFrom_of_turn (hle : fewer ≤ more)
    (hturn : ∀ left, left < fewer → ∀ other, left ≤ other →
      Rejoins (Ample bound offset (left + 1) shell.Prompted) (shell.turn left offset)
        (shell.turn other offset)) :
    Rejoins (Ample bound offset fewer Apart)
      (shell.runFrom (Builtin.dispatch shell.home) standardInput true fewer offset)
      (shell.runFrom (Builtin.dispatch shell.home) standardInput true more offset) := by
  cases fewer with
  | zero => exact fun l r h => absurd h.1.2 (Nat.not_lt_zero _)
  | succ left =>
      obtain ⟨other, rfl⟩ : ∃ other, more = other + 1 := ⟨more - 1, by omega⟩
      rw [runFrom_eq_turn, runFrom_eq_turn]
      have hleft := @ensures_left standardInput offset bound (left + 1) _ _ _ _
        (shell.footprint_announce true) rfl
      have hannounce := shell.relates_announce.and_ensures_returns hleft
      exact Relates.bind lasting_astray hannounce fun _ _ =>
        hturn left (Nat.lt_succ_self left) other (by omega)

/-- However often the read is interrupted, the other run makes it once. -/
theorem rejoins_turn (hle : fewer ≤ more) (hoffset : 0 ≤ offset) :
    Rejoins (Ample bound offset (fewer + 1) shell.Prompted) (shell.turn fewer offset)
      (shell.turn more offset) := by
  induction fewer using Nat.strongRecOn generalizing more offset with
  | ind fewer ih =>
      intro l r ⟨⟨hroomy, hleft⟩, happart, past, suffix, hsuffix, hpast⟩
      cases hhit : Fault.hit? l.world.faults .readLine with
      | none =>
          have hcalm := @rejoins_turn_calm shell bound fewer more offset hoffset fun offset hoffset =>
            rejoins_runFrom_of_turn hle fun left hlt other hle => ih left hlt hle hoffset
          exact hcalm l r ⟨hhit, ⟨hroomy, hleft⟩, happart⟩
      | some e =>
          have hfewer := Fault.length_advance_lt hhit
          obtain ⟨left, rfl⟩ : ∃ left, fewer = left + 1 := ⟨fewer - 1, by omega⟩
          -- the run that is interrupted takes a turn, and the other one stays in front of its own
          obtain ⟨hending, hafter⟩ :=
            shell.turn_interrupted hsuffix happart.impatient hhit left offset
          rw [hending, hafter]
          apply ih left (Nat.lt_succ_self left) (by omega) hoffset
          refine ⟨⟨?_, ?_⟩, Prompted.again shell happart hsuffix hpast offset⟩
          · show l.world.longestSource + (Fault.advance l.world.faults .readLine).length < bound
            unfold InMemory.Roomy at hroomy
            omega
          · show l.world.unread standardInput offset +
              (Fault.advance l.world.faults .readLine).length < left + 1
            omega

end Rounds

/-! ## The run -/

/-- Standard input may be interrupted. -/
theorem rejoins_input (rounds : Nat) :
    Rejoins (fun l r => Room rounds l.past l.state l.world ∧ Apart l r)
      (shell.runSource rounds standardInput true) (shell.runSource rounds standardInput true) := by
  have hsource := @rejoins_runFrom_of_turn shell rounds rounds rounds 0 (Nat.le_refl _)
    fun left _ other hle => rejoins_turn hle (Int.le_refl 0)
  refine hsource.weaken fun l r ⟨hroom, happart⟩ => ⟨⟨hroom, ?_⟩, happart⟩
  have hunread := l.world.unread_le_longestSource standardInput 0
  exact Nat.lt_of_le_of_lt (Nat.add_le_add_right hunread _) hroom

theorem rejoins_run (rounds : Nat) (scripts : List Text) :
    Rejoins (fun l r => Room rounds l.past l.state l.world ∧ Apart l r) (shell.run rounds scripts)
      (shell.run rounds scripts) := by
  have hpublish := (alike_of_footprint footprint_publishCwd rfl).and_ensures_returns
    (@ensures_room rounds _ _ _ _ footprint_publishCwd)
  have hscripts := (shell.alike_runScripts rounds scripts).and_ensures_returns
    (runScripts_withinRounds scripts)
  refine Relates.bind lasting_astray hpublish fun _ _ => ?_
  refine Relates.orElse (n := fun e e' l r => e = e' ∧ Apart l r) lasting_astray ?_ fun e e' => ?_
  · refine (Relates.bind lasting_astray hscripts ?_).weaken fun l r h => ⟨h.1, h.2.2⟩
    intro goOn goOn' l r ⟨hroom, hsame, happart⟩
    subst hsame
    cases goOn with
    | false => exact Agrees.done 0 l r happart
    | true =>
        have hinput := shell.rejoins_input rounds
        refine Relates.bind lasting_astray hinput (fun _ _ => ?_) l r ⟨hroom, happart⟩
        exact Relates.and_pre fun _ => Agrees.done 0
  · refine Relates.and_pre fun hsame => ?_
    subst hsame
    have hnewline : Alike (print "\n") := alike_ask nofun
    cases e with
    | interrupt =>
        refine Agrees.bind lasting_astray ?_ fun _ => Agrees.bind lasting_astray hnewline fun _ => ?_
        · exact alike_of_footprint (@footprint_say [] [] false _ _ _) rfl
        · exact Agrees.done interruptedStatus
    | _ => exact Agrees.fail _

/-- Interrupts at the prompt lose nothing.  The run in the world without them ends alike and in the same
place, and makes the same calls, but for what each of the interrupts leaves behind: the read that it
hit, a newline and another prompt. -/
theorem run_resumed (scripts : List Text) (s : Session) {w : InMemory} (hfd : standardInput < w.nextFd)
    (hfaults : w.Impatient)
    (hprompt : ∀ fd offset size, .called (.readLine fd offset size) (.error .interrupt) ∈
      (InMemory.perform (fun rounds => shell.run rounds scripts) s w).events → fd = standardInput) :
    let o := InMemory.perform (fun rounds => shell.run rounds scripts) s w
    let calm := InMemory.perform (fun rounds => shell.run rounds scripts) s w.calm
    calm.ending = o.ending ∧ calm.state = o.state ∧ calm.world = o.world.calm ∧
      Resumed o.events calm.events := by
  intro o calm
  have henough : w.longestSource + w.faults.length < w.rounds := by
    unfold InMemory.rounds
    omega
  -- the number of rounds does not matter, so both runs may be given the same
  have hcalm : calm = (shell.run w.rounds scripts).run InMemory.answer s w.calm := by
    refine run_rounds_irrelevant shell scripts s ?_ ?_
    · unfold InMemory.rounds
      omega
    · exact Nat.lt_of_le_of_lt (Nat.add_le_add_left (Nat.zero_le _) _) henough
  let l : memory.Moment := ⟨[], s, w⟩
  let r : memory.Moment := ⟨[], s, w.calm⟩
  have hl : memory.run (shell.run w.rounds scripts) l = o := Machine.run_memory _ l
  have hr : memory.run (shell.run w.rounds scripts) r = calm :=
    (Machine.run_memory _ r).trans hcalm.symm
  have hhere : ¬Astray (memory.after (shell.run w.rounds scripts) l).past := by
    unfold Machine.after
    rw [hl]
    rintro ⟨e, he, hscript⟩
    unfold ScriptInterrupted at hscript
    split at hscript
    · exact hscript (hprompt _ _ _ he)
    · exact hscript
  have hstart : Room w.rounds l.past l.state l.world ∧ Apart l r :=
    ⟨henough, rfl, rfl, hfaults, hfd, .start⟩
  obtain ⟨hending, happart⟩ := (shell.rejoins_run w.rounds scripts).ending_eq hstart hhere
  unfold Machine.ending at hending
  unfold Machine.after at happart
  rw [hl, hr] at hending happart
  exact ⟨hending, happart.state, happart.world, happart.past⟩

/-- A world with a script and a line on standard input, in which the prompt is interrupted twice before
the line is read, and once more behind it. -/
def interruptedPrompt : InMemory :=
  .create [("/go", [0x63, 0x64, 0x0A])] [] "/" "" [0x63, 0x64, 0x0A] [] [] false false
    [⟨.readLine, 3, .interrupt⟩, ⟨.readLine, 4, .interrupt⟩, ⟨.readLine, 6, .interrupt⟩]

/-- Three interrupts cost nine events, and nothing else. -/
theorem run_resumed_of_interruptedPrompt :
    let o := InMemory.perform (fun rounds => Shell.default.run rounds ["/go"]) (.default "/")
      interruptedPrompt
    let calm := InMemory.perform (fun rounds => Shell.default.run rounds ["/go"]) (.default "/")
      interruptedPrompt.calm
    interruptsAt standardInput o.events = 3 ∧ o.events.length = calm.events.length + 9 ∧
      o.ending = .returned 0 ∧ o.state.cwd = "/home" ∧
      calm.ending = o.ending ∧ calm.state = o.state ∧ calm.world = o.world.calm ∧
        Resumed o.events calm.events := by
  intro o calm
  have hfd : standardInput < interruptedPrompt.nextFd := by decide
  have hfaults : interruptedPrompt.Impatient := by
    intro f hf
    rcases hf with _ | ⟨_, _ | ⟨_, _ | ⟨_, hf⟩⟩⟩
    · exact ⟨rfl, rfl⟩
    · exact ⟨rfl, rfl⟩
    · exact ⟨rfl, rfl⟩
    · exact absurd hf List.not_mem_nil
  have hall : (o.events.all fun
      | .called (.readLine fd _ _) (.error .interrupt) => fd == standardInput
      | _ => true) = true := rfl
  refine ⟨rfl, rfl, rfl, rfl, run_resumed Shell.default ["/go"] (.default "/") hfd hfaults ?_⟩
  intro fd offset size hmem
  exact eq_of_beq (List.all_eq_true.mp hall _ hmem)

end Shell

end LineShell
