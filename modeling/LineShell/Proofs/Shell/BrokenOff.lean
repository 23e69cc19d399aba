import LineShell.Proofs.Program.Interruptible
import LineShell.Proofs.Shell.Blocks
import LineShell.Proofs.Shell.Descriptors
import LineShell.Proofs.Shell.Seen

/-!
# Runs that are broken off

An interrupt at the prompt only starts a new line.  Everywhere else it ends the run: the script that is
open is closed, a newline is written, and the exit status is that of an interrupt.

There are handlers for failures at every level of the shell, and none of them takes an interrupt for a
failure of its own kind.  So a part of a source lets an interrupt through, with nothing left to be done
(`Shell.through_runFrom`), and a script winds up (`Shell.windsUp_runScripts`).  This holds for any
answers; it does not hold behind an interrupt at the prompt, nor in a child, which ends its process
whatever made it give up the command.

In a world with a single fault there is nothing left to go wrong behind it
(`Passes.interrupted_once`), so what is left of the program can be run.

The main result is `Shell.run_brokenOff`.
-/

namespace LineShell

open Program LineShell.Action

/-! ## One interrupt -/

/-- The number of calls that were interrupted. -/
def interruptions (events : List (Event ServiceCall.Reply)) : Nat :=
  events.countP fun
    | .called _ (.error .interrupt) => true
    | _ => false

theorem interruptions_append (events more : List (Event ServiceCall.Reply)) :
    interruptions (events ++ more) = interruptions events + interruptions more := List.countP_append

theorem interruptions_pos {events : List (Event ServiceCall.Reply)} {c : ServiceCall}
    (h : .called c (.error .interrupt) ∈ events) : 0 < interruptions events :=
  List.countP_pos_iff.mpr ⟨_, h, rfl⟩

theorem interruptions_of_ne {c : ServiceCall} {outcome : Except Failure c.Reply}
    (h : outcome ≠ .error .interrupt) : interruptions [.called c outcome] = 0 := by
  cases outcome with
  | ok r => rfl
  | error e =>
      cases e with
      | interrupt => exact absurd rfl h
      | _ => rfl

namespace InMemory

/-- A call that is interrupted uses up a fault. -/
theorem interruptions_answer_le (c : ServiceCall) (w : InMemory) :
    interruptions [.called c (answer c w).outcome] + (answer c w).world.faults.length ≤
      w.faults.length := by
  by_cases h : (answer c w).outcome = .error .interrupt
  · obtain ⟨hanswer, hless⟩ := answer_interrupted h
    rw [hanswer, Nat.add_comm]
    exact hless
  · rw [interruptions_of_ne h, Nat.zero_add]
    exact length_faults_answer_le c w

end InMemory

/-- What was interrupted so far and what can still go wrong is what could go wrong at the start. -/
theorem Passes.interruptions_add_faults_le {α : Type}
    {x y : Point Session InMemory ServiceCall.Reply α} {past : List (Event ServiceCall.Reply)}
    (h : Passes InMemory.answer x past y) :
    interruptions past + y.world.faults.length ≤ x.world.faults.length := by
  refine h.kept (P := fun past w => interruptions past + w.faults.length ≤ x.world.faults.length)
    (fun c past w hpast => ?_) (fun entry past w hpast => ?_) (Nat.le_of_eq (Nat.zero_add _))
  · have hanswer := InMemory.interruptions_answer_le c w
    rw [InMemory.answer_inner, interruptions_append]
    omega
  · rw [interruptions_append]
    exact hpast

/-- In a world with a single fault an interrupt comes behind no other, and nothing goes wrong behind
it. -/
theorem Passes.interrupted_once {α : Type} {x y : Point Session InMemory ServiceCall.Reply α}
    {past : List (Event ServiceCall.Reply)} (h : Passes InMemory.answer x past y)
    {f : Fault ServiceCall.Name} (hfault : x.world.faults = [f]) {c : ServiceCall}
    (hinterrupt : (InMemory.answer c y.world).outcome = .error .interrupt) :
    (∀ d, .called d (.error .interrupt) ∉ past) ∧ (y.world.ready c.name).faults = [] := by
  have hless := (InMemory.answer_interrupted hinterrupt).2
  have hledger := h.interruptions_add_faults_le
  rw [hfault, List.length_singleton] at hledger
  constructor
  · intro d hd
    have hpos := interruptions_pos hd
    omega
  · apply List.eq_nil_of_length_eq_zero
    omega

/-! ## Letting an interrupt through -/

/-- Neither loading a line into a buffer nor splitting it is interrupted. -/
theorem LineBuffer.fill_ne_interrupt (b : LineBuffer) (chunk : Bytes) :
    b.fill chunk ≠ .error .interrupt := by
  unfold fill
  split <;> exact nofun

theorem LineBuffer.tokenize_ne_interrupt (b : LineBuffer) (marker : CodePoint) :
    b.tokenize marker ≠ .error .interrupt := by
  unfold tokenize byteOf
  split <;> exact nofun

theorem ArgumentVector.tokens_ne_interrupt (v : ArgumentVector) (b : LineBuffer) :
    v.tokens b ≠ .error .interrupt := by
  unfold tokens checkCurrent
  split <;> exact nofun

namespace Shell

/-- An interrupt at the prompt, or the beginning of a child. -/
def Elsewhere : Event ServiceCall.Reply → Prop
  | .called (.readLine fd _ _) (.error .interrupt) => fd = standardInput
  | .called .fork (.ok pid) => pid = 0
  | _ => False

/-- An interrupt is at once the failure of this part of the shell. -/
abbrev Through {α : Type} (p : Action α) : Prop := p.LetsThrough Elsewhere fun _ => True

theorem through_ask (c : ServiceCall) : Through (ask c) :=
  (LetsThrough.request c).mono fun _ _ => trivial

theorem through_log {level : Log.Level} {subsystem message : Text} {pid : Option Int}
    {context : Fields} : Through (Action.log level subsystem message pid context) :=
  LetsThrough.log trivial

theorem through_state : Through state := LetsThrough.state_bind fun _ => LetsThrough.done trivial

theorem through_update {f : Session → Session} : Through (update f) := LetsThrough.update trivial

theorem through_ofExcept {α : Type} {outcome : Except Failure α} (h : outcome ≠ .error .interrupt) :
    Through (ofExcept outcome) := LetsThrough.ofExcept (fun _ _ => trivial) h

/-- `cd` reports failures of the file family, and an interrupt is none. -/
theorem through_dispatch (home : Value) (tokens : List Text) :
    Through (Builtin.dispatch home tokens) := by
  simp only [Builtin.dispatch]
  cases Builtin.ofName? (tokens.headD []) with
  | none => exact LetsThrough.done trivial
  | some command =>
      refine LetsThrough.orElse ?_ rfl fun e he => ?_
      · cases command with
        | exit => exact LetsThrough.done trivial
        | cd =>
            refine LetsThrough.state_bind fun s => ?_
            refine LetsThrough.bind (through_ask _) fun isDirectory _ => ?_
            cases isDirectory with
            | false => exact LetsThrough.fail (by rintro ⟨⟩)
            | true =>
                cases Builtin.target home s.cwd tokens.tail with
                | text path =>
                    refine LetsThrough.bind (through_ask _) fun _ _ => ?_
                    refine LetsThrough.bind through_update fun _ _ => ?_
                    exact LetsThrough.bind through_log fun _ _ => LetsThrough.done trivial
                | _ => exact LetsThrough.fail (by rintro ⟨⟩)
      · cases e.fileReport? with
        | none => exact LetsThrough.fail he
        | some report =>
            refine LetsThrough.bind through_log fun _ _ => ?_
            exact LetsThrough.bind (through_ask _) fun _ _ => LetsThrough.done trivial

/-- Only the shell that made a child is looked at any further, and it is told the id of the child. -/
theorem through_spawn : Child.spawn.LetsThrough Elsewhere fun pid => pid ≠ 0 := by
  rw [Child.spawn_eq]
  have hfork : ((ask .fork).orElse Child.unmade).LetsThrough Elsewhere fun (pid : Int) => pid ≠ 0 := by
    refine LetsThrough.orElse (LetsThrough.request ServiceCall.fork) rfl fun e he => ?_
    unfold Child.unmade
    cases e.reportOf? .forkFailed with
    | none => exact LetsThrough.fail he
    | some report => exact LetsThrough.bind through_log fun _ _ => LetsThrough.fail he
  refine LetsThrough.bind hfork fun pid hpid => ?_
  have hmade : Through (Child.made pid) := by
    unfold Child.made
    split
    · exact LetsThrough.bind through_update fun _ _ => through_log
    · exact LetsThrough.done trivial
  exact LetsThrough.bind hmade fun _ _ => LetsThrough.done hpid

theorem through_spawnOrReport : spawnOrReport.LetsThrough Elsewhere fun child => child ≠ some 0 := by
  refine Interruptible.attempt_bind through_spawn ?_ (fun pid hpid => ?_) fun e he => ?_
  · rintro k rfl
    rfl
  · exact LetsThrough.done fun hsome => hpid (Option.some.inj hsome)
  · dsimp only
    cases e.reportOf? .forkFailed with
    | none => exact LetsThrough.fail he
    | some report => exact LetsThrough.bind (through_ask _) fun _ _ => LetsThrough.done nofun

theorem through_wait (pid : Int) (timeout : Value) : Through (Child.wait pid timeout) := by
  refine LetsThrough.bind (through_ask _) fun outcome _ => LetsThrough.state_bind fun s => ?_
  have hreport : ∀ completed : Bool, Through
      (if completed then (Child.say .debug "Child finished" (some pid) []).bind fun _ => done outcome
        else (Child.say .info "Child did not complete normally" (some pid)
          [("outcome", .text (WaitOutcome.name outcome))]).bind fun _ => done outcome) := by
    intro completed
    split <;> exact LetsThrough.bind through_log fun _ _ => LetsThrough.done trivial
  simp only [bind_eq_bind, pure_eq_done]
  split
  · exact LetsThrough.bind through_update fun _ _ => hreport _
  · exact hreport _

variable (shell : Shell)

theorem through_announce (interactive : Bool) : Through (shell.announce interactive) := by
  cases interactive with
  | false => exact LetsThrough.done trivial
  | true =>
      refine LetsThrough.state_bind fun s => ?_
      cases shell.promptSuffix with
      | text suffix => exact through_ask _
      | _ => exact LetsThrough.fail nofun

theorem through_tokenize (chunk : Bytes) : Through (shell.tokenize chunk) := by
  simp only [tokenize, bind_eq_bind]
  refine LetsThrough.state_bind fun s => ?_
  refine LetsThrough.bind (through_ofExcept (s.line.fill_ne_interrupt chunk)) fun loaded _ => ?_
  obtain ⟨count, filled⟩ := loaded
  dsimp only
  -- splitting the line is not to be looked into any further
  have hsplit := filled.stripNewline.tokenize_ne_interrupt shell.marker
  generalize filled.stripNewline.tokenize shell.marker = split at hsplit ⊢
  refine LetsThrough.bind through_update fun _ _ => ?_
  refine LetsThrough.bind (through_ofExcept hsplit) fun split _ => ?_
  refine LetsThrough.bind through_update fun _ _ => ?_
  exact through_ofExcept (split.1.tokens_ne_interrupt split.2)

/-- Only standard input is read interactively, and nowhere else an interrupt is a result. -/
theorem through_readLine {interactive : Bool} {fd : Int} (offset : Int)
    (hfd : interactive → fd = standardInput) : Through (readLine interactive fd offset) := by
  rw [readLine_eq]
  refine LetsThrough.state_bind fun s => ?_
  constructor
  · intro hhere
    cases interactive with
    | true => exact absurd (hfd rfl) hhere
    | false => rfl
  · intro outcome hne _
    change Through (((ofExcept outcome).attempt).bind (readingOf interactive fd))
    rw [attempt_ofExcept]
    change Through (readingOf interactive fd outcome)
    rcases outcome with e | chunk
    · cases e with
      | interrupt => exact absurd rfl hne
      | os errno text => exact LetsThrough.bind through_log fun _ _ => LetsThrough.done trivial
      | _ => exact LetsThrough.fail nofun
    · cases chunk <;> exact LetsThrough.done trivial

theorem through_runInChild (tokens : List Text) : Through (shell.runInChild tokens) := by
  refine LetsThrough.bind through_spawnOrReport fun child hchild => ?_
  cases child with
  | none => exact LetsThrough.done trivial
  | some pid =>
      have hpid : pid ≠ 0 := fun heq => hchild (congrArg some heq)
      simp only [bind_eq_bind, pure_eq_done, if_neg hpid]
      exact LetsThrough.bind (through_wait _ _) fun _ _ => LetsThrough.done trivial

theorem through_follow (interactive : Bool) (tokens : List Text) (verdict : Builtin.Verdict) :
    Through (shell.follow interactive tokens verdict) := by
  cases verdict with
  | exit => exact LetsThrough.done trivial
  | handled => exact LetsThrough.done trivial
  | notBuiltin =>
      refine LetsThrough.bind (shell.through_runInChild tokens) fun made _ => ?_
      cases made <;> exact LetsThrough.done trivial

theorem through_runLine (interactive : Bool) (chunk : Bytes) :
    Through (shell.runLine (Builtin.dispatch shell.home) interactive chunk) := by
  refine LetsThrough.bind (shell.through_tokenize chunk) fun tokens _ => ?_
  refine LetsThrough.bind (through_dispatch shell.home tokens) fun verdict _ => ?_
  exact shell.through_follow interactive tokens verdict

theorem through_runFrom {fd : Int} {interactive : Bool} (rounds : Nat) (offset : Int)
    (hfd : interactive → fd = standardInput) :
    Through (shell.runFrom (Builtin.dispatch shell.home) fd interactive rounds offset) := by
  induction rounds generalizing offset with
  | zero => trivial
  | succ rounds ih =>
      refine LetsThrough.bind (shell.through_announce interactive) fun _ _ => ?_
      refine LetsThrough.bind (through_readLine offset hfd) fun reading _ => ?_
      cases reading with
      | exhausted => exact LetsThrough.done trivial
      | interrupted => exact ih offset
      | line chunk =>
          refine LetsThrough.bind (shell.through_runLine interactive chunk) fun next _ => ?_
          cases next with
          | leaveAll => exact LetsThrough.done trivial
          | leaveSource => exact LetsThrough.done trivial
          | goOn => exact ih _

/-! ## Winding up -/

/-- The shell gives up, and before that it closes the script it has open. -/
inductive WindsUp {α : Type} : Action α → Prop
  | atOnce : WindsUp (fail .interrupt)
  | closing (fd : Int) : WindsUp ((ask (.close fd)).bind fun _ => fail .interrupt)

theorem WindsUp.bind {α β : Type} {k : Action α} (h : WindsUp k) (f : α → Action β) :
    WindsUp (k.bind f) := by
  cases h with
  | atOnce => exact .atOnce
  | closing fd =>
      rw [bind_assoc]
      exact .closing fd

/-- What lets an interrupt through winds up, as long as what goes on with it does. -/
theorem windsUp_bind {α β : Type} {p : Action α} {f : α → Action β} {post : β → Prop}
    (hp : Through p) (hf : ∀ a, (f a).Interruptible Elsewhere WindsUp post) :
    (p.bind f).Interruptible Elsewhere WindsUp post := by
  refine Interruptible.bind hp ?_ fun a _ => hf a
  rintro k rfl
  exact .atOnce

theorem through_resolve (name pwd searchPath : Text) :
    Through (Lookup.resolve Child.isFile name pwd searchPath) := by
  have hfirst : ∀ directories, Through (Lookup.firstFound Child.isFile name directories) := by
    intro directories
    induction directories with
    | nil => exact LetsThrough.done trivial
    | cons directory rest ih =>
        refine LetsThrough.bind (through_ask _) fun found _ => ?_
        split
        · exact LetsThrough.done trivial
        · exact ih
  unfold Lookup.resolve
  split
  · exact LetsThrough.done trivial
  · refine LetsThrough.bind (hfirst _) fun found _ => ?_
    cases found <;> exact LetsThrough.done trivial

theorem through_openScript (path : Text) : Through (openScript path) := by
  refine Interruptible.attempt_bind (through_ask (.openReadOnly path)) ?_
    (fun fd _ => LetsThrough.done trivial) fun e he => ?_
  · rintro k rfl
    rfl
  · dsimp only
    cases e.reportOf? .fileNotFound with
    | none => exact LetsThrough.fail he
    | some report => exact LetsThrough.bind through_log fun _ _ => LetsThrough.done trivial

/-- Only the script that is run is closed behind an interrupt. -/
theorem windsUp_runScript (rounds : Nat) (script : Text) :
    (shell.runScript rounds script).Interruptible Elsewhere WindsUp fun _ => True := by
  refine windsUp_bind through_state fun s => ?_
  refine windsUp_bind (through_ask .getPath) fun searchPath => ?_
  refine windsUp_bind (through_resolve script s.cwd searchPath) fun path => ?_
  refine windsUp_bind (through_openScript path) fun opened => ?_
  cases opened with
  | none => trivial
  | some fd =>
      refine windsUp_bind through_log fun _ => ?_
      have hsource : Through (shell.runSource rounds fd false) :=
        shell.through_runFrom rounds 0 nofun
      refine Interruptible.attempt_bind hsource ?_ (fun goOn _ => ?_) fun e he => ?_
      · rintro k rfl
        exact .closing fd
      · exact windsUp_bind (through_ask (.close fd)) fun _ => trivial
      · exact windsUp_bind (through_ask (.close fd)) fun _ => he

theorem windsUp_runScripts (rounds : Nat) (scripts : List Text) :
    (shell.runScripts rounds scripts).Interruptible Elsewhere WindsUp fun _ => True := by
  induction scripts with
  | nil => trivial
  | cons script rest ih =>
      refine Interruptible.bind (shell.windsUp_runScript rounds script) (fun k hk => hk.bind _)
        fun goOn _ => ?_
      cases goOn with
      | true => exact ih
      | false => trivial

/-- All of a run but the publication of the working directory. -/
def work (rounds : Nat) (scripts : List Text) : Action Int :=
  (shell.runScripts rounds scripts).bind fun goOn =>
    if goOn then (shell.runSource rounds standardInput true).bind fun _ => done 0 else done 0

/-- What is done about a failure of the scripts or of standard input. -/
def lastWords : Failure → Action Int
  | .interrupt => (say .info "Interrupted").bind fun _ => (print "\n").bind fun _ =>
      done interruptedStatus
  | e => fail e

theorem run_eq_work (rounds : Nat) (scripts : List Text) :
    shell.run rounds scripts =
      publishCwd.bind fun _ => (shell.work rounds scripts).orElse lastWords := rfl

theorem windsUp_work (rounds : Nat) (scripts : List Text) :
    (shell.work rounds scripts).Interruptible Elsewhere WindsUp fun _ => True := by
  refine Interruptible.bind (shell.windsUp_runScripts rounds scripts) (fun k hk => hk.bind _)
    fun goOn _ => ?_
  cases goOn with
  | false => trivial
  | true =>
      refine windsUp_bind ?_ fun _ => trivial
      exact shell.through_runFrom rounds 0 fun _ => rfl

theorem run_lastWords (s : Session) {w : InMemory} (hfaults : w.faults = []) :
    (lastWords .interrupt).run InMemory.answer s w =
      ⟨.returned interruptedStatus, s, w, [.logged ⟨.info, "shell", "Interrupted", none, []⟩,
        .called (.write standardOutput "\n") (.ok ())]⟩ := by
  have hwrite : InMemory.answer (.write standardOutput "\n") w = ⟨.ok (), w, []⟩ :=
    InMemory.answer_of_faults_nil hfaults _
  simp only [lastWords, say, Action.log, Program.log, print, ask, request, Program.bind, Program.run,
    hwrite]
  rfl

/-- Where nothing can go wrong any more, winding up closes what is open and writes a newline. -/
theorem run_windingUp {k : Action Int} (hk : WindsUp k) (s : Session) {w : InMemory}
    (hfaults : w.faults = []) :
    let o := (k.orElse lastWords).run InMemory.answer s w
    o.ending = .returned interruptedStatus ∧ o.state = s ∧ o.world.pwd = w.pwd ∧
      ∃ held : Option Int, descriptorsOpened o.events = [] ∧
        descriptorsClosed o.events = held.toList ∧
        calls o.events = held.toList.map (fun fd => .called (.close fd) (.ok ())) ++
          [.called (.write standardOutput "\n") (.ok ())] := by
  intro o
  cases hk with
  | atOnce =>
      have ho : o = _ := run_lastWords s hfaults
      rw [ho]
      exact ⟨rfl, rfl, rfl, none, rfl, rfl, rfl⟩
  | closing fd =>
      have hclose := InMemory.answer_of_faults_nil hfaults (.close fd)
      have ho : o = { (lastWords .interrupt).run InMemory.answer s (w.serve (.close fd)).2 with
          events := .called (.close fd) (.ok ()) ::
            ((lastWords .interrupt).run InMemory.answer s (w.serve (.close fd)).2).events } := by
        change Program.run InMemory.answer (.call (.close fd) _) s w = _
        rw [Program.run, hclose]
        rfl
      rw [ho, run_lastWords s (by rw [InMemory.serve_faults]; exact hfaults)]
      exact ⟨rfl, rfl, InMemory.serve_pwd (by rintro ⟨⟩) w, some fd, rfl, rfl, rfl⟩

/-! ## The run -/

/-- Publishing the working directory is a single call. -/
theorem eq_nil_of_publishing {past : List (Event ServiceCall.Reply)} {s t : Session} {w v : InMemory}
    {c : ServiceCall} {next : Except Failure c.Reply → Action Unit}
    (h : Passes InMemory.answer ⟨publishCwd, s, w⟩ past ⟨.call c next, t, v⟩) : past = [] := by
  rcases h.start_cases with ⟨-, heq⟩ | ⟨y, later, hy, rfl, hlater⟩
  · cases heq
  · cases hy
    rcases Passes.attempt_request_cases hlater with ⟨rfl, -⟩ | ⟨rest, -, hrest⟩
    · rfl
    · -- whatever the call came to, no other one is made behind it
      have hwithin := hrest.within (S := scope [] []) ?_
      · exact absurd hwithin.1 nofun
      · cases (InMemory.answer (.setPwd s.cwd) w).outcome with
        | ok _ => exact Footprint.done () s
        | error e =>
            dsimp only
            cases e.reportOf? .notADirectory with
            | none => exact Footprint.fail e s
            | some report => exact footprint_say _ _ _ s

/-- As long as no call was interrupted, a run that made no child is the one the user sees. -/
theorem not_elsewhere {events : List (Event ServiceCall.Reply)}
    (hquiet : ∀ c, .called c (.error .interrupt) ∉ events) (hparent : (0 : Int) ∉ forkReplies events) :
    ∀ e ∈ events, ¬Elsewhere e := by
  intro e he helse
  cases e with
  | logged entry => exact helse
  | called c outcome =>
      cases c with
      | readLine fd offset size =>
          cases outcome with
          | ok chunk => exact helse
          | error e =>
              cases e with
              | interrupt => exact hquiet _ he
              | _ => exact helse
      | fork =>
          cases outcome with
          | error e => exact helse
          | ok pid =>
              have hpid : pid = 0 := helse
              rw [hpid] at he
              exact hparent (List.mem_filterMap.mpr ⟨_, he, rfl⟩)
      | _ => exact helse

theorem not_elsewhere_call {c : ServiceCall}
    (hread : ∀ offset size, c ≠ .readLine standardInput offset size) :
    ¬Elsewhere (.called c (.error .interrupt)) := by
  intro helse
  cases c with
  | readLine fd offset size =>
      have hfd : fd = standardInput := helse
      rw [hfd] at hread
      exact hread offset size rfl
  | _ => exact helse

/-- What is closed behind a call that was interrupted: the script that is open, unless closing it was
what was interrupted. -/
def closing (c : ServiceCall) (held : Option Int) : List (Event ServiceCall.Reply) :=
  if c.name = .close then [] else held.toList.map fun fd => .called (.close fd) (.ok ())

/-- What is given back behind an interrupted call is what was held, unless it was that call that gave it
back. -/
theorem closing_eq {c : ServiceCall} {held later : Option Int}
    (h : held.toList = descriptorsClosed [.called c (.error .interrupt)] ++ later.toList) :
    later.toList.map (fun fd => .called (.close fd) (.ok ())) = closing c held := by
  by_cases hclose : c.name = .close
  · rw [closing, if_pos hclose]
    cases c with
    | close fd =>
        cases later with
        | none => rfl
        | some other => cases held <;> cases h
    | _ => cases hclose
  · rw [closing, if_neg hclose, h]
    cases c with
    | close fd => exact absurd rfl hclose
    | _ => rfl

/-- Where everything that was opened is closed in the end, what is closed behind an interrupted call is
what was open there. -/
theorem exists_held {before last : List (Event ServiceCall.Reply)} {c : ServiceCall}
    {later : Option Int}
    (hrest : Descriptors.custody.At none (before ++ .called c (.error .interrupt) :: last))
    (hopened : descriptorsOpened last = []) (hclosed : descriptorsClosed last = later.toList) :
    ∃ held : Option Int, descriptorsOpened before = descriptorsClosed before ++ held.toList ∧
      later.toList.map (fun fd => .called (.close fd) (.ok ())) = closing c held := by
  obtain ⟨held, hheld⟩ := hrest.orderly.single _ _ rfl
  have hbefore : descriptorsOpened before = descriptorsClosed before ++ held.toList := hheld
  have howing : descriptorsOpened (before ++ ([.called c (.error .interrupt)] ++ last)) =
      descriptorsClosed (before ++ ([.called c (.error .interrupt)] ++ last)) ++ [] := hrest.owing
  rw [List.append_nil, descriptorsOpened_append, descriptorsOpened_append, descriptorsClosed_append,
    descriptorsClosed_append, descriptorsOpened_error, hopened, hclosed, hbefore, List.append_nil,
    List.append_nil, List.append_cancel_left_eq] at howing
  exact ⟨held, hbefore, closing_eq howing⟩

/-- A call behind the publication of the working directory that is the first and the last to be
interrupted leaves a script to be closed, at most, and the exit status of an interrupt. -/
theorem windsUp_of_passes {rounds : Nat} {scripts : List Text} {s t : Session} {w v : InMemory}
    {past : List (Event ServiceCall.Reply)} {c : ServiceCall}
    {next : Except Failure c.Reply → Action Int}
    (hpass : Passes InMemory.answer ⟨shell.run rounds scripts, s, w⟩ past ⟨.call c next, t, v⟩)
    (hpast : past ≠ []) (hquiet : ∀ c, .called c (.error .interrupt) ∉ past)
    (hparent : (0 : Int) ∉ forkReplies past)
    (hread : ∀ offset size, c ≠ .readLine standardInput offset size) :
    ∃ k, WindsUp k ∧ next (.error .interrupt) = k.orElse lastWords := by
  have hhere := not_elsewhere hquiet hparent
  rw [run_eq_work] at hpass
  rcases hpass.bind_call_cases rfl with ⟨_, hpublish, -⟩ | ⟨_, _, _, before, after, rfl, -, hafter⟩
  · exact absurd (eq_nil_of_publishing hpublish) hpast
  · rcases hafter.attempt_call_cases rfl with
      ⟨next', hwork, hnext⟩ | ⟨outcome, _, _, middle, rest, rfl, hwork, hwords⟩
    · rcases hwork.interruptible (shell.windsUp_work rounds scripts) with hrest | ⟨e, he, helse⟩ | ⟨d, hd⟩
      · refine ⟨next' (.error .interrupt), hrest.1 (not_elsewhere_call hread), congrFun hnext _⟩
      · exact absurd helse (hhere e (List.mem_append_right _ he))
      · exact absurd (List.mem_append_right _ hd) (hquiet d)
    · -- the last words are being said already, so a call was interrupted before
      exfalso
      cases outcome with
      | ok status =>
          obtain ⟨-, heq⟩ := hwords.eq_of_end rfl
          cases heq
      | error e =>
          by_cases he : e = .interrupt
          · subst he
            rcases hwork.interruptible (shell.windsUp_work rounds scripts) with
              hrest | ⟨e, he, helse⟩ | ⟨d, hd⟩
            · exact hrest rfl
            · exact hhere e (List.mem_append_right _ (List.mem_append_left _ he)) helse
            · exact hquiet d (List.mem_append_right _ (List.mem_append_left _ hd))
          · have hfail : lastWords e = fail e := by
              cases e with
              | interrupt => exact absurd rfl he
              | _ => rfl
            dsimp only at hwords
            rw [hfail] at hwords
            obtain ⟨-, heq⟩ := hwords.eq_of_end rfl
            cases heq

/-- An interrupt that arrives at any call behind the publication of the working directory, but for the
reads at the prompt and the calls of a child, ends the run in order: the script that is open is closed, a
newline is written, nothing else is called, and the working directories stay what they were. -/
theorem run_brokenOff (shell : Shell) (rounds : Nat) (scripts : List Text) (s : Session)
    {w : InMemory} {name : ServiceCall.Name} {n : Nat} (hfault : w.faults = [⟨name, n, .interrupt⟩])
    {published : Except Failure Unit} {past : List (Event ServiceCall.Reply)}
    {x : Point Session InMemory ServiceCall.Reply Int} {c : ServiceCall}
    {next : Except Failure c.Reply → Action Int}
    (hpass : Passes InMemory.answer ⟨shell.run rounds scripts, s, w⟩
      (.called (.setPwd s.cwd) published :: past) x)
    (hcall : x.rest = .call c next)
    (hinterrupt : (InMemory.answer c x.world).outcome = .error .interrupt)
    (hread : ∀ offset size, c ≠ .readLine standardInput offset size)
    (hparent : (0 : Int) ∉ forkReplies past) :
    let o := (shell.run rounds scripts).run InMemory.answer s w
    o.ending = .returned interruptedStatus ∧ o.state = x.state ∧ o.world.pwd = x.world.pwd ∧
      ∃ (after : List (Event ServiceCall.Reply)) (held : Option Int),
        o.events =
          .called (.setPwd s.cwd) published :: past ++ .called c (.error .interrupt) :: after ∧
        descriptorsOpened past = descriptorsClosed past ++ held.toList ∧
        calls after = closing c held ++ [.called (.write standardOutput "\n") (.ok ())] := by
  intro o
  obtain ⟨rest, t, v⟩ := x
  subst hcall
  obtain ⟨hquiet, hfaults⟩ := hpass.interrupted_once hfault hinterrupt
  obtain ⟨k, hk, hnext⟩ := shell.windsUp_of_passes hpass (List.cons_ne_nil _ _) hquiet hparent hread
  obtain ⟨hending, hstate, hpwd, later, hopened, hclosed, hcalls⟩ := run_windingUp hk t hfaults
  have ho : o = { (k.orElse lastWords).run InMemory.answer t (v.ready c.name) with
      events := .called (.setPwd s.cwd) published :: past ++ .called c (.error .interrupt) ::
        ((k.orElse lastWords).run InMemory.answer t (v.ready c.name)).events } := by
    change (shell.run rounds scripts).run InMemory.answer s w = _
    rw [hpass.run_eq, Program.run, (InMemory.answer_interrupted hinterrupt).1]
    dsimp only
    rw [hnext]
    rfl
  generalize (k.orElse lastWords).run InMemory.answer t (v.ready c.name) = last at *
  -- nothing is open at the end, so what was open at the interrupt is closed behind it
  have hrest : Descriptors.custody.At none o.events := by
    have hrun := @Descriptors.run_atRest shell rounds scripts [] s w Custody.at_nil
    change o.ending.choose _ _ _ o.events o.state o.world at hrun
    rw [ho] at hrun
    dsimp only at hrun
    rw [hending] at hrun
    rw [ho]
    exact hrun
  rw [ho] at hrest ⊢
  obtain ⟨held, hheld, hclosing⟩ := exists_held hrest hopened hclosed
  refine ⟨hending, hstate, hpwd, last.events, held, rfl, hheld, ?_⟩
  rw [hcalls, hclosing]

/-- A world with a script of two commands, in which the first read is interrupted. -/
def interruptedScript : InMemory :=
  .create [("/go", [0x63, 0x64, 0x0A, 0x6C, 0x73, 0x0A])] [] "/" "" [0x6C, 0x73, 0x0A] [] [] false false
    [⟨.readLine, 1, .interrupt⟩]

/-- The script is closed before a line of it was read, and standard input is not looked at. -/
theorem run_brokenOff_of_script :
    let o := (Shell.default.run 8 ["/go"]).run InMemory.answer (.default "/") interruptedScript
    o.ending = .returned interruptedStatus ∧ o.state = .default "/" ∧ o.world.pwd = "/" ∧
      ∃ after, o.events =
          [.called (.setPwd "/") (.ok ()), .called .getPath (.ok ""),
            .called (.openReadOnly "/go") (.ok (3 : Int)),
            .logged ⟨.debug, "shell", "Running script /go", none, [("fd", .int 3)]⟩,
            .called (.readLine 3 0 (.int 256)) (.error .interrupt)] ++ after ∧
        calls after = [.called (.close 3) (.ok ()), .called (.write standardOutput "\n") (.ok ())] := by
  intro o
  have hstart : Passes InMemory.answer
      ⟨Shell.default.run 8 ["/go"], .default "/", interruptedScript⟩ [] _ := .start
  -- the directory is published, and the script is opened
  have hpublished := (hstart.next rfl).next rfl
  have hopened := ((hpublished.next rfl).next rfl).next rfl
  have hread := (hopened.next rfl).next rfl
  have hfault : interruptedScript.faults = [⟨.readLine, 1, .interrupt⟩] := rfl
  obtain ⟨hending, hstate, hpwd, after, held, hevents, hheld, hcalls⟩ :=
    run_brokenOff Shell.default 8 ["/go"] (.default "/") hfault hread rfl rfl nofun nofun
  refine ⟨hending, hstate, hpwd, after, hevents, ?_⟩
  -- the script has the first descriptor that is given out
  have hthree : [3] = held.toList := hheld
  cases held with
  | none => cases hthree
  | some fd =>
      obtain ⟨rfl, -⟩ := List.cons.inj hthree
      exact hcalls

end Shell

end LineShell
