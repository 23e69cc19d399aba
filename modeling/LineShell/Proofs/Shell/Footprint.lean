import LineShell.Proofs.Line.Storage
import LineShell.Proofs.Program.Footprint
import LineShell.Shell

/-!
# Footprints of the shell

Each part of the shell with the services it may call and the parts of the session it may change.
Only `cd` changes the working directory, only tokenizing changes the line, and only making a child
and waiting for it changes the foreground.  No part changes the size of the line buffer.

The loop over the lines of a source is given for any way to hand a line to the built-in commands.
-/

namespace LineShell

open Program LineShell.Action

/-- The parts of a session. -/
inductive Session.Part where
  | cwd
  | foreground
  | line
  deriving DecidableEq

/-- Two sessions are the same in a part. -/
def Session.Part.Same : Session.Part → Session → Session → Prop
  | cwd, s, t => t.cwd = s.cwd
  | foreground, s, t => t.foreground = s.foreground
  | line, s, t => t.line = s.line

/-- The subsystems that leave log entries for the shell. -/
def Shell.subsystems : List Text := ["shell", "process"]

/-- Some of the services, and changes to some parts of the session. -/
def Shell.scope (names : List ServiceCall.Name) (parts : List Session.Part)
    (stops : Bool := false) : Scope Session ServiceCall where
  calls c := names.contains c.name
  changes s t := (∀ part, parts.contains part = false → part.Same s t) ∧ s.line.SameSize t.line
  notes entry := entry.subsystem ∈ Shell.subsystems
  stops := stops

/-- A part of the shell may be given more than it needs. -/
theorem widen {α : Type} {p : Action α} {names names' : List ServiceCall.Name}
    {parts parts' : List Session.Part} {stops stops' : Bool}
    (h : p.Footprint (Shell.scope names parts stops)) (hnames : names.all names'.contains)
    (hparts : parts.all parts'.contains) (hstops : (!stops || stops') = true) :
    p.Footprint (Shell.scope names' parts' stops') := by
  have hpart : ∀ part, parts'.contains part = false → parts.contains part = false := by
    intro part hnot
    refine Bool.eq_false_iff.mpr fun hmem => Bool.eq_false_iff.mp hnot ?_
    exact List.all_eq_true.mp hparts part (List.contains_iff_mem.mp hmem)
  refine h.mono ⟨fun c hc => ?_, fun s t hst => ?_, fun _ h => h, fun hstop => ?_⟩
  · exact List.all_eq_true.mp hnames _ (List.contains_iff_mem.mp hc)
  · exact ⟨fun part hnot => hst.1 part (hpart part hnot), hst.2⟩
  · change stops = true at hstop
    rwa [hstop] at hstops

/-- A service among some is none that is not among them. -/
theorem Shell.name_ne_of_mem {names : List ServiceCall.Name} {name other : ServiceCall.Name}
    (h : names.contains name) (hother : names.contains other = false) : name ≠ other := by
  rintro rfl
  rw [hother] at h
  cases h

section Parts

variable {names : List ServiceCall.Name} {parts : List Session.Part} {stops : Bool}

theorem footprint_ask {c : ServiceCall} (h : names.contains c.name) :
    (ask c).Footprint (Shell.scope names parts stops) := Footprint.request h

theorem footprint_log {level : Log.Level} {subsystem message : Text} {pid : Option Int}
    {context : Fields} (h : subsystem ∈ Shell.subsystems) :
    (Action.log level subsystem message pid context).Footprint (Shell.scope names parts stops) :=
  Footprint.log h

theorem footprint_say (level : Log.Level) (message : Text) (context : Fields) :
    (Shell.say level message context).Footprint (Shell.scope names parts stops) :=
  footprint_log (by decide)

theorem footprint_childSay (level : Log.Level) (message : Text) (pid : Option Int)
    (context : Fields) :
    (Child.say level message pid context).Footprint (Shell.scope names parts stops) :=
  footprint_log (by decide)

theorem footprint_setCwd (path : Text) (h : parts.contains .cwd) :
    (update fun s => { s with cwd := path } : Action Unit).Footprint
      (Shell.scope names parts stops) := by
  refine Footprint.update fun s => ⟨fun part hpart => ?_, LineBuffer.SameSize.refl _⟩
  cases part with
  | cwd => exact absurd h (Bool.eq_false_iff.mp hpart)
  | foreground => rfl
  | line => rfl

theorem footprint_setForeground (child : Option Int) (h : parts.contains .foreground) :
    (update fun s => { s with foreground := child } : Action Unit).Footprint
      (Shell.scope names parts stops) := by
  refine Footprint.update fun s => ⟨fun part hpart => ?_, LineBuffer.SameSize.refl _⟩
  cases part with
  | cwd => rfl
  | foreground => exact absurd h (Bool.eq_false_iff.mp hpart)
  | line => rfl

end Parts

/-! ## Built-in commands -/

theorem footprint_changeDirectory (home : Value) (arguments : List Text) :
    (Builtin.changeDirectory home arguments).Footprint (Shell.scope [.isDir, .setPwd] [.cwd]) := by
  refine Footprint.state_bind fun s => ?_
  refine Footprint.bind (footprint_ask rfl) fun isDirectory => ?_
  cases isDirectory with
  | false => exact Footprint.fail _
  | true =>
      cases htarget : Builtin.target home s.cwd arguments with
      | text path =>
          refine Footprint.bind (footprint_ask rfl) fun _ => ?_
          refine Footprint.bind (footprint_setCwd _ rfl) fun _ => ?_
          exact Footprint.bind (footprint_log (by decide)) fun _ => Footprint.done _
      | _ => exact Footprint.fail _

theorem footprint_dispatch (home : Value) (tokens : List Text) :
    (Builtin.dispatch home tokens).Footprint (Shell.scope [.isDir, .setPwd, .write] [.cwd]) := by
  simp only [Builtin.dispatch]
  cases Builtin.ofName? (tokens.headD []) with
  | none => exact Footprint.done _
  | some command =>
      refine Footprint.orElse ?_ fun e => ?_
      · cases command with
        | cd => exact widen (footprint_changeDirectory home _) rfl rfl rfl
        | exit => exact Footprint.done _
      · cases e.fileReport? with
        | none => exact Footprint.fail _
        | some r =>
            refine Footprint.bind (footprint_log (by decide)) fun _ => ?_
            exact Footprint.bind (footprint_ask rfl) fun _ => Footprint.done _

/-! ## Children -/

namespace Child

/-- What is done about a child that could not be made. -/
def unmade (e : Failure) : Action Int := do
  match e.reportOf? .forkFailed with
  | some r => say .debug (("fork failed: " : Text) ++ r.render) none []
  | none => pure ()
  fail e

/-- What is done about a child that was made. -/
def made (pid : Int) : Action Unit :=
  if 0 < pid then do
    update fun s => { s with foreground := some pid }
    say .debug "Spawned child" (some pid) []
  else pure ()

theorem spawn_eq :
    spawn = ((ask .fork).orElse unmade).bind fun pid => (made pid).bind fun _ => done pid := by
  have hmade : ∀ pid, ((made pid).bind fun _ => done pid) =
      if 0 < pid then (update fun s => { s with foreground := some pid } : Action Unit).bind fun _ =>
        (say .debug "Spawned child" (some pid) []).bind fun _ => done pid
      else done pid := by
    intro pid
    unfold made
    split <;> rfl
  simp only [hmade]
  rfl

/-- What is done about a child that was awaited. -/
def awaited (pid : Int) (outcome : WaitOutcome) : Action WaitOutcome := do
  let s ← state
  if outcome.reaped && s.foreground == some pid then
    update fun s => { s with foreground := none }
  if outcome.completed then
    say .debug "Child finished" (some pid) []
  else
    say .info "Child did not complete normally" (some pid) [("outcome", .text outcome.name)]
  return outcome

theorem wait_eq (pid : Int) (timeout : Value) :
    wait pid timeout = (ask (.waitpid pid timeout)).bind (awaited pid) := rfl

/-- Nothing is done about a child that was awaited but to forget it, when it is gone, and to say so. -/
theorem run_awaited {Call World : Type} {Reply : Call → Type}
    (carryOut : (c : ServiceCall) → Program Session Reply c.Reply)
    (answer : (c : Call) → World → Answer World Reply c) (pid : Int) (outcome : WaitOutcome)
    (s : Session) (w : World) :
    ∃ entry, ((awaited pid outcome).interpret carryOut).run answer s w =
      ⟨.returned outcome,
        { s with
          foreground := if outcome.reaped && s.foreground == some pid then none else s.foreground },
        w, [.logged entry]⟩ := by
  cases hgone : outcome.reaped && s.foreground == some pid <;> cases hcompleted : outcome.completed
  all_goals
    simp only [awaited, bind_eq_bind, pure_eq_done, interpret_bind, run_bind, interpret_state, run_state,
      Outcome.andThen, hgone, hcompleted]
    exact ⟨_, rfl⟩

end Child

theorem footprint_unmade (e : Failure) : (Child.unmade e).Footprint (Shell.scope [] []) := by
  unfold Child.unmade
  cases e.reportOf? .forkFailed with
  | none => exact Footprint.fail _
  | some r => exact Footprint.bind (footprint_childSay _ _ _ _) fun _ => Footprint.fail _

theorem footprint_made (pid : Int) : (Child.made pid).Footprint (Shell.scope [] [.foreground]) := by
  unfold Child.made
  split
  · refine Footprint.bind (footprint_setForeground _ rfl) fun _ => ?_
    exact footprint_childSay _ _ _ _
  · exact Footprint.done _

theorem footprint_spawn : Child.spawn.Footprint (Shell.scope [.fork] [.foreground]) := by
  rw [Child.spawn_eq]
  refine Footprint.bind (Footprint.orElse (footprint_ask rfl) fun e => ?_) fun pid => ?_
  · exact widen (footprint_unmade e) rfl rfl rfl
  · exact Footprint.bind (widen (footprint_made pid) rfl rfl rfl) fun _ => Footprint.done _

theorem footprint_resolve (name pwd searchPath : Text) :
    (Lookup.resolve Child.isFile name pwd searchPath).Footprint (Shell.scope [.fileExists] []) := by
  have hfirst : ∀ directories, (Lookup.firstFound Child.isFile name directories).Footprint
      (Shell.scope [.fileExists] []) := by
    intro directories
    induction directories with
    | nil => exact Footprint.done _
    | cons directory rest ih =>
        refine Footprint.bind (footprint_ask rfl) fun found => ?_
        split
        · exact Footprint.done _
        · exact ih
  unfold Lookup.resolve
  split
  · exact Footprint.done _
  · refine Footprint.bind (hfirst _) fun found => ?_
    cases found <;> exact Footprint.done _

theorem footprint_resolveProgram (name : Text) (mode : Child.SearchMode) :
    (Child.resolveProgram name mode).Footprint
      (Shell.scope [.getPwd, .getPath, .fileExists] []) := by
  cases mode with
  | literal => exact Footprint.done _
  | search =>
      refine Footprint.bind (footprint_ask rfl) fun pwd => ?_
      refine Footprint.bind (footprint_ask rfl) fun path => ?_
      exact widen (footprint_resolve _ _ _) rfl rfl rfl

theorem footprint_awaited (pid : Int) (outcome : WaitOutcome) :
    (Child.awaited pid outcome).Footprint (Shell.scope [] [.foreground]) := by
  simp only [Child.awaited, bind_eq_bind, pure_eq_done]
  refine Footprint.state_bind fun s => ?_
  have hreport : ∀ {completed : Prop} [Decidable completed],
      (if completed then
        (Child.say .debug "Child finished" (some pid) []).bind fun _ => done outcome
      else
        (Child.say .info "Child did not complete normally" (some pid)
          [("outcome", .text (WaitOutcome.name outcome))]).bind fun _ => done outcome).Footprint
        (Shell.scope [] [.foreground]) := by
    intro completed _
    split <;> exact Footprint.bind (footprint_childSay _ _ _ _) fun _ => Footprint.done _
  split
  · exact Footprint.bind (footprint_setForeground _ rfl) fun _ => hreport
  · exact hreport

section Bookkeeping

variable {World : Type} {answer : (c : ServiceCall) → World → Answer World ServiceCall.Reply c}
  {I : Assertion Session World ServiceCall.Reply}

/-- What depends neither on the foreground nor on log entries of the shell. -/
structure Child.Indifferent (I : Assertion Session World ServiceCall.Reply) : Prop where
  foreground : ∀ past s w child, I past s w → I past { s with foreground := child } w
  logged : ∀ entry, entry.subsystem ∈ Shell.subsystems → ∀ past s w, I past s w →
    I (past ++ [.logged entry]) s w

theorem Child.Indifferent.ensures_say (hI : Indifferent I) (level : Log.Level) (message : Text)
    (pid : Option Int) (context : Fields) :
    Ensures answer I (say level message pid context) (fun _ => I) (fun _ => Never) Never :=
  Ensures.log (hI.logged _ (show ("process" : Text) ∈ Shell.subsystems by decide))

/-- What was seen stays seen. -/
theorem Child.Indifferent.and_lasting (hI : Indifferent I) {P : List (Event ServiceCall.Reply) → Prop}
    (hP : Lasting P) : Indifferent fun past s w => P past ∧ I past s w where
  foreground past s w child h := ⟨h.1, hI.foreground past s w child h.2⟩
  logged entry hentry past s w h := ⟨hP past _ h.1, hI.logged entry hentry past s w h.2⟩

/-- What is done about a child that was made is never refused. -/
theorem Child.Indifferent.ensures_made (hI : Indifferent I) (pid : Int) :
    Ensures answer I (made pid) (fun _ => I) (fun _ => Never) Never := by
  unfold made
  split
  · refine Ensures.bind (m := fun _ => I) (Ensures.update fun _ _ _ h => hI.foreground _ _ _ _ h)
      fun _ => ?_
    exact hI.ensures_say _ _ _ _
  · exact Ensures.done fun _ _ _ h => h

/-- What is done about a child that was awaited is never refused. -/
theorem Child.Indifferent.ensures_awaited (hI : Indifferent I) (pid : Int) (outcome : WaitOutcome) :
    Ensures answer I (awaited pid outcome) (fun _ => I) (fun _ => Never) Never := by
  simp only [awaited, bind_eq_bind, pure_eq_done]
  refine Ensures.state_bind fun s => Ensures.weaken ?_ fun _ _ _ h => h.2
  have hreport : ∀ {completed : Prop} [Decidable completed], Ensures answer I
      (if completed then (say .debug "Child finished" (some pid) []).bind fun _ => done outcome
        else (say .info "Child did not complete normally" (some pid)
          [("outcome", .text (WaitOutcome.name outcome))]).bind fun _ => done outcome)
      (fun _ => I) (fun _ => Never) Never := by
    intro completed _
    split <;> exact Ensures.bind (hI.ensures_say _ _ _ _) fun _ => Ensures.done fun _ _ _ h => h
  split
  · exact Ensures.bind (m := fun _ => I) (Ensures.update fun _ _ _ h => hI.foreground _ _ _ _ h)
      fun _ => hreport
  · exact hreport

end Bookkeeping

theorem footprint_wait (pid : Int) (timeout : Value) :
    (Child.wait pid timeout).Footprint (Shell.scope [.waitpid] [.foreground]) := by
  rw [Child.wait_eq]
  exact Footprint.bind (footprint_ask rfl) fun outcome =>
    widen (footprint_awaited pid outcome) rfl rfl rfl

theorem footprint_replaceProgram (argv : List Text) (mode : Child.SearchMode) :
    (Child.replaceProgram argv mode).Footprint
      (Shell.scope [.getPid, .getPwd, .getPath, .fileExists, .exec] []) := by
  refine Footprint.bind (footprint_ask rfl) fun pid => ?_
  cases argv with
  | nil => exact Footprint.fail _
  | cons name rest =>
      refine Footprint.bind (widen (footprint_resolveProgram name mode) rfl rfl rfl) fun path => ?_
      refine Footprint.bind (footprint_childSay _ _ _ _) fun _ => ?_
      refine Footprint.bind (Footprint.orElse (footprint_ask rfl) fun e => ?_) fun _ =>
        Footprint.fail _
      cases e.reportOf? .execFailed with
      | none => exact Footprint.fail _
      | some r => exact Footprint.bind (footprint_childSay _ _ _ _) fun _ => Footprint.fail _

theorem footprint_terminate (status : Value) :
    (Child.terminate status).Footprint (Shell.scope [.getPid, .exit] []) := by
  refine Footprint.bind (footprint_ask rfl) fun pid => ?_
  exact Footprint.bind (footprint_childSay _ _ _ _) fun _ => footprint_ask rfl

namespace Shell

variable (shell : Shell)

theorem footprint_print (text : Text) : (print text).Footprint (scope [.write] []) := footprint_ask rfl

theorem footprint_becomeCommand (tokens : List Text) :
    (shell.becomeCommand tokens).Footprint
      (scope [.getPid, .getPwd, .getPath, .fileExists, .exec, .write, .exit] []) := by
  refine Footprint.andFinally (Footprint.orElse ?_ fun e => ?_) ?_
  · exact widen (footprint_replaceProgram tokens .search) rfl rfl rfl
  · cases e.reportOf? .execFailed with
    | none => exact Footprint.fail _
    | some r => exact widen (footprint_print _) rfl rfl rfl
  · exact widen (footprint_terminate _) rfl rfl rfl

theorem footprint_spawnOrReport :
    spawnOrReport.Footprint (scope [.fork, .write] [.foreground]) := by
  refine Footprint.bind (widen footprint_spawn rfl rfl rfl).attempt fun outcome => ?_
  cases outcome with
  | ok pid => exact Footprint.done _
  | error e =>
      dsimp only
      cases e.reportOf? .forkFailed with
      | none => exact Footprint.fail _
      | some r =>
          exact Footprint.bind (widen (footprint_print _) rfl rfl rfl) fun _ => Footprint.done _

theorem footprint_runInChild (tokens : List Text) :
    (shell.runInChild tokens).Footprint
      (scope [.fork, .waitpid, .getPid, .getPwd, .getPath, .fileExists, .exec, .write, .exit]
        [.foreground]) := by
  refine Footprint.bind (widen footprint_spawnOrReport rfl rfl rfl) fun child => ?_
  cases child with
  | none => exact Footprint.done _
  | some pid =>
      simp only [bind_eq_bind, pure_eq_done]
      have hwait := Footprint.bind (widen (footprint_wait pid shell.waitTimeout) rfl rfl rfl) fun _ =>
        Footprint.done (S := scope [.fork, .waitpid, .getPid, .getPwd, .getPath, .fileExists,
          .exec, .write, .exit] [.foreground]) true
      split
      · exact Footprint.bind (widen (shell.footprint_becomeCommand tokens) rfl rfl rfl) fun _ => hwait
      · exact hwait

/-! ## The lines of a source -/

theorem footprint_prompt : shell.prompt.Footprint (scope [.write] []) := by
  refine Footprint.state_bind fun s => ?_
  cases shell.promptSuffix with
  | text suffix => exact footprint_print _
  | _ => exact Footprint.fail _

theorem footprint_announce (interactive : Bool) :
    (shell.announce interactive).Footprint (scope [.write] []) := by
  cases interactive with
  | true => exact shell.footprint_prompt
  | false => exact Footprint.done _

/-- Tokenizing replaces the line by one of the same size. -/
theorem footprint_tokenize (chunk : Bytes) :
    (shell.tokenize chunk).Footprint (scope [] [.line]) := by
  intro s
  simp only [tokenize, bind_eq_bind]
  refine Within.state_bind (Within.ofExcept_bind fun loaded hfill => ?_)
  obtain ⟨count, filled⟩ := loaded
  have hstripped := (LineBuffer.sameSize_fill hfill).trans filled.sameSize_stripNewline
  refine Within.update_bind ⟨fun part hpart => ?_, hstripped⟩ ?_
  · cases part <;> simp_all [Session.Part.Same]
  dsimp only
  cases htokenize : filled.stripNewline.tokenize shell.marker with
  | error e => trivial
  | ok split =>
      obtain ⟨vector, split⟩ := split
      refine Within.update_bind ⟨fun part hpart => ?_, LineBuffer.sameSize_tokenize htokenize⟩ ?_
      · cases part <;> simp_all [Session.Part.Same]
      · exact Footprint.ofExcept _ _

/-- What a read of a source came to. -/
def readingOf (interactive : Bool) (fd : Int) : Except Failure Bytes → Action Reading
  | .ok [] => return .exhausted
  | .ok chunk => return .line chunk
  | .error .interrupt =>
    if interactive then do
      print "\n"
      return .interrupted
    else fail .interrupt
  | .error (.os errno text) => do
    say .error (("Read failed: " : Text) ++ Failure.osMessage errno text) [("fd", .int fd)]
    return .exhausted
  | .error e => fail e

theorem readLine_eq (interactive : Bool) (fd offset : Int) :
    readLine interactive fd offset =
      state.bind fun s => (ask (.readLine fd offset s.line.size)).attempt.bind
        (readingOf interactive fd) := by
  simp only [readLine, bind_eq_bind]
  congr 1
  funext s
  congr 1
  funext outcome
  rcases outcome with e | chunk
  · cases e <;> rfl
  · cases chunk <;> rfl

theorem footprint_readingOf (interactive : Bool) (fd : Int) (outcome : Except Failure Bytes) :
    (readingOf interactive fd outcome).Footprint (scope [.write] []) := by
  rcases outcome with e | chunk
  · cases e with
    | interrupt =>
        cases interactive with
        | true =>
            exact Footprint.bind (widen (footprint_print _) rfl rfl rfl) fun _ => Footprint.done _
        | false => exact Footprint.fail _
    | os errno text => exact Footprint.bind (footprint_say _ _ _) fun _ => Footprint.done _
    | _ => exact Footprint.fail _
  · cases chunk <;> exact Footprint.done _

theorem footprint_readLine (interactive : Bool) (fd offset : Int) :
    (readLine interactive fd offset).Footprint (scope [.readLine, .write] []) := by
  rw [readLine_eq]
  refine Footprint.state_bind fun s => ?_
  refine Footprint.bind (Footprint.attempt (footprint_ask rfl)) fun outcome => ?_
  exact widen (footprint_readingOf interactive fd outcome) rfl rfl rfl

/-- The services that running the lines of a source may call. -/
def sourceServices : List ServiceCall.Name :=
  [.readLine, .write, .isDir, .setPwd, .fork, .waitpid, .getPid, .getPwd, .getPath, .fileExists,
    .exec, .exit]

theorem footprint_follow (interactive : Bool) (tokens : List Text) (verdict : Builtin.Verdict) :
    (shell.follow interactive tokens verdict).Footprint
      (scope [.fork, .waitpid, .getPid, .getPwd, .getPath, .fileExists, .exec, .write, .exit]
        [.foreground]) := by
  cases verdict with
  | exit => exact Footprint.done _
  | handled => exact Footprint.done _
  | notBuiltin =>
      refine Footprint.bind (shell.footprint_runInChild tokens) fun made => ?_
      cases made <;> exact Footprint.done _

/-- The services that running the command of a line may call. -/
def lineServices : List ServiceCall.Name :=
  [.write, .isDir, .setPwd, .fork, .waitpid, .getPid, .getPwd, .getPath, .fileExists, .exec, .exit]

/-- The command of a line is run without reading any further. -/
theorem footprint_command (interactive : Bool) (chunk : Bytes) :
    (shell.runLine (Builtin.dispatch shell.home) interactive chunk).Footprint
      (scope lineServices [.cwd, .foreground, .line]) := by
  refine Footprint.bind (widen (shell.footprint_tokenize chunk) rfl rfl rfl) fun tokens => ?_
  refine Footprint.bind (widen (footprint_dispatch shell.home tokens) rfl rfl rfl) fun verdict => ?_
  exact widen (shell.footprint_follow interactive tokens verdict) rfl rfl rfl

theorem footprint_runLine (interactive : Bool) (chunk : Bytes) :
    (shell.runLine (Builtin.dispatch shell.home) interactive chunk).Footprint
      (scope sourceServices [.cwd, .foreground, .line]) :=
  widen (shell.footprint_command interactive chunk) rfl rfl rfl

theorem footprint_runFrom (fd : Int) (interactive : Bool) (rounds : Nat) (offset : Int) :
    (shell.runFrom (Builtin.dispatch shell.home) fd interactive rounds offset).Footprint
      (scope sourceServices [.cwd, .foreground, .line] true) := by
  induction rounds generalizing offset with
  | zero => exact Footprint.outOfRounds rfl
  | succ rounds ih =>
      refine Footprint.bind (widen (shell.footprint_announce interactive) rfl rfl rfl) fun _ => ?_
      refine Footprint.bind (widen (footprint_readLine interactive fd offset) rfl rfl rfl)
        fun reading => ?_
      cases reading with
      | exhausted => exact Footprint.done _
      | interrupted => exact ih offset
      | line chunk =>
          refine Footprint.bind (widen (shell.footprint_runLine interactive chunk) rfl rfl rfl)
            fun next => ?_
          cases next with
          | leaveAll => exact Footprint.done _
          | leaveSource => exact Footprint.done _
          | goOn => exact ih _

/-! ## Scripts -/

/-- What asking for the file of a script comes to. -/
def openedAs : Except Failure Int → Action (Option Int)
  | .ok fd => done (some fd)
  | .error e =>
    match e.reportOf? .fileNotFound with
    | some r => (say .debug (("Skipping script: " : Text) ++ r.render)).bind fun _ => done none
    | none => fail e

theorem openScript_eq (path : Text) :
    openScript path = (ask (.openReadOnly path)).attempt.bind openedAs := by
  simp only [openScript, bind_eq_bind]
  congr 1
  funext outcome
  cases outcome <;> rfl

theorem footprint_openedAs (outcome : Except Failure Int) : (openedAs outcome).Footprint (scope [] []) := by
  cases outcome with
  | ok fd => exact Footprint.done _
  | error e =>
      dsimp only [openedAs]
      cases e.reportOf? .fileNotFound with
      | none => exact Footprint.fail _
      | some r => exact Footprint.bind (footprint_say _ _ _) fun _ => Footprint.done _

theorem footprint_openScript (path : Text) :
    (openScript path).Footprint (scope [.openReadOnly] []) := by
  rw [openScript_eq]
  exact Footprint.bind (Footprint.attempt (footprint_ask rfl)) fun outcome =>
    widen (footprint_openedAs outcome) rfl rfl rfl

theorem footprint_runSource (rounds : Nat) (fd : Int) (interactive : Bool) :
    (shell.runSource rounds fd interactive).Footprint
      (scope sourceServices [.cwd, .foreground, .line] true) :=
  shell.footprint_runFrom fd interactive rounds 0

/-- What is done about a script that was looked up and asked for. -/
def afterOpening (rounds : Nat) (path : Text) : Option Int → Action Bool
  | none => done true
  | some fd => (say .debug (("Running script " : Text) ++ path) [("fd", .int fd)]).bind fun _ =>
      (shell.runSource rounds fd false).andFinally (ask (.close fd))

theorem runScript_eq (rounds : Nat) (script : Text) : shell.runScript rounds script =
    (state : Action Session).bind fun s => (ask .getPath).bind fun searchPath =>
      (Lookup.resolve Child.isFile script s.cwd searchPath).bind fun path =>
        (openScript path).bind (shell.afterOpening rounds path) := rfl

theorem footprint_afterOpening (rounds : Nat) (path : Text) (opened : Option Int) :
    (shell.afterOpening rounds path opened).Footprint
      (scope (.close :: sourceServices) [.cwd, .foreground, .line] true) := by
  cases opened with
  | none => exact Footprint.done _
  | some fd =>
      refine Footprint.bind (footprint_say _ _ _) fun _ => ?_
      exact Footprint.andFinally (widen (shell.footprint_runSource rounds fd false) rfl rfl rfl)
        (footprint_ask rfl)

/-- The services that running a script may call. -/
def scriptServices : List ServiceCall.Name := .openReadOnly :: .close :: sourceServices

theorem footprint_runScript (rounds : Nat) (script : Text) :
    (shell.runScript rounds script).Footprint
      (scope scriptServices [.cwd, .foreground, .line] true) := by
  rw [runScript_eq]
  refine Footprint.state_bind fun s => ?_
  refine Footprint.bind (footprint_ask rfl) fun searchPath => ?_
  refine Footprint.bind (widen (footprint_resolve _ _ _) rfl rfl rfl) fun path => ?_
  refine Footprint.bind (widen (footprint_openScript path) rfl rfl rfl) fun opened => ?_
  exact widen (shell.footprint_afterOpening rounds path opened) rfl rfl rfl

theorem footprint_runScripts (rounds : Nat) (scripts : List Text) :
    (shell.runScripts rounds scripts).Footprint
      (scope scriptServices [.cwd, .foreground, .line] true) := by
  induction scripts with
  | nil => exact Footprint.done _
  | cons script rest ih =>
      refine Footprint.bind (shell.footprint_runScript rounds script) fun goOn => ?_
      split
      · exact ih
      · exact Footprint.done _

theorem footprint_publishCwd : publishCwd.Footprint (scope [.setPwd] []) := by
  refine Footprint.state_bind fun s => ?_
  refine Footprint.orElse (footprint_ask rfl) fun e => ?_
  cases e.reportOf? .notADirectory with
  | none => exact Footprint.fail _
  | some r => exact footprint_say _ _ _

theorem footprint_run (rounds : Nat) (scripts : List Text) :
    (shell.run rounds scripts).Footprint
      (scope scriptServices [.cwd, .foreground, .line] true) := by
  refine Footprint.bind (widen footprint_publishCwd rfl rfl rfl) fun _ => ?_
  refine Footprint.orElse ?_ fun e => ?_
  · refine Footprint.bind (shell.footprint_runScripts rounds scripts) fun goOn => ?_
    split
    · refine Footprint.bind (widen (shell.footprint_runSource rounds _ true) rfl rfl rfl) fun _ => ?_
      exact Footprint.done _
    · exact Footprint.done _
  · cases e with
    | interrupt =>
        refine Footprint.bind (footprint_say _ _ _) fun _ => ?_
        exact Footprint.bind (widen (footprint_print _) rfl rfl rfl) fun _ => Footprint.done _
    | _ => exact Footprint.fail _

end Shell

end LineShell
