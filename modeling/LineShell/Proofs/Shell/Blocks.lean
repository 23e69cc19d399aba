import LineShell.Proofs.Shell.Exit
import LineShell.Proofs.Shell.Lookup

/-!
# The calls of a source, block by block

Without faults the calls that running a source makes are a sequence of blocks, one for each line.  A
block starts with the prompt, if somebody is asked, and with the read of a line, and what comes behind
depends on the line alone and on two answers: a change of directory asks whether the target is one and
publishes it or complains, `exit` does nothing, and any other command makes a child and waits for it.
In the child the calls are those that become the command and end the process.

`Loop.Block` says which calls stand behind the read of a line that is followed by another one,
`Loop.LastBlock` which stand behind the last one, and `Loop.Blocks` puts them together.  `Seen` is what
holds between two steps: the calls so far, and what the next ones depend on.

The main result is `Shell.runSource_blocks`.
-/

namespace LineShell

open Program LineShell.Action

/-- The calls among the events. -/
def calls (events : List (Event ServiceCall.Reply)) : List (Event ServiceCall.Reply) :=
  events.filter fun
    | .called .. => true
    | .logged _ => false

theorem calls_append (events more : List (Event ServiceCall.Reply)) :
    calls (events ++ more) = calls events ++ calls more := List.filter_append ..

/-- What stays the same while the lines of a source are run: a shell with texts for its settings, a
buffer that can be used, the source, and the answers of the world that the calls depend on. -/
structure Loop where
  shell : Shell
  suffix : Text
  home : Text
  buffer : LineBuffer
  fd : Int
  content : Bytes
  interactive : Bool
  files : List (Text × Bytes)
  dirs : List Text
  searchPath : Text
  exitReturns : Bool
  suffix_eq : shell.promptSuffix = .text suffix
  home_eq : shell.home = .text home
  sized : buffer.Sized

namespace Loop

variable (r : Loop)

/-! ## Blocks -/

/-- The tokens of a line, where lines can be split. -/
def tokens (line : Bytes) : List Text := Line.tokens (UInt8.ofNat r.shell.marker.val) line

/-- The built-in command that a line names. -/
def command? (line : Bytes) : Option Builtin := Builtin.ofName? ((r.tokens line).headD [])

/-- Where a change of directory leads to. -/
def target (cwd : Text) (line : Bytes) : Text :=
  match (r.tokens line).tail with
  | [] => r.home
  | path :: _ => Lookup.absolute path cwd

/-- The prompt, which is shown where somebody is asked. -/
def prompt (cwd : Text) : List (Event ServiceCall.Reply) :=
  if r.interactive then [.called (.write standardOutput (cwd ++ r.suffix)) (.ok ())] else []

/-- The calls that read the line at an offset. -/
def reading (cwd : Text) (offset : Nat) (line : Bytes) : List (Event ServiceCall.Reply) :=
  r.prompt cwd ++ [.called (.readLine r.fd offset r.buffer.size) (.ok line)]

/-- The line at an offset. -/
def lineAt (offset : Nat) : Bytes := InMemory.lineAt r.content offset r.buffer.capacity

/-- Whether a path names a file. -/
def isFile (path : Text) : Bool := (r.files.lookup path).isSome

/-- What a child meets on its way to the command. -/
structure Descent where
  /-- The working directory that the services tell it. -/
  pwd : Text
  /-- The paths it looks at. -/
  lookups : List Text
  /-- What becoming the command comes to. -/
  executed : Except Failure Unit

/-- Looking at some paths. -/
def looking (paths : List Text) : List (Event ServiceCall.Reply) :=
  paths.map fun path => .called (.fileExists path) (.ok (r.isFile path))

/-- The path of the command of a line. -/
def programPath (line : Bytes) (pwd : Text) : Text :=
  Lookup.pathWhere r.isFile ((r.tokens line).headD []) pwd r.searchPath

/-- The calls that look a command up and execute it. -/
def descent (line : Bytes) (d : Descent) : List (Event ServiceCall.Reply) :=
  [.called .getPid (.ok InMemory.pid), .called .getPwd (.ok d.pwd),
      .called .getPath (.ok r.searchPath)] ++
    r.looking d.lookups ++
    [.called (.exec (r.programPath line d.pwd) (r.tokens line)) d.executed]

/-- The calls of a child: becoming the command comes back only if it could not be done, which the user
is told, and then the process ends. -/
def childCalls (line : Bytes) (d : Descent) (exited : Except Failure Unit) :
    List (Event ServiceCall.Reply) :=
  r.descent line d ++ [.called (.write standardOutput "could not exec\n") (.ok ()),
    .called .getPid (.ok InMemory.pid), .called (.exit r.shell.execFailureStatus) exited]

/-- The calls behind the read of a line that is followed by another one, and where the shell is then. -/
inductive Block (cwd : Text) (line : Bytes) : List (Event ServiceCall.Reply) → Text → Prop where
  /-- The working directory is changed. -/
  | moved (hsplit : r.shell.marker.val < 256) (hcommand : r.command? line = some .cd)
      (hdir : r.dirs.contains (r.target cwd line) = true) :
      Block cwd line [.called (.isDir (.text (r.target cwd line))) (.ok true),
        .called (.setPwd (r.target cwd line)) (.ok ())] (r.target cwd line)
  /-- There is no such directory. -/
  | refused (hsplit : r.shell.marker.val < 256) (hcommand : r.command? line = some .cd)
      (hdir : r.dirs.contains (r.target cwd line) = false) :
      Block cwd line [.called (.isDir (.text (r.target cwd line))) (.ok false),
        .called (.write standardOutput ("no such directory: " ++ r.target cwd line ++ "\n")) (.ok ())] cwd
  /-- A child is made and waited for at once. -/
  | ran (hsplit : r.shell.marker.val < 256) (hcommand : r.command? line = none) {pid : Int}
      (hpid : pid ≠ 0) (outcome : WaitOutcome) :
      Block cwd line [.called .fork (.ok pid),
        .called (.waitpid pid r.shell.waitTimeout) (.ok outcome)] cwd
  /-- This is the child, and ending the process came back. -/
  | survived (hsplit : r.shell.marker.val < 256) (hcommand : r.command? line = none)
      (hexit : r.exitReturns = true) (d : Descent) (outcome : WaitOutcome) :
      Block cwd line (.called .fork (.ok (0 : Int)) :: r.childCalls line d (.ok ()) ++
        [.called (.waitpid 0 r.shell.waitTimeout) (.ok outcome)]) cwd

/-- The calls behind the read of the last line, and how the run ends. -/
inductive LastBlock (line : Bytes) : List (Event ServiceCall.Reply) → Ending Bool → Prop where
  /-- The line is `exit`. -/
  | exit (hsplit : r.shell.marker.val < 256) (hcommand : r.command? line = some .exit) :
      LastBlock line [] (.returned false)
  /-- This is the child. -/
  | child (hsplit : r.shell.marker.val < 256) (hcommand : r.command? line = none)
      (hexit : r.exitReturns = false) (d : Descent) :
      LastBlock line (.called .fork (.ok (0 : Int)) ::
          r.childCalls line d (.error (.exit r.shell.execFailureStatus)))
        (.failed (.exit r.shell.execFailureStatus))
  /-- The marker is no byte, so that no line can be split. -/
  | unsplit (hsplit : ¬r.shell.marker.val < 256) : LastBlock line [] (.failed Shell.refusal)

/-- The calls from an offset on, where the shell is in a directory, and how the run ends. -/
inductive Blocks : Text → Nat → List (Event ServiceCall.Reply) → Ending Bool → Prop where
  /-- The source is at its end. -/
  | exhausted {cwd : Text} {offset : Nat} (hend : r.content.drop offset = []) :
      Blocks cwd offset (r.reading cwd offset []) (.returned true)
  /-- One line is followed by another one. -/
  | next {cwd there : Text} {offset : Nat} {more later : List (Event ServiceCall.Reply)}
      {ending : Ending Bool} (hline : r.lineAt offset ≠ [])
      (hblock : r.Block cwd (r.lineAt offset) more there)
      (hrest : Blocks there (offset + (r.lineAt offset).length) later ending) :
      Blocks cwd offset (r.reading cwd offset (r.lineAt offset) ++ more ++ later) ending
  /-- The last line. -/
  | last {cwd : Text} {offset : Nat} {more : List (Event ServiceCall.Reply)} {ending : Ending Bool}
      (hline : r.lineAt offset ≠ []) (hblock : r.LastBlock (r.lineAt offset) more ending) :
      Blocks cwd offset (r.reading cwd offset (r.lineAt offset) ++ more) ending

/-! ## Steps -/

/-- A world without faults in which calls are answered as in the loop. -/
structure Answers (w : InMemory) : Prop where
  faults : w.faults = []
  source : w.sources.lookup r.fd = some r.content
  files : w.files = r.files
  dirs : w.dirs = r.dirs
  searchPath : w.path = r.searchPath
  exitReturns : w.exitReturns = r.exitReturns

/-- What holds between two steps: the calls so far, where the shell is, and what stays the same. -/
structure Seen (cwd : Text) (seen past : List (Event ServiceCall.Reply)) (s : Session)
    (w : InMemory) : Prop where
  calls : calls past = seen
  place : s.cwd = cwd
  buffer : r.buffer.SameSize s.line
  answers : r.Answers w

variable {r} {cwd : Text} {seen past : List (Event ServiceCall.Reply)} {s t : Session} {w : InMemory}
  {offset : Nat} {line : Bytes}

theorem Seen.logged (entry : Log.Entry) (h : r.Seen cwd seen past s w) :
    r.Seen cwd seen (past ++ [.logged entry]) s w := by
  refine { h with calls := ?_ }
  rw [calls_append, h.calls]
  exact List.append_nil _

theorem indifferent_seen : Child.Indifferent (r.Seen cwd seen) where
  foreground _ _ _ _ h := { h with }
  logged entry _ _ _ _ h := h.logged entry

/-- The services that neither open nor close a source. -/
def steadyServices : List ServiceCall.Name :=
  [.readLine, .write, .fileExists, .isDir, .getPwd, .setPwd, .getPath, .getPid, .fork, .exec,
    .waitpid, .exit]

theorem Answers.serve {c : ServiceCall} (hc : steadyServices.contains c.name) (h : r.Answers w) :
    r.Answers (w.serve c).2 where
  faults := (InMemory.serve_faults c w).trans h.faults
  source := by
    have hopen : c.name ≠ .openReadOnly := Shell.name_ne_of_mem hc rfl
    have hclose : c.name ≠ .close := Shell.name_ne_of_mem hc rfl
    rw [InMemory.serve_sources hopen hclose]
    exact h.source
  files := (InMemory.serve_files c w).trans h.files
  dirs := (InMemory.serve_dirs c w).trans h.dirs
  searchPath := (InMemory.serve_path c w).trans h.searchPath
  exitReturns := (InMemory.serve_exitReturns c w).trans h.exitReturns

/-- A call comes to what it comes to in each such world. -/
theorem ensures_ask {c : ServiceCall} (hc : steadyServices.contains c.name) {P : c.Reply → Prop}
    {Q : Failure → Prop}
    (hok : ∀ (w : InMemory) reply, r.Answers w → (w.serve c).1 = .ok reply → P reply)
    (herror : ∀ (w : InMemory) e, r.Answers w → (w.serve c).1 = .error e → Q e) :
    Ensures InMemory.answer (r.Seen cwd seen) (ask c)
      (fun reply past s w => P reply ∧ r.Seen cwd (seen ++ [.called c (.ok reply)]) past s w)
      (fun e past s w => Q e ∧ r.Seen cwd (seen ++ [.called c (.error e)]) past s w) Never := by
  have hseen : ∀ {past s w} (outcome : Except Failure c.Reply), r.Seen cwd seen past s w →
      r.Seen cwd (seen ++ [.called c outcome]) (past ++ [.called c outcome]) s (w.serve c).2 := by
    intro past s w outcome h
    refine ⟨?_, h.place, h.buffer, h.answers.serve hc⟩
    rw [calls_append, h.calls]
    rfl
  apply Ensures.request_alone (InMemory.answer_inner _)
  · intro past s w reply h hreply
    rw [InMemory.answer_of_faults_nil h.answers.faults] at hreply ⊢
    exact ⟨hok w reply h.answers hreply, hseen _ h⟩
  · intro past s w e h he
    rw [InMemory.answer_of_faults_nil h.answers.faults] at he ⊢
    exact ⟨herror w e h.answers he, hseen _ h⟩

/-- A call that never fails. -/
theorem ensures_served {c : ServiceCall} (hc : steadyServices.contains c.name) {P : c.Reply → Prop}
    (hserve : ∀ w : InMemory, r.Answers w → ∃ reply, (w.serve c).1 = .ok reply ∧ P reply) :
    Ensures InMemory.answer (r.Seen cwd seen) (ask c)
      (fun reply past s w => P reply ∧ r.Seen cwd (seen ++ [.called c (.ok reply)]) past s w)
      (fun _ => Never) Never := by
  refine (ensures_ask hc (P := P) (Q := fun _ => False) (fun w reply h hreply => ?_)
    fun w e h he => ?_).mono_fails fun _ _ _ _ h => h.1
  · obtain ⟨other, hother, hP⟩ := hserve w h
    rw [hreply] at hother
    cases hother
    exact hP
  · obtain ⟨other, hother, -⟩ := hserve w h
    rw [he] at hother
    cases hother

theorem ensures_log (entry : Log.Entry) :
    Ensures InMemory.answer (r.Seen cwd seen) (Program.log entry) (fun _ => r.Seen cwd seen)
      (fun _ => Never) Never := Ensures.log fun _ _ _ h => h.logged entry

theorem ensures_print (text : Text) :
    Ensures InMemory.answer (r.Seen cwd seen) (Shell.print text)
      (fun _ => r.Seen cwd (seen ++ [.called (.write standardOutput text) (.ok ())]))
      (fun _ => Never) Never :=
  (ensures_served (c := .write standardOutput text) (P := fun _ => True) rfl fun _ _ =>
    ⟨(), rfl, trivial⟩).mono_returns fun _ _ _ _ h => h.2

theorem ensures_announce :
    Ensures InMemory.answer (r.Seen cwd seen) (r.shell.announce r.interactive)
      (fun _ => r.Seen cwd (seen ++ r.prompt cwd)) (fun _ => Never) Never := by
  unfold prompt
  cases r.interactive with
  | false =>
      rw [if_neg Bool.false_ne_true, List.append_nil]
      exact Ensures.done fun _ _ _ h => h
  | true =>
      refine Ensures.state_bind fun s => ?_
      rw [r.suffix_eq]
      intro past t w h
      obtain ⟨rfl, hseen⟩ := h
      rw [hseen.place]
      exact ensures_print _ past t w hseen

/-- A read brings the line at the offset, which is empty only at the end of the source. -/
theorem ensures_readLine :
    Ensures InMemory.answer (r.Seen cwd seen) (Shell.readLine r.interactive r.fd offset)
      (fun reading past s w =>
        match reading with
        | .exhausted => r.content.drop offset = [] ∧
            r.Seen cwd (seen ++ [.called (.readLine r.fd offset r.buffer.size) (.ok [])]) past s w
        | .interrupted => False
        | .line line => (line = r.lineAt offset ∧ line ≠ []) ∧
            r.Seen cwd (seen ++ [.called (.readLine r.fd offset r.buffer.size) (.ok line)]) past s w)
      (fun _ => Never) Never := by
  have hpos : (0 : Int) < r.buffer.capacity := Int.natCast_pos.mpr r.sized.pos
  rw [Shell.readLine_eq]
  refine Ensures.state_bind fun s => ?_
  by_cases hsize : s.line.size = r.buffer.size
  · rw [hsize]
    refine Ensures.weaken ?_ fun past t w h => h.2
    have hread : Ensures InMemory.answer (r.Seen cwd seen)
        (ask (.readLine r.fd offset r.buffer.size))
        (fun (line : Bytes) past s w => line = r.lineAt offset ∧
          r.Seen cwd (seen ++ [.called (.readLine r.fd offset r.buffer.size) (.ok line)]) past s w)
        (fun _ => Never) Never := by
      refine ensures_served rfl fun w h => ⟨r.lineAt offset, ?_, rfl⟩
      simp only [InMemory.serve, h.source, r.sized.size]
      rfl
    refine Ensures.bind hread.attempt fun outcome => ?_
    cases outcome with
    | error e => exact fun _ _ _ h => h.elim
    | ok line =>
        refine Ensures.and_pre fun hline => ?_
        cases line with
        | nil =>
            refine Ensures.done fun past t w h => ⟨?_, h⟩
            -- a line is empty only at the end of the source
            have hend := (InMemory.lineAt_eq_nil_iff hpos).mp hline.symm
            rwa [Int.toNat_natCast] at hend
        | cons byte rest => exact Ensures.done fun _ _ _ h => ⟨⟨hline, List.cons_ne_nil _ _⟩, h⟩
  · rintro past t w ⟨rfl, h⟩
    exact absurd h.buffer.size hsize

/-! ## Changing the directory -/

theorem target_eq :
    Builtin.target r.shell.home cwd (r.tokens line).tail = .text (r.target cwd line) := by
  unfold target
  cases (r.tokens line).tail with
  | nil => exact r.home_eq
  | cons path rest => rfl

/-- A change of directory is made or refused, and the line is done with. -/
theorem ensures_cd (hsplit : r.shell.marker.val < 256) (hcommand : r.command? line = some .cd) :
    Ensures InMemory.answer (r.Seen cwd seen) (Builtin.dispatch r.shell.home (r.tokens line))
      (fun verdict past s w => verdict = .handled ∧ ∃ more there, r.Block cwd line more there ∧
        r.Seen there (seen ++ more) past s w) (fun _ => Never) Never := by
  have hname : Builtin.ofName? ((r.tokens line).headD []) = some .cd := hcommand
  simp only [Builtin.dispatch, hname]
  let isDir (found : Bool) : Event ServiceCall.Reply :=
    .called (.isDir (.text (r.target cwd line))) (.ok found)
  -- only a refused target is a failure, and it is reported behind the question
  refine Ensures.orElse (m := fun e past s w => e = .notADirectory (.text (r.target cwd line)) [] ∧
    r.dirs.contains (r.target cwd line) = false ∧ r.Seen cwd (seen ++ [isDir false]) past s w) ?_
    fun e => Ensures.and_pre fun he => ?_
  · refine Ensures.state_bind fun s => ?_
    by_cases hcwd : s.cwd = cwd
    · rw [hcwd, target_eq]
      refine Ensures.weaken ?_ fun past t w h => h.2
      have hasked : Ensures InMemory.answer (r.Seen cwd seen)
          (ask (.isDir (.text (r.target cwd line))))
          (fun (found : Bool) past s w => r.dirs.contains (r.target cwd line) = found ∧
            r.Seen cwd (seen ++ [isDir found]) past s w) (fun _ => Never) Never :=
        ensures_served rfl fun w h => ⟨r.dirs.contains (r.target cwd line), by
          simp only [InMemory.serve, h.dirs], rfl⟩
      refine Ensures.bind (hasked.mono_fails fun _ _ _ _ h => h.elim) fun found =>
        Ensures.and_pre fun hfound => ?_
      cases found with
      | false => exact Ensures.fail fun _ _ _ h => ⟨rfl, hfound, h⟩
      | true =>
          have hset : Ensures InMemory.answer (r.Seen cwd (seen ++ [isDir true]))
              (ask (.setPwd (r.target cwd line)))
              (fun reply past s w => True ∧ r.Seen cwd (seen ++ [isDir true] ++
                [.called (.setPwd (r.target cwd line)) (.ok reply)]) past s w)
              (fun _ => Never) Never :=
            ensures_served rfl fun w h => ⟨(), by
              simp only [InMemory.serve, h.dirs, hfound]; rfl, trivial⟩
          refine Ensures.bind (hset.mono_fails fun _ _ _ _ h => h.elim) fun _ => ?_
          refine Ensures.bind (m := fun _ => r.Seen (r.target cwd line) (seen ++ [isDir true] ++
              [.called (.setPwd (r.target cwd line)) (.ok ())]))
            (Ensures.update fun _ _ _ h => { h.2 with place := rfl }) fun _ => ?_
          refine Ensures.bind ((ensures_log _).mono_fails fun _ _ _ _ h => h.elim) fun _ => ?_
          refine Ensures.done fun past s w h => ⟨rfl, _, _, .moved hsplit hcommand hfound, ?_⟩
          rwa [List.append_assoc] at h
    · rintro past t w ⟨rfl, h⟩
      exact absurd h.place hcwd
  · subst he
    refine Ensures.and_pre fun hdir => ?_
    refine Ensures.bind (ensures_log _) fun _ => ?_
    refine Ensures.bind (ensures_print _) fun _ => ?_
    refine Ensures.done fun past s w h => ⟨rfl, _, _, .refused hsplit hcommand hdir, ?_⟩
    rwa [List.append_assoc] at h

/-! ## Children -/

theorem ensures_looking (name pwd : Text) :
    Ensures InMemory.answer (r.Seen cwd seen) (Lookup.resolve Child.isFile name pwd r.searchPath)
      (fun path past s w => path = Lookup.pathWhere r.isFile name pwd r.searchPath ∧
        ∃ lookups, r.Seen cwd (seen ++ r.looking lookups) past s w) (fun _ => Never) Never := by
  refine Ensures.weaken (Lookup.ensures_resolve
    (I := fun past s w => ∃ lookups, r.Seen cwd (seen ++ r.looking lookups) past s w)
    (fun path => Ensures.exists_pre fun lookups => ?_) name pwd r.searchPath)
    fun past s w h => ⟨[], by rwa [looking, List.map_nil, List.append_nil]⟩
  have hask : Ensures InMemory.answer (r.Seen cwd (seen ++ r.looking lookups)) (Child.isFile path)
      (fun (found : Bool) past s w => found = r.isFile path ∧
        r.Seen cwd (seen ++ r.looking lookups ++ [.called (.fileExists path) (.ok found)]) past s w)
      (fun _ => Never) Never :=
    ensures_served rfl fun w h => ⟨r.isFile path, by simp only [InMemory.serve, h.files]; rfl, rfl⟩
  refine hask.mono_returns fun found past s w h => ⟨h.1, lookups ++ [path], ?_⟩
  have hseen := h.2
  rw [h.1, List.append_assoc] at hseen
  rwa [looking, List.map_append]

/-- The command of a child is looked up from where the services say the child is. -/
theorem ensures_resolveProgram (name : Text) :
    Ensures InMemory.answer (r.Seen cwd seen) (Child.resolveProgram name .search)
      (fun path past s w => ∃ pwd lookups, path = Lookup.pathWhere r.isFile name pwd r.searchPath ∧
        r.Seen cwd (seen ++ ([.called .getPwd (.ok pwd), .called .getPath (.ok r.searchPath)] ++
          r.looking lookups)) past s w) (fun _ => Never) Never := by
  have hpwd : Ensures InMemory.answer (r.Seen cwd seen) (ask .getPwd)
      (fun (pwd : Text) past s w => True ∧
        r.Seen cwd (seen ++ [.called .getPwd (.ok pwd)]) past s w) (fun _ => Never) Never :=
    ensures_served rfl fun _ _ => ⟨_, rfl, trivial⟩
  refine Ensures.bind hpwd fun pwd => Ensures.and_pre fun _ => ?_
  have hpath : Ensures InMemory.answer (r.Seen cwd (seen ++ [.called .getPwd (.ok pwd)]))
      (ask .getPath)
      (fun (path : Text) past s w => path = r.searchPath ∧ r.Seen cwd
        (seen ++ [.called .getPwd (.ok pwd)] ++ [.called .getPath (.ok path)]) past s w)
      (fun _ => Never) Never :=
    ensures_served rfl fun w h => ⟨w.path, rfl, h.searchPath⟩
  refine Ensures.bind hpath fun searchPath => Ensures.and_pre fun hsearchPath => ?_
  subst hsearchPath
  refine (ensures_looking name pwd).mono_returns fun path past s w h => ?_
  obtain ⟨hfound, lookups, hseen⟩ := h
  refine ⟨pwd, lookups, hfound, ?_⟩
  rwa [List.append_assoc, List.append_assoc] at hseen

theorem ensures_getPid :
    Ensures InMemory.answer (r.Seen cwd seen) (ask .getPid)
      (fun (pid : Int) past s w => pid = InMemory.pid ∧
        r.Seen cwd (seen ++ [.called .getPid (.ok pid)]) past s w) (fun _ => Never) Never :=
  ensures_served rfl fun _ _ => ⟨_, rfl, rfl⟩

/-- If a command cannot be executed, that is reported. -/
theorem ensures_exec (path : Text) (argv : List Text) :
    Ensures InMemory.answer (r.Seen cwd seen) (ask (.exec path argv))
      (fun _ => r.Seen cwd (seen ++ [.called (.exec path argv) (.ok ())]))
      (fun e past s w => (∃ report, e.reportOf? .execFailed = some report) ∧
        r.Seen cwd (seen ++ [.called (.exec path argv) (.error e)]) past s w) Never := by
  refine (ensures_ask rfl (P := fun _ => True) (fun _ _ _ _ => trivial) fun w e _ he => ?_).mono_returns
    fun _ _ _ _ h => h.2
  simp only [InMemory.serve] at he
  split at he
  · cases he
  · cases he
    exact ⟨_, rfl⟩

/-- Ending the process comes back just where the world says so. -/
theorem ensures_exit (status : Value) :
    Ensures InMemory.answer (r.Seen cwd seen) (ask (.exit status))
      (fun _ past s w => r.exitReturns = true ∧
        r.Seen cwd (seen ++ [.called (.exit status) (.ok ())]) past s w)
      (fun e past s w => (r.exitReturns = false ∧ e = .exit status) ∧
        r.Seen cwd (seen ++ [.called (.exit status) (.error e)]) past s w) Never := by
  apply ensures_ask (P := fun _ => r.exitReturns = true) rfl
  · intro w reply h hreply
    simp only [InMemory.serve, h.exitReturns] at hreply
    split at hreply
    · assumption
    · cases hreply
  · intro w e h he
    simp only [InMemory.serve, h.exitReturns] at he
    split at he
    · cases he
    · next hexit => exact ⟨Bool.eq_false_iff.mpr hexit, (Except.error.inj he).symm⟩

/-- In the child the command is looked up and executed, and that comes back. -/
theorem ensures_replaceProgram :
    Ensures InMemory.answer (r.Seen cwd seen) (Child.replaceProgram (r.tokens line) .search)
      (fun _ => Never)
      (fun e past s w => (∃ report, e.reportOf? .execFailed = some report) ∧
        ∃ d, r.Seen cwd (seen ++ r.descent line d) past s w) Never := by
  refine Ensures.bind (ensures_getPid.mono_fails fun _ _ _ _ h => h.elim) fun pid =>
    Ensures.and_pre fun hpid => ?_
  subst hpid
  obtain ⟨name, rest, htokens⟩ := List.exists_cons_of_ne_nil
    (Line.tokens_ne_nil (UInt8.ofNat r.shell.marker.val) line)
  have htokens : r.tokens line = name :: rest := htokens
  rw [htokens]
  refine Ensures.bind ((ensures_resolveProgram name).mono_fails fun _ _ _ _ h => h.elim) fun path => ?_
  refine Ensures.exists_pre fun pwd => Ensures.exists_pre fun lookups => Ensures.and_pre fun hpath => ?_
  refine Ensures.bind ((ensures_log _).mono_fails fun _ _ _ _ h => h.elim) fun _ => ?_
  -- what was seen until then and becoming the command make up the descent
  have hdescent : ∀ (executed : Except Failure Unit),
      seen ++ [.called .getPid (.ok InMemory.pid)] ++
          ([.called .getPwd (.ok pwd), .called .getPath (.ok r.searchPath)] ++ r.looking lookups) ++
          [.called (.exec path (name :: rest)) executed] =
        seen ++ r.descent line ⟨pwd, lookups, executed⟩ := by
    intro executed
    have hprogram : r.programPath line pwd = path := by
      rw [hpath, programPath, htokens]
      rfl
    rw [descent, hprogram, htokens]
    simp only [List.append_assoc, List.cons_append, List.nil_append]
  refine Ensures.bind ((ensures_exec path _).orElse fun e => Ensures.and_pre fun hreport => ?_)
    fun _ => ?_
  · obtain ⟨report, hreport⟩ := hreport
    simp only [hreport]
    refine Ensures.bind ((ensures_log _).mono_fails fun _ _ _ _ h => h.elim) fun _ => ?_
    refine Ensures.fail fun past s w h => ⟨⟨report, hreport⟩, ⟨pwd, lookups, .error e⟩, ?_⟩
    rwa [hdescent] at h
  · refine Ensures.fail fun past s w h => ⟨⟨_, rfl⟩, ⟨pwd, lookups, .ok ()⟩, ?_⟩
    rwa [hdescent] at h

/-- The child ends, unless ending the process comes back. -/
theorem ensures_becomeCommand :
    Ensures InMemory.answer (r.Seen cwd seen) (r.shell.becomeCommand (r.tokens line))
      (fun _ past s w => r.exitReturns = true ∧ ∃ d,
        r.Seen cwd (seen ++ r.childCalls line d (.ok ())) past s w)
      (fun e past s w => (r.exitReturns = false ∧ e = .exit r.shell.execFailureStatus) ∧
        ∃ d, r.Seen cwd (seen ++ r.childCalls line d (.error e)) past s w) Never := by
  refine Ensures.andFinally (m := fun _ past s w => ∃ d, r.Seen cwd (seen ++ r.descent line d ++
      [.called (.write standardOutput "could not exec\n") (.ok ())]) past s w) (n := fun _ => Never)
    ?_ (fun _ => Ensures.exists_pre fun d => ?_) fun _ _ _ _ h => h.elim
  · -- whatever kept the child from becoming the command, the user is told
    refine Ensures.orElse (ensures_replaceProgram.mono_returns fun _ _ _ _ h => h.elim) fun e => ?_
    refine Ensures.and_pre fun hreported => Ensures.exists_pre fun d => ?_
    obtain ⟨report, hreport⟩ := hreported
    rw [hreport]
    exact (ensures_print _).mono_returns fun _ _ _ _ h => ⟨d, h⟩
  refine Ensures.bind (ensures_getPid.mono_fails fun _ _ _ _ h => h.elim) fun pid =>
    Ensures.and_pre fun hpid => ?_
  subst hpid
  refine Ensures.bind ((ensures_log _).mono_fails fun _ _ _ _ h => h.elim) fun _ => ?_
  have hcalls : ∀ exited : Except Failure Unit,
      seen ++ r.descent line d ++ [.called (.write standardOutput "could not exec\n") (.ok ())] ++
          [.called .getPid (.ok InMemory.pid)] ++
          [.called (.exit r.shell.execFailureStatus) exited] =
        seen ++ r.childCalls line d exited := by
    intro exited
    simp only [childCalls, List.append_assoc, List.cons_append, List.nil_append]
  refine (ensures_exit _).mono (fun _ _ _ h => h) ?_ ?_ fun _ _ _ h => h
  · intro _ past s w h
    refine ⟨h.1, d, ?_⟩
    rw [← hcalls]
    exact h.2
  · intro e past s w h
    refine ⟨h.1, d, ?_⟩
    rw [← hcalls]
    exact h.2

/-- Without faults a child is always made. -/
theorem ensures_spawnOrReport :
    Ensures InMemory.answer (r.Seen cwd seen) Shell.spawnOrReport
      (fun child past s w => ∃ pid, child = some pid ∧
        r.Seen cwd (seen ++ [.called .fork (.ok pid)]) past s w) (fun _ => Never) Never := by
  have hfork : Ensures InMemory.answer (r.Seen cwd seen) (ask .fork)
      (fun (pid : Int) past s w => True ∧ r.Seen cwd (seen ++ [.called .fork (.ok pid)]) past s w)
      (fun _ => Never) Never :=
    ensures_served rfl fun _ _ => ⟨_, rfl, trivial⟩
  have hspawn : Ensures InMemory.answer (r.Seen cwd seen) Child.spawn
      (fun pid => r.Seen cwd (seen ++ [.called .fork (.ok pid)])) (fun _ => Never) Never := by
    rw [Child.spawn_eq]
    refine Ensures.bind (hfork.orElse fun e past s w h => h.elim) fun pid => ?_
    refine Ensures.bind ((indifferent_seen.ensures_made pid).weaken fun _ _ _ h => h.2) fun _ => ?_
    exact Ensures.done fun _ _ _ h => h
  refine Ensures.bind hspawn.attempt fun outcome => ?_
  cases outcome with
  | ok pid => exact Ensures.done fun _ _ _ h => ⟨pid, rfl, h⟩
  | error e => exact fun _ _ _ h => h.elim

theorem ensures_wait (pid : Int) :
    Ensures InMemory.answer (r.Seen cwd seen) (Child.wait pid r.shell.waitTimeout)
      (fun _ past s w => ∃ outcome, r.Seen cwd
        (seen ++ [.called (.waitpid pid r.shell.waitTimeout) (.ok outcome)]) past s w)
      (fun _ => Never) Never := by
  have hask : Ensures InMemory.answer (r.Seen cwd seen) (ask (.waitpid pid r.shell.waitTimeout))
      (fun outcome past s w => True ∧ r.Seen cwd
        (seen ++ [.called (.waitpid pid r.shell.waitTimeout) (.ok outcome)]) past s w)
      (fun _ => Never) Never :=
    ensures_served rfl fun _ _ => ⟨_, rfl, trivial⟩
  rw [Child.wait_eq]
  refine Ensures.bind hask fun outcome => Ensures.and_pre fun _ => ?_
  exact (indifferent_seen.ensures_awaited pid outcome).mono_returns fun _ _ _ _ h => ⟨outcome, h⟩

/-- A command is run in a child, and this is the child or the one that waits for it. -/
theorem ensures_runInChild (hsplit : r.shell.marker.val < 256) (hcommand : r.command? line = none) :
    Ensures InMemory.answer (r.Seen cwd seen) (r.shell.runInChild (r.tokens line))
      (fun made past s w => made = true ∧ ∃ more, r.Block cwd line more cwd ∧
        r.Seen cwd (seen ++ more) past s w)
      (fun e past s w => ∃ more, r.LastBlock line more (.failed e) ∧
        r.Seen cwd (seen ++ more) past s w) Never := by
  refine Ensures.bind (ensures_spawnOrReport.mono_fails fun _ _ _ _ h => h.elim) fun child => ?_
  refine Ensures.exists_pre fun pid => Ensures.and_pre fun hchild => ?_
  subst hchild
  simp only [bind_eq_bind, pure_eq_done]
  -- in the child the block is a last one, unless the exit returns
  by_cases hpid : pid = 0
  · subst hpid
    rw [if_pos rfl]
    refine Ensures.bind (ensures_becomeCommand.mono_fails fun e past s w h => ?_) fun _ => ?_
    · obtain ⟨⟨hexit, rfl⟩, d, hseen⟩ := h
      refine ⟨_, .child hsplit hcommand hexit d, ?_⟩
      rwa [List.append_assoc] at hseen
    · refine Ensures.and_pre fun hexit => Ensures.exists_pre fun d => ?_
      refine Ensures.bind ((ensures_wait 0).mono_fails fun _ _ _ _ h => h.elim) fun _ => ?_
      refine Ensures.exists_pre fun outcome => Ensures.done fun past s w h => ⟨rfl, _,
        .survived hsplit hcommand hexit d outcome, ?_⟩
      rwa [List.append_assoc, List.append_assoc] at h
  · rw [if_neg hpid]
    refine Ensures.bind ((ensures_wait pid).mono_fails fun _ _ _ _ h => h.elim) fun _ => ?_
    refine Ensures.exists_pre fun outcome => Ensures.done fun past s w h => ⟨rfl, _,
      .ran hsplit hcommand hpid outcome, ?_⟩
    rwa [List.append_assoc] at h

/-! ## Lines -/

/-- A line that was read is split into its tokens, unless the marker is no byte. -/
theorem ensures_tokenize (hfit : line.length ≤ r.buffer.capacity) :
    Ensures InMemory.answer (r.Seen cwd seen) (r.shell.tokenize line)
      (fun tokens past s w => (r.shell.marker.val < 256 ∧ tokens = r.tokens line) ∧
        r.Seen cwd seen past s w)
      (fun e past s w => (¬r.shell.marker.val < 256 ∧ e = Shell.refusal) ∧
        r.Seen cwd seen past s w) Never := by
  have hline : ∀ {past s w}, r.Seen cwd seen past s w → line.length ≤ s.line.capacity := fun h => by
    rw [h.buffer.capacity]
    exact hfit
  by_cases hsplit : r.shell.marker.val < 256
  · refine (Shell.ensures_tokens hsplit (fun _ _ _ h => hline h) fun past s w loaded h hsame => ?_).mono
      (fun _ _ _ h => h) (fun _ _ _ _ h => ⟨⟨hsplit, h.1⟩, h.2⟩) (fun _ _ _ _ h => h.elim)
      fun _ _ _ h => h
    exact { h with buffer := h.buffer.trans hsame }
  · intro past s w h
    obtain ⟨loaded, hsame, hrun⟩ := Shell.run_tokenize_refused hsplit (hline h) w
    rw [hrun, List.append_nil]
    exact ⟨⟨hsplit, rfl⟩, { h with buffer := h.buffer.trans hsame }⟩

/-- The calls behind the read of a line make up a block, or the last one. -/
theorem ensures_runLine (hfit : line.length ≤ r.buffer.capacity) :
    Ensures InMemory.answer (r.Seen cwd seen)
      (r.shell.runLine (Builtin.dispatch r.shell.home) r.interactive line)
      (fun next past s w =>
        match next with
        | .goOn => ∃ more there, r.Block cwd line more there ∧ r.Seen there (seen ++ more) past s w
        | .leaveAll => ∃ more, r.LastBlock line more (.returned false) ∧
            r.Seen cwd (seen ++ more) past s w
        | .leaveSource => False)
      (fun e past s w => ∃ more, r.LastBlock line more (.failed e) ∧
        r.Seen cwd (seen ++ more) past s w) Never := by
  refine Ensures.bind ((ensures_tokenize hfit).mono_fails fun e past s w h => ?_) fun tokens =>
    Ensures.and_pre fun ⟨hsplit, htokens⟩ => ?_
  · obtain ⟨⟨hsplit, rfl⟩, hseen⟩ := h
    refine ⟨[], .unsplit hsplit, ?_⟩
    rwa [List.append_nil]
  · subst htokens
    cases hcommand : r.command? line with
    | none =>
        have hname : Builtin.ofName? ((r.tokens line).headD []) = none := hcommand
        have hdispatch : Builtin.dispatch r.shell.home (r.tokens line) = done .notBuiltin := by
          simp only [Builtin.dispatch, hname]
          rfl
        rw [hdispatch]
        refine Ensures.bind (m := fun verdict past s w => verdict = .notBuiltin ∧
          r.Seen cwd seen past s w) (Ensures.done fun _ _ _ h => ⟨rfl, h⟩) fun verdict => ?_
        refine Ensures.and_pre fun hverdict => ?_
        subst hverdict
        refine Ensures.bind (ensures_runInChild hsplit hcommand) fun made => ?_
        refine Ensures.and_pre fun hmade => ?_
        subst hmade
        exact Ensures.done fun past s w h => by
          obtain ⟨more, hblock, hseen⟩ := h
          exact ⟨more, cwd, hblock, hseen⟩
    | some command =>
        cases command with
        | exit =>
            rw [Builtin.dispatch_exit _ hcommand]
            refine Ensures.done fun past s w h => ⟨[], .exit hsplit hcommand, ?_⟩
            rwa [List.append_nil]
        | cd =>
            refine Ensures.bind ((ensures_cd hsplit hcommand).mono_fails fun _ _ _ _ h => h.elim)
              fun verdict => Ensures.and_pre fun hverdict => ?_
            subst hverdict
            exact Ensures.done fun _ _ _ h => h

/-! ## Sources -/

/-- With a round for each byte that is left and one more, the calls are blocks to the end. -/
theorem ensures_runFrom {rounds : Nat} (hrounds : r.content.length - offset < rounds)
    (hinside : offset ≤ r.content.length) :
    Ensures InMemory.answer (r.Seen cwd seen)
      (r.shell.runFrom (Builtin.dispatch r.shell.home) r.fd r.interactive rounds offset)
      (fun goOn past s w => ∃ later there, r.Blocks cwd offset later (.returned goOn) ∧
        r.Seen there (seen ++ later) past s w)
      (fun e past s w => ∃ later there, r.Blocks cwd offset later (.failed e) ∧
        r.Seen there (seen ++ later) past s w) Never := by
  -- each round reads a byte at least, and what was seen is the blocks of the lines behind
  induction rounds generalizing offset cwd seen with
  | zero => omega
  | succ rounds ih =>
      refine Ensures.bind (ensures_announce.mono_fails fun _ _ _ _ h => h.elim) fun _ => ?_
      refine Ensures.bind (ensures_readLine.mono_fails fun _ _ _ _ h => h.elim) fun reading => ?_
      cases reading with
      | interrupted => exact fun _ _ _ h => h.elim
      | exhausted =>
          refine Ensures.and_pre fun hend => Ensures.done fun past s w h => ⟨_, cwd, .exhausted hend, ?_⟩
          rwa [List.append_assoc] at h
      | line line =>
          refine Ensures.and_pre fun ⟨hline, hne⟩ => ?_
          subst hline
          rw [List.append_assoc]
          have hlength : 0 < (r.lineAt offset).length := List.length_pos_iff.mpr hne
          have hnext : offset + (r.lineAt offset).length ≤ r.content.length :=
            InMemory.add_length_lineAt_le hinside
          refine Ensures.bind ((ensures_runLine InMemory.length_lineAt_le).mono_fails
            fun e past s w h => ?_) fun next => ?_
          · obtain ⟨more, hblock, hseen⟩ := h
            refine ⟨_, cwd, .last hne hblock, ?_⟩
            rwa [List.append_assoc] at hseen
          · cases next with
            | leaveSource => exact fun _ _ _ h => h.elim
            | leaveAll =>
                refine Ensures.exists_pre fun more => Ensures.and_pre fun hblock => ?_
                refine Ensures.done fun past s w h => ⟨_, cwd, .last hne hblock, ?_⟩
                rwa [List.append_assoc] at h
            | goOn =>
                refine Ensures.exists_pre fun more => Ensures.exists_pre fun there => ?_
                refine Ensures.and_pre fun hblock => ?_
                have hrest := @ih there (seen ++ r.reading cwd offset (r.lineAt offset) ++ more)
                  (offset + (r.lineAt offset).length) (by omega) hnext
                rw [Int.natCast_add] at hrest
                refine hrest.mono (fun _ _ _ h => h) (fun goOn past s w h => ?_)
                  (fun e past s w h => ?_) fun _ _ _ h => h
                · obtain ⟨later, last, hblocks, hseen⟩ := h
                  refine ⟨_, last, .next hne hblock hblocks, ?_⟩
                  simpa only [List.append_assoc] using hseen
                · obtain ⟨later, last, hblocks, hseen⟩ := h
                  refine ⟨_, last, .next hne hblock hblocks, ?_⟩
                  simpa only [List.append_assoc] using hseen

end Loop

namespace Shell

/-- Without faults the calls of a source are blocks, each as its line and the directory of the shell
say, and the run ends as the last one says. -/
theorem runSource_blocks (shell : Shell) {suffix home : Text}
    (hsuffix : shell.promptSuffix = .text suffix) (hhome : shell.home = .text home) {memory : Nat}
    {size : Value} {buffer : LineBuffer} (hsize : LineBuffer.ofSetting memory size = .ok buffer)
    {s : Session} (hs : buffer.SameSize s.line) {w : InMemory} (hfaults : w.faults = []) {fd : Int}
    {content : Bytes} (hcontent : w.sources.lookup fd = some content) (interactive : Bool)
    {rounds : Nat} (hrounds : content.length < rounds) :
    let o := (shell.runSource rounds fd interactive).run InMemory.answer s w
    let r : Loop := ⟨shell, suffix, home, buffer, fd, content, interactive, w.files, w.dirs, w.path,
      w.exitReturns, hsuffix, hhome, LineBuffer.sized_of_setting hsize⟩
    r.Blocks s.cwd 0 (calls o.events) o.ending := by
  intro o r
  have hstart : r.Seen s.cwd [] [] s w := ⟨rfl, rfl, hs, hfaults, hcontent, rfl, rfl, rfl, rfl⟩
  have hinside : 0 ≤ r.content.length := Nat.zero_le _
  have hrun := r.ensures_runFrom hrounds hinside [] s w hstart
  change o.ending.choose _ _ _ o.events o.state o.world at hrun
  cases hend : o.ending with
  | returned goOn =>
      rw [hend] at hrun
      obtain ⟨later, there, hblocks, hseen⟩ := hrun
      rw [hseen.calls]
      exact hblocks
  | failed e =>
      rw [hend] at hrun
      obtain ⟨later, there, hblocks, hseen⟩ := hrun
      rw [hseen.calls]
      exact hblocks
  | outOfRounds =>
      rw [hend] at hrun
      exact hrun.elim

/-- A change of directory to the home directory, and a command. -/
def homeward : Bytes := [0x63, 0x64, 0x0A, 0x6C, 0x73]

/-- A world with the two lines on standard input. -/
def homewardWorld : InMemory := .create [] [] "/" "" homeward [7] [] false false []

/-- The second prompt shows where the shell went, and the child is waited for before the third one. -/
theorem runSource_blocks_of_homeward :
    let o := (Shell.default.runSource 8 standardInput true).run InMemory.answer (.default "/")
      homewardWorld
    let r : Loop := ⟨Shell.default, "$ ", "/home", .empty 256, standardInput, homeward, true, [],
      homewardWorld.dirs, "", false, rfl, rfl, ⟨rfl, by decide⟩⟩
    r.Blocks "/" 0 (calls o.events) o.ending ∧
      calls o.events =
        r.reading "/" 0 [0x63, 0x64, 0x0A] ++
          [.called (.isDir (.text "/home")) (.ok true), .called (.setPwd "/home") (.ok ())] ++
        r.reading "/home" 3 [0x6C, 0x73] ++
          [.called .fork (.ok (7 : Int)), .called (.waitpid 7 (.int 0)) (.ok WaitOutcome.success)] ++
        r.reading "/home" 5 [] := by
  intro o r
  have hsuffix : Shell.default.promptSuffix = .text "$ " := rfl
  have hhome : Shell.default.home = .text "/home" := rfl
  have hsize : LineBuffer.ofSetting 1024 (.int 256) = .ok (.empty 256) := rfl
  have hfaults : homewardWorld.faults = [] := rfl
  have hcontent : homewardWorld.sources.lookup standardInput = some homeward := rfl
  have hrounds : homeward.length < 8 := by decide
  have hblocks := runSource_blocks Shell.default hsuffix hhome hsize (s := .default "/")
    (LineBuffer.SameSize.refl _) hfaults hcontent true hrounds
  exact ⟨hblocks, rfl⟩

end Shell

end LineShell
