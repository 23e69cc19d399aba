import LineShell.Proofs.Line.Tokens
import LineShell.Proofs.Shell.Reader
import LineShell.Proofs.Text.Utf8

/-!
# The line that ends a run

A line with the command `exit` ends a run, whichever source it is from: after it was read, nothing is
done but to close the script it came from.  A marker that is no byte makes every line a last one, too,
because no line can be split then; such a run ends with a failure.

`Going` is what holds as long as no last line was read, and `LastFrom fd after` says that the last line
came from a descriptor and what was seen after it.  `ensures_runLine` is the step, and
`ensures_run` puts the steps together.
-/

namespace LineShell

open Program LineShell.Action

/-! ## The command of a line -/

/-- The command of a line as it is in the source. -/
def Line.command (marker : UInt8) (line : Bytes) : Bytes := (Line.rawTokens marker line).headD []

/-- The command of a line as text is its first token. -/
theorem Line.headD_tokens (marker : UInt8) (line : Bytes) :
    (Line.tokens marker line).headD [] = Text.Utf8.decode (Line.command marker line) := by
  rw [Line.tokens, Line.command]
  cases Line.rawTokens marker line <;> rfl

namespace Builtin

/-- The bytes of the command `exit`. -/
def exitBytes : Bytes := [0x65, 0x78, 0x69, 0x74]

theorem ofName?_eq_some {b : Builtin} {t : Text} : ofName? t = some b ↔ t = b.name := by
  constructor
  · intro h
    have hname := List.find?_some (p := fun b : Builtin => b.name == t) h
    exact (beq_iff_eq.mp hname).symm
  · rintro rfl
    cases b <;> rfl

/-- A line names a command as text exactly when its command is the name of it byte for byte. -/
theorem ofName?_tokens_eq_some {b : Builtin} {marker : UInt8} {line : Bytes} :
    ofName? ((Line.tokens marker line).headD []) = some b ↔
      Line.command marker line = b.name.map fun c => UInt8.ofNat c.val := by
  have hascii : b.name.all (·.val < 0x80) = true := by cases b <;> rfl
  calc ofName? ((Line.tokens marker line).headD []) = some b
      ↔ (Line.tokens marker line).headD [] = b.name := ofName?_eq_some
    _ ↔ Text.Utf8.decode (Line.command marker line) = b.name := by rw [Line.headD_tokens]
    _ ↔ Line.command marker line = b.name.map fun c => UInt8.ofNat c.val :=
        Text.Utf8.decode_eq_iff (by simpa using hascii)

theorem ofName?_tokens {marker : UInt8} {line : Bytes} :
    ofName? ((Line.tokens marker line).headD []) = some exit ↔
      Line.command marker line = exitBytes := ofName?_tokens_eq_some

theorem dispatch_exit {tokens : List Text} (home : Value)
    (h : ofName? (tokens.headD []) = some exit) : dispatch home tokens = done .exit := by
  simp only [dispatch, h]
  rfl

/-- What becomes of a line by the command that it names. -/
def verdictOf : Option Builtin → Verdict
  | none => .notBuiltin
  | some cd => .handled
  | some exit => .exit

/-- What becomes of a line depends on its command only, however calls are carried out. -/
theorem ensures_dispatch_verdict {Call World : Type} {Reply : Call → Type}
    {answer : (c : Call) → World → Answer World Reply c}
    {carryOut : (c : ServiceCall) → Program Session Reply c.Reply}
    {pre : Assertion Session World Reply} (home : Value) (tokens : List Text) :
    Ensures answer pre ((dispatch home tokens).interpret carryOut)
      (fun verdict _ _ _ => verdict = verdictOf (ofName? (tokens.headD [])))
      (fun _ _ _ _ => True) fun _ _ _ => True := by
  have hhandled : ∀ {p : Action Unit} {pre : Assertion Session World Reply},
      Ensures answer pre ((p.bind fun _ => done Verdict.handled).interpret carryOut)
        (fun verdict _ _ _ => verdict = .handled) (fun _ _ _ _ => True) fun _ _ _ => True :=
    Ensures.interpret_bind Ensures.anyhow fun _ => Ensures.done fun _ _ _ _ => rfl
  simp only [dispatch]
  rcases ofName? (tokens.headD []) with _ | _ | _
  case none => exact Ensures.done fun _ _ _ _ => rfl
  case some.exit => exact Ensures.done fun _ _ _ _ => rfl
  case some.cd =>
    -- whatever fails on the way, there is no other verdict to return
    refine Ensures.interpret_orElse (m := fun _ _ _ _ => True) ?_ fun e => ?_
    · refine Ensures.interpret_bind Ensures.anyhow fun s => ?_
      refine Ensures.interpret_bind Ensures.anyhow fun isDirectory => ?_
      cases isDirectory with
      | false => exact Ensures.fail fun _ _ _ _ => trivial
      | true =>
          cases target home s.cwd tokens.tail with
          | text path =>
              refine Ensures.interpret_bind Ensures.anyhow fun _ => ?_
              exact Ensures.interpret_bind Ensures.anyhow fun _ => hhandled
          | _ => exact Ensures.fail fun _ _ _ _ => trivial
    · cases e.fileReport? with
      | none => exact Ensures.fail fun _ _ _ _ => trivial
      | some report => exact Ensures.interpret_bind Ensures.anyhow fun _ => hhandled

/-- No other command ends the run. -/
theorem ensures_dispatch_ne_exit {World : Type}
    {answer : (c : ServiceCall) → World → Answer World ServiceCall.Reply c}
    {pre : Assertion Session World ServiceCall.Reply} (home : Value) {tokens : List Text}
    (h : ofName? (tokens.headD []) ≠ some exit) :
    Ensures answer pre (dispatch home tokens) (fun verdict _ _ _ => verdict ≠ .exit)
      (fun _ _ _ _ => True) fun _ _ _ => True := by
  rw [← interpret_self (dispatch home tokens)]
  refine (ensures_dispatch_verdict home tokens).mono_returns fun verdict _ _ _ hverdict => ?_
  rw [hverdict]
  rcases hcommand : ofName? (tokens.headD []) with _ | _ | _
  case none => nofun
  case some.cd => nofun
  case some.exit => exact absurd hcommand h

end Builtin

namespace Shell

variable (shell : Shell)

/-! ## Last lines -/

/-- A line that ends the run: its command is `exit`, or no line can be split at all. -/
def EndsRun (line : Bytes) : Prop :=
  if shell.marker.val < 256 then
    Line.command (UInt8.ofNat shell.marker.val) line = Builtin.exitBytes
  else line ≠ []

instance (line : Bytes) : Decidable (shell.EndsRun line) :=
  inferInstanceAs (Decidable (if shell.marker.val < 256 then
    Line.command (UInt8.ofNat shell.marker.val) line = Builtin.exitBytes else line ≠ []))

/-- The failure of splitting a line at a marker that is no byte. -/
def refusal : Failure := .badValue "byte must be in range(0, 256)"

/-- How a run ends that was ended by a line. -/
def lastEnding : Ending Int := if shell.marker.val < 256 then .returned 0 else .failed refusal

/-- A last line was read. -/
def ReadsLast (e : Event ServiceCall.Reply) : Prop :=
  ∃ fd offset size line, e = .called (.readLine fd offset size) (.ok line) ∧ shell.EndsRun line

/-- No last line was read. -/
def GoesOn (past : List (Event ServiceCall.Reply)) : Prop := ∀ e ∈ past, ¬shell.ReadsLast e

/-- No last line was read, and descriptors of scripts are not that of standard input. -/
structure Going (buffer : LineBuffer) (past : List (Event ServiceCall.Reply)) (s : Session)
    (w : InMemory) : Prop where
  goesOn : shell.GoesOn past
  buffer : buffer.SameSize s.line
  nextFd : standardInput < w.nextFd

/-- The last line came from a descriptor, and some things were seen after it. -/
def LastFrom (fd : Int) (after past : List (Event ServiceCall.Reply)) : Prop :=
  ∃ before offset size line, past = before ++ .called (.readLine fd offset size) (.ok line) :: after ∧
    shell.GoesOn before ∧ shell.EndsRun line

/-- A line was just read, and no last line before it. -/
def JustRead (buffer : LineBuffer) (fd : Int) (line : Bytes) :
    Assertion Session InMemory ServiceCall.Reply :=
  fun past s w => ∃ before offset size,
    past = before ++ [.called (.readLine fd offset size) (.ok line)] ∧ shell.Going buffer before s w ∧
      line ≠ [] ∧ line.length ≤ buffer.capacity

variable {shell} {buffer : LineBuffer} {past more : List (Event ServiceCall.Reply)} {s t : Session}
  {w v : InMemory}

theorem goesOn_append : shell.GoesOn (past ++ more) ↔ shell.GoesOn past ∧ shell.GoesOn more := by
  simp only [GoesOn, List.mem_append, or_imp, forall_and]

theorem goesOn_called {c : ServiceCall} {outcome : Except Failure c.Reply} (h : c.name ≠ .readLine) :
    shell.GoesOn [.called c outcome] := by
  rintro e he ⟨fd, offset, size, line, rfl, -⟩
  cases List.mem_singleton.mp he
  exact h rfl

theorem goesOn_logged {entry : Log.Entry} : shell.GoesOn [.logged entry] := by
  rintro e he ⟨fd, offset, size, line, rfl, -⟩
  cases List.mem_singleton.mp he

theorem goesOn_read {fd offset : Int} {size : Value} {outcome : Except Failure Bytes}
    (h : ∀ line, outcome = .ok line → ¬shell.EndsRun line) :
    shell.GoesOn [.called (.readLine fd offset size) outcome] := by
  rintro e he ⟨fd, offset, size, line, rfl, hends⟩
  cases List.mem_singleton.mp he
  exact h line rfl hends

theorem not_endsRun_nil : ¬shell.EndsRun [] := by
  unfold EndsRun
  split
  · intro h
    have hnil : Line.command (UInt8.ofNat shell.marker.val) [] = [] := by
      simp [Line.command, Line.rawTokens, Line.content, Line.before, Line.withoutNewline]
    rw [hnil] at h
    cases h
  · exact fun h => h rfl

theorem Going.append (hmore : shell.GoesOn more) (hbuffer : s.line.SameSize t.line)
    (hnextFd : w.nextFd ≤ v.nextFd) (h : shell.Going buffer past s w) :
    shell.Going buffer (past ++ more) t v :=
  ⟨goesOn_append.mpr ⟨h.goesOn, hmore⟩, h.buffer.trans hbuffer, Int.lt_of_lt_of_le h.nextFd hnextFd⟩

theorem LastFrom.append {fd : Int} {after : List (Event ServiceCall.Reply)}
    (h : shell.LastFrom fd after past) : shell.LastFrom fd (after ++ more) (past ++ more) := by
  obtain ⟨before, offset, size, line, rfl, hbefore, hends⟩ := h
  exact ⟨before, offset, size, line, by rw [List.append_assoc, List.cons_append], hbefore, hends⟩

theorem JustRead.going {fd : Int} {line : Bytes} (hends : ¬shell.EndsRun line)
    (h : shell.JustRead buffer fd line past s w) : shell.Going buffer past s w := by
  obtain ⟨before, offset, size, rfl, hgoing, -, -⟩ := h
  refine hgoing.append (goesOn_read fun other hother => ?_) (LineBuffer.SameSize.refl _) (Int.le_refl _)
  cases hother
  exact hends

theorem JustRead.lastFrom {fd : Int} {line : Bytes} (hends : shell.EndsRun line)
    (h : shell.JustRead buffer fd line past s w) : shell.LastFrom fd [] past := by
  obtain ⟨before, offset, size, rfl, hgoing, -, -⟩ := h
  exact ⟨before, offset, size, line, rfl, hgoing.goesOn, hends⟩

/-! ## Steps -/

/-- What reads no line reads no last line. -/
theorem ensures_going {α : Type} {p : Action α} {names : List ServiceCall.Name}
    {parts : List Session.Part} (hp : p.Footprint (scope names parts))
    (hnames : names.contains .readLine = false) :
    Ensures InMemory.answer (shell.Going buffer) p (fun _ => shell.Going buffer)
      (fun _ => shell.Going buffer) Never := by
  refine hp.ensures (fun c hc past s w h => ?_) (fun past s t w hst h => ?_)
    (fun entry _ past s w h => ?_) fun hstops => nomatch hstops
  · rw [InMemory.answer_inner]
    exact h.append (goesOn_called (name_ne_of_mem hc hnames)) (LineBuffer.SameSize.refl _)
      (InMemory.nextFd_le_answer c w)
  · exact ⟨h.goesOn, h.buffer.trans hst.2, h.nextFd⟩
  · exact h.append goesOn_logged (LineBuffer.SameSize.refl _) (Int.le_refl _)

theorem ensures_readLine (hbuffer : buffer.Sized) (interactive : Bool) (fd offset : Int) :
    Ensures InMemory.answer (shell.Going buffer) (readLine interactive fd offset)
      (fun reading =>
        match reading with
        | .line line => shell.JustRead buffer fd line
        | _ => shell.Going buffer)
      (fun _ => shell.Going buffer) Never := by
  refine Ensures.state_bind fun s => ?_
  have hread : Ensures InMemory.answer (fun past t w => t = s ∧ shell.Going buffer past t w)
      (ask (.readLine fd offset s.line.size))
      (fun (line : Bytes) past t w => (line = [] → shell.Going buffer past t w) ∧
        (line ≠ [] → shell.JustRead buffer fd line past t w))
      (fun _ => shell.Going buffer) Never := by
    refine Ensures.request_alone (InMemory.answer_inner _) (fun past t w line h hline => ?_)
      fun past t w e h _ => ?_
    · obtain ⟨rfl, hgoing⟩ := h
      have hnextFd := InMemory.nextFd_le_answer (.readLine fd offset t.line.size) w
      cases line with
      | nil =>
          refine ⟨fun _ => ?_, fun hne => absurd rfl hne⟩
          -- the end of a source is not a line
          refine hgoing.append (goesOn_read fun other hother => ?_) (LineBuffer.SameSize.refl _) hnextFd
          cases hother
          exact not_endsRun_nil
      | cons byte rest =>
          have hsize : t.line.size.toInt? = some (buffer.capacity : Int) := by
            rw [hgoing.buffer.size, hbuffer.size]
          refine ⟨fun hnil => absurd hnil (List.cons_ne_nil _ _), fun hne => ?_⟩
          refine ⟨past, offset, t.line.size, rfl, ?_, hne, ?_⟩
          · exact ⟨hgoing.goesOn, hgoing.buffer, Int.lt_of_lt_of_le hgoing.nextFd hnextFd⟩
          · exact InMemory.length_le_of_answer_readLine hsize hline
    · obtain ⟨-, hgoing⟩ := h
      refine hgoing.append (goesOn_read fun other hother => ?_) (LineBuffer.SameSize.refl _)
        (InMemory.nextFd_le_answer _ w)
      cases hother
  refine Ensures.bind hread.attempt fun outcome => ?_
  rcases outcome with e | line
  · cases e with
    | interrupt =>
        cases interactive with
        | false => exact Ensures.fail fun _ _ _ h => h
        | true => exact Ensures.bind (ensures_going (footprint_print _) rfl) fun _ =>
            Ensures.done fun _ _ _ h => h
    | os errno text =>
        have hsay : (say .error (("Read failed: " : Text) ++ Failure.osMessage errno text)
            [("fd", .int fd)]).Footprint (scope [] []) := footprint_say _ _ _
        exact Ensures.bind (ensures_going hsay rfl) fun _ => Ensures.done fun _ _ _ h => h
    | _ => exact Ensures.fail fun _ _ _ h => h
  · cases line with
    | nil => exact Ensures.done fun _ _ _ h => h.1 rfl
    | cons byte rest => exact Ensures.done fun _ _ _ h => h.2 (List.cons_ne_nil _ _)

theorem ensures_tokenize (hmarker : shell.marker.val < 256) {fd : Int} {line : Bytes} :
    Ensures InMemory.answer (shell.JustRead buffer fd line) (shell.tokenize line)
      (fun tokens past s w => tokens = Line.tokens (UInt8.ofNat shell.marker.val) line ∧
        shell.JustRead buffer fd line past s w) (fun _ => Never) Never := by
  refine ensures_tokens hmarker ?_ ?_
  · rintro past s w ⟨before, offset, size, rfl, hgoing, hne, hfit⟩
    rw [hgoing.buffer.capacity]
    exact hfit
  · rintro past s w loaded ⟨before, offset, size, rfl, hgoing, hne, hfit⟩ hsame
    refine ⟨before, offset, size, rfl, ?_, hne, hfit⟩
    exact ⟨hgoing.goesOn, hgoing.buffer.trans hsame, hgoing.nextFd⟩

/-- With a marker that is no byte a line is refused after it was put into the buffer. -/
theorem run_tokenize_refused (hmarker : ¬shell.marker.val < 256) {line : Bytes}
    (hfit : line.length ≤ s.line.capacity) (w : InMemory) :
    ∃ loaded, s.line.SameSize loaded ∧ (shell.tokenize line).run InMemory.answer s w =
      ⟨.failed refusal, { s with line := loaded }, w, []⟩ := by
  obtain ⟨filled, hfill⟩ := LineBuffer.fill_of_le hfit
  have htokenize : filled.stripNewline.tokenize shell.marker = .error refusal :=
    filled.stripNewline.tokenize_of_not_lt hmarker
  refine ⟨filled.stripNewline, ?_, ?_⟩
  · exact (LineBuffer.sameSize_fill hfill).trans filled.sameSize_stripNewline
  · simp only [tokenize, bind_eq_bind, run_bind, run_state, Outcome.andThen, hfill,
      run_ofExcept_ok, run_update, htokenize, run_ofExcept_error, List.nil_append]

/-- Only `exit` ends the run. -/
theorem ensures_dispatch (home : Value) {tokens : List Text}
    (h : Builtin.ofName? (tokens.headD []) ≠ some .exit) :
    Ensures InMemory.answer (shell.Going buffer) (Builtin.dispatch home tokens)
      (fun verdict past s w => verdict ≠ .exit ∧ shell.Going buffer past s w)
      (fun _ => shell.Going buffer) Never := by
  have hgoing := @ensures_going shell buffer _ _ _ _ (footprint_dispatch home tokens) rfl
  exact ((Builtin.ensures_dispatch_ne_exit home h).and hgoing).mono (fun _ _ _ h => h)
    (fun _ _ _ _ h => h) (fun _ _ _ _ h => h.2) fun _ _ _ h => h.2

theorem run_runLine_exit (hmarker : shell.marker.val < 256) {line : Bytes} (hends : shell.EndsRun line)
    (hfit : line.length ≤ s.line.capacity) (interactive : Bool) (w : InMemory) :
    ∃ loaded, (shell.runLine (Builtin.dispatch shell.home) interactive line).run InMemory.answer s w =
      ⟨.returned .leaveAll, { s with line := loaded }, w, []⟩ := by
  obtain ⟨loaded, -, hrun⟩ := run_tokenize InMemory.answer hmarker hfit w
  rw [EndsRun, if_pos hmarker, ← Builtin.ofName?_tokens] at hends
  refine ⟨loaded, ?_⟩
  simp only [runLine, bind_eq_bind, run_bind, hrun, Outcome.andThen,
    Builtin.dispatch_exit shell.home hends, run_done, follow, pure_eq_done, List.append_nil]

theorem run_runLine_refused (hmarker : ¬shell.marker.val < 256) {line : Bytes}
    (hfit : line.length ≤ s.line.capacity) (interactive : Bool) (w : InMemory) :
    ∃ loaded, (shell.runLine (Builtin.dispatch shell.home) interactive line).run InMemory.answer s w =
      ⟨.failed refusal, { s with line := loaded }, w, []⟩ := by
  obtain ⟨loaded, -, hrun⟩ := run_tokenize_refused hmarker hfit w
  exact ⟨loaded, by simp only [runLine, bind_eq_bind, run_bind, hrun, Outcome.andThen]⟩

/-- A last line is followed by nothing: it ends the run when it is split, or when it cannot be. -/
theorem ensures_runLine (interactive : Bool) (fd : Int) (line : Bytes) :
    Ensures InMemory.answer (shell.JustRead buffer fd line)
      (shell.runLine (Builtin.dispatch shell.home) interactive line)
      (fun next past s w =>
        if next = .leaveAll then shell.marker.val < 256 ∧ shell.LastFrom fd [] past
        else shell.Going buffer past s w)
      (fun e past s w => shell.Going buffer past s w ∨
        (e = refusal ∧ ¬shell.marker.val < 256 ∧ shell.LastFrom fd [] past)) Never := by
  -- a last line does nothing at all, and any other one cannot be the last
  by_cases hends : shell.EndsRun line
  · intro past s w h
    have hlast := h.lastFrom hends
    obtain ⟨before, offset, size, rfl, hgoing, hne, hfit⟩ := h
    rw [← hgoing.buffer.capacity] at hfit
    by_cases hmarker : shell.marker.val < 256
    · obtain ⟨loaded, hrun⟩ := run_runLine_exit hmarker hends hfit interactive w
      rw [hrun, List.append_nil]
      exact ⟨hmarker, hlast⟩
    · obtain ⟨loaded, hrun⟩ := run_runLine_refused hmarker hfit interactive w
      rw [hrun, List.append_nil]
      exact .inr ⟨rfl, hmarker, hlast⟩
  by_cases hmarker : shell.marker.val < 256
  · refine Ensures.bind ((ensures_tokenize hmarker).mono_fails fun _ _ _ _ h => h.elim) fun tokens =>
      Ensures.and_pre fun htokens => ?_
    have hcommand : Builtin.ofName? (tokens.headD []) ≠ some .exit := by
      rw [EndsRun, if_pos hmarker, ← Builtin.ofName?_tokens] at hends
      rwa [htokens]
    refine Ensures.bind (((ensures_dispatch shell.home hcommand).weaken
      fun _ _ _ h => h.going hends).mono_fails fun _ _ _ _ h => .inl h) fun verdict =>
      Ensures.and_pre fun hverdict => ?_
    cases verdict with
    | exit => exact absurd rfl hverdict
    | handled => exact Ensures.done fun _ _ _ h => h
    | notBuiltin =>
        refine Ensures.bind ((ensures_going (shell.footprint_runInChild _) rfl).mono_fails
          fun _ _ _ _ h => .inl h) fun made => ?_
        cases made with
        | true => exact Ensures.done fun _ _ _ h => h
        | false =>
            refine Ensures.done fun _ _ _ h => ?_
            cases interactive <;> exact h
  · rintro past s w ⟨before, offset, size, rfl, -, hne, -⟩
    rw [EndsRun, if_neg hmarker] at hends
    exact absurd hne hends

/-! ## Sources -/

/-- What holds after a source: it goes on with the next one unless a last line was read. -/
theorem ensures_runFrom (hbuffer : buffer.Sized) (fd : Int) (interactive : Bool) (rounds : Nat)
    (offset : Int) :
    Ensures InMemory.answer (shell.Going buffer)
      (shell.runFrom (Builtin.dispatch shell.home) fd interactive rounds offset)
      (fun goOn past s w =>
        if goOn then shell.Going buffer past s w
        else shell.marker.val < 256 ∧ shell.LastFrom fd [] past)
      (fun e past s w => shell.Going buffer past s w ∨
        (e = refusal ∧ ¬shell.marker.val < 256 ∧ shell.LastFrom fd [] past))
      (shell.Going buffer) := by
  -- as long as no last line was read the loop goes on from wherever it is
  induction rounds generalizing offset with
  | zero => exact Ensures.outOfRounds fun _ _ _ h => h
  | succ rounds ih =>
      refine Ensures.bind ((ensures_going (shell.footprint_announce interactive) rfl).part
        fun _ _ _ _ h => .inl h) fun _ => ?_
      refine Ensures.bind ((ensures_readLine hbuffer interactive fd offset).part
        fun _ _ _ _ h => .inl h) fun reading => ?_
      cases reading with
      | exhausted => exact Ensures.done fun _ _ _ h => h
      | interrupted => exact ih offset
      | line line =>
          refine Ensures.bind ((ensures_runLine interactive fd line).part fun _ _ _ _ h => h)
            fun next => ?_
          cases next with
          | leaveAll => exact Ensures.done fun _ _ _ h => h
          | leaveSource => exact Ensures.done fun _ _ _ h => h
          | goOn => exact ih _

theorem ensures_openScript (path : Text) :
    Ensures InMemory.answer (shell.Going buffer) (openScript path)
      (fun opened past s w => (∀ fd, opened = some fd → fd ≠ standardInput) ∧
        shell.Going buffer past s w)
      (fun _ => shell.Going buffer) Never := by
  have hopen : Ensures InMemory.answer (shell.Going buffer) (ask (.openReadOnly path))
      (fun (fd : Int) past s w => fd ≠ standardInput ∧ shell.Going buffer past s w)
      (fun _ => shell.Going buffer) Never := by
    have hkept : ∀ {past s w} {outcome : Except Failure Int}, shell.Going buffer past s w →
        shell.Going buffer (past ++ [.called (.openReadOnly path) outcome]) s
          (InMemory.answer (.openReadOnly path) w).world := fun h =>
      h.append (goesOn_called nofun) (LineBuffer.SameSize.refl _) (InMemory.nextFd_le_answer _ _)
    refine Ensures.request_alone (InMemory.answer_inner _) (fun past s w fd h hfd => ?_)
      fun past s w e h _ => hkept h
    rw [InMemory.answer_openReadOnly_ok hfd]
    exact ⟨Int.ne_of_gt h.nextFd, hkept h⟩
  refine Ensures.bind hopen.attempt fun outcome => ?_
  cases outcome with
  | ok fd =>
      refine Ensures.done fun _ _ _ h => ⟨fun other hother => ?_, h.2⟩
      cases hother
      exact h.1
  | error e =>
      dsimp only
      cases e.reportOf? .fileNotFound with
      | none => exact Ensures.fail fun _ _ _ h => h
      | some report =>
          exact Ensures.bind (ensures_going (@footprint_say [] [] false _ _ _) rfl) fun _ =>
            Ensures.done fun _ _ _ h => ⟨nofun, h⟩

/-- The last line came from a script, which was then closed with an outcome. -/
def Closed (shell : Shell) (outcome : Except Failure Unit) (past : List (Event ServiceCall.Reply)) :
    Prop :=
  ∃ fd, fd ≠ standardInput ∧ shell.LastFrom fd [.called (.close fd) outcome] past

theorem ensures_close {fd : Int} (hfd : fd ≠ standardInput) :
    Ensures InMemory.answer (fun past _ _ => shell.LastFrom fd [] past) (ask (.close fd))
      (fun _ past _ _ => shell.Closed (.ok ()) past)
      (fun e past _ _ => shell.Closed (.error e) past) Never :=
  Ensures.request_alone (InMemory.answer_inner _) (fun _ _ _ _ h _ => ⟨fd, hfd, h.append⟩)
    fun _ _ _ _ h _ => ⟨fd, hfd, h.append⟩

/-- A script that ran the last line is closed, and that is all; a failure of closing it takes the
place of how the script ended. -/
theorem ensures_runScript (hbuffer : buffer.Sized) (rounds : Nat) (script : Text) :
    Ensures InMemory.answer (shell.Going buffer) (shell.runScript rounds script)
      (fun goOn past s w =>
        if goOn then shell.Going buffer past s w
        else shell.marker.val < 256 ∧ shell.Closed (.ok ()) past)
      (fun e past s w => shell.Going buffer past s w ∨
        (e = refusal ∧ ¬shell.marker.val < 256 ∧ shell.Closed (.ok ()) past) ∨
        shell.Closed (.error e) past)
      (shell.Going buffer) := by
  have haside : ∀ {α : Type} {p : Action α} {names : List ServiceCall.Name}
      {parts : List Session.Part}, p.Footprint (scope names parts) →
      names.contains .readLine = false →
      Ensures InMemory.answer (shell.Going buffer) p (fun _ => shell.Going buffer)
        (fun e past s w => shell.Going buffer past s w ∨
          (e = refusal ∧ ¬shell.marker.val < 256 ∧ shell.Closed (.ok ()) past) ∨
          shell.Closed (.error e) past) (shell.Going buffer) := fun hp hnames =>
    (ensures_going hp hnames).part fun _ _ _ _ h => .inl h
  refine Ensures.state_bind fun s => Ensures.weaken ?_ fun _ _ _ h => h.2
  refine Ensures.bind (haside (@footprint_ask [.getPath] [] false .getPath rfl) rfl)
    fun searchPath => ?_
  refine Ensures.bind (haside (footprint_resolve script s.cwd searchPath) rfl) fun path => ?_
  refine Ensures.bind ((ensures_openScript path).part fun _ _ _ _ h => .inl h) fun opened => ?_
  refine Ensures.and_pre fun hopened => ?_
  cases opened with
  | none => exact Ensures.done fun _ _ _ h => h
  | some fd =>
      have hfd := hopened fd rfl
      refine Ensures.bind (haside (@footprint_say [] [] false _ _ _) rfl) fun _ => ?_
      have hclose := haside (@footprint_ask [.close] [] false (.close fd) rfl) rfl
      refine Ensures.andFinally (ensures_runFrom hbuffer fd false rounds 0) (fun goOn => ?_) fun e => ?_
      · cases goOn with
        | true => exact hclose
        | false =>
            refine Ensures.and_pre fun hmarker => ?_
            exact (ensures_close hfd).mono (fun _ _ _ h => h) (fun _ _ _ _ h => ⟨hmarker, h⟩)
              (fun _ _ _ _ h => .inr (.inr h)) fun _ _ _ h => h.elim
      · refine Ensures.or_pre ?_ (Ensures.and_pre fun he => Ensures.and_pre fun hmarker => ?_)
        · exact hclose.mono_returns fun _ _ _ _ h => .inl h
        · exact (ensures_close hfd).mono (fun _ _ _ h => h)
            (fun _ _ _ _ h => .inr (.inl ⟨he, hmarker, h⟩)) (fun _ _ _ _ h => .inr (.inr h))
            fun _ _ _ h => h.elim

theorem ensures_runScripts (hbuffer : buffer.Sized) (rounds : Nat) (scripts : List Text) :
    Ensures InMemory.answer (shell.Going buffer) (shell.runScripts rounds scripts)
      (fun goOn past s w =>
        if goOn then shell.Going buffer past s w
        else shell.marker.val < 256 ∧ shell.Closed (.ok ()) past)
      (fun e past s w => shell.Going buffer past s w ∨
        (e = refusal ∧ ¬shell.marker.val < 256 ∧ shell.Closed (.ok ()) past) ∨
        shell.Closed (.error e) past)
      (shell.Going buffer) := by
  induction scripts with
  | nil => exact Ensures.done fun _ _ _ h => h
  | cons script rest ih =>
      refine Ensures.bind (ensures_runScript hbuffer rounds script) fun goOn => ?_
      cases goOn with
      | true => exact ih
      | false => exact Ensures.done fun _ _ _ h => h

/-! ## Runs -/

/-- What is seen after the last line, and how the run ends: after a line of standard input nothing is
seen, and after a line of a script the script is closed, which is all if that goes well. -/
def EndedBy (shell : Shell) (fd : Int) (after : List (Event ServiceCall.Reply))
    (ending : Ending Int) : Prop :=
  (fd = standardInput → after = [] ∧ ending = shell.lastEnding) ∧
    (fd ≠ standardInput → ∃ outcome rest, after = .called (.close fd) outcome :: rest ∧
      (outcome = .ok () → rest = [] ∧ ending = shell.lastEnding))

/-- A last line was read, and it ended the run. -/
def Stopped (shell : Shell) (ending : Ending Int) (past : List (Event ServiceCall.Reply)) : Prop :=
  ∃ fd after, shell.LastFrom fd after past ∧ shell.GoesOn after ∧ shell.EndedBy fd after ending

theorem Stopped.of_closed {ending : Ending Int} {outcome : Except Failure Unit}
    (h : shell.Closed outcome past) (hending : outcome = .ok () → ending = shell.lastEnding) :
    shell.Stopped ending past := by
  obtain ⟨fd, hfd, hlast⟩ := h
  refine ⟨fd, _, hlast, goesOn_called nofun, fun heq => absurd heq hfd, fun _ => ?_⟩
  exact ⟨outcome, [], rfl, fun hok => ⟨rfl, hending hok⟩⟩

theorem Stopped.of_lastFrom {ending : Ending Int} (h : shell.LastFrom standardInput [] past)
    (hending : ending = shell.lastEnding) : shell.Stopped ending past :=
  ⟨standardInput, [], h, fun _ h => (nomatch h), fun _ => ⟨rfl, hending⟩, fun hne => absurd rfl hne⟩

/-- A last line leads to an interrupt only when a script could not be closed, after which anything may
be seen. -/
theorem Stopped.append {ending : Ending Int} (hmore : shell.GoesOn more)
    (h : shell.Stopped (.failed .interrupt) past) : shell.Stopped ending (past ++ more) := by
  obtain ⟨fd, after, hlast, hafter, hinput, hscript⟩ := h
  have hending : .failed .interrupt ≠ shell.lastEnding := by
    unfold lastEnding
    split <;> nofun
  -- a line of standard input ends the run at once, and that is no interrupt
  have hfd : fd ≠ standardInput := fun hfd => hending (hinput hfd).2
  obtain ⟨outcome, rest, rfl, hclosed⟩ := hscript hfd
  refine ⟨fd, _, hlast.append, goesOn_append.mpr ⟨hafter, hmore⟩, fun heq => absurd heq hfd, ?_⟩
  intro _
  exact ⟨outcome, rest ++ more, rfl, fun hok => absurd (hclosed hok).2 hending⟩

theorem Stopped.anyhow {ending : Ending Int} (h : shell.Stopped (.failed .interrupt) past) :
    shell.Stopped ending past := by
  have hmore : shell.Stopped ending (past ++ []) := h.append fun _ h => nomatch h
  rwa [List.append_nil] at hmore

theorem ensures_stopped {α : Type} {p : Action α} {names : List ServiceCall.Name}
    {parts : List Session.Part} (hp : p.Footprint (scope names parts))
    (hnames : names.contains .readLine = false) :
    Ensures InMemory.answer (fun past _ _ => shell.Stopped (.failed .interrupt) past) p
      (fun _ past _ _ => shell.Stopped (.failed .interrupt) past)
      (fun _ past _ _ => shell.Stopped (.failed .interrupt) past) Never := by
  refine hp.ensures (fun c hc past s w h => ?_) (fun _ _ _ _ _ h => h) (fun _ _ _ _ _ h =>
    h.append goesOn_logged) fun hstops => nomatch hstops
  rw [InMemory.answer_inner]
  exact h.append (goesOn_called (name_ne_of_mem hc hnames))

/-- A run goes on until a last line is read, and then it is over. -/
theorem ensures_run (hbuffer : buffer.Sized) (rounds : Nat) (scripts : List Text) :
    Ensures InMemory.answer (shell.Going buffer) (shell.run rounds scripts)
      (fun status past s w => shell.Going buffer past s w ∨ shell.Stopped (.returned status) past)
      (fun e past s w => shell.Going buffer past s w ∨ shell.Stopped (.failed e) past)
      (shell.Going buffer) := by
  refine Ensures.bind ((ensures_going footprint_publishCwd rfl).part fun _ _ _ _ h => .inl h)
    fun _ => ?_
  have hreturned : shell.marker.val < 256 → .returned 0 = shell.lastEnding := fun h => by
    rw [lastEnding, if_pos h]
  have hrefused : ¬shell.marker.val < 256 → .failed refusal = shell.lastEnding := fun h => by
    rw [lastEnding, if_neg h]
  refine Ensures.orElse (m := fun e past s w =>
    shell.Going buffer past s w ∨ shell.Stopped (.failed e) past) ?_ fun e => ?_
  · refine Ensures.bind ((ensures_runScripts hbuffer rounds scripts).mono_fails fun e past s w h => ?_)
      fun goOn => ?_
    · rcases h with hgoing | ⟨rfl, hmarker, hclosed⟩ | hclosed
      · exact .inl hgoing
      · exact .inr (.of_closed hclosed fun _ => hrefused hmarker)
      · exact .inr (.of_closed hclosed nofun)
    · cases goOn with
      | false => exact Ensures.done fun _ _ _ h => .inr (.of_closed h.2 fun _ => hreturned h.1)
      | true =>
          refine Ensures.bind ((ensures_runFrom hbuffer standardInput true rounds 0).mono_fails
            fun e past s w h => ?_) fun goOn => Ensures.done fun past s w h => ?_
          · rcases h with hgoing | ⟨rfl, hmarker, hlast⟩
            · exact .inl hgoing
            · exact .inr (.of_lastFrom hlast (hrefused hmarker))
          · cases goOn with
            | true => exact .inl h
            | false => exact .inr (.of_lastFrom h.2 (hreturned h.1))
  · cases e with
    | interrupt =>
        have hsay : (say .info "Interrupted").Footprint (scope [] []) := footprint_say _ _ _
        refine Ensures.or_pre ?_ ?_
        · refine Ensures.bind ((ensures_going hsay rfl).part fun _ _ _ _ h => .inl h) fun _ => ?_
          refine Ensures.bind ((ensures_going (footprint_print "\n") rfl).part
            fun _ _ _ _ h => .inl h) fun _ => ?_
          exact Ensures.done fun _ _ _ h => .inl h
        · refine Ensures.bind ((ensures_stopped hsay rfl).part fun _ _ _ _ h => .inr h.anyhow)
            fun _ => ?_
          refine Ensures.bind ((ensures_stopped (footprint_print "\n") rfl).part
            fun _ _ _ _ h => .inr h.anyhow) fun _ => ?_
          exact Ensures.done fun _ _ _ h => .inr h.anyhow
    | _ => exact Ensures.fail fun _ _ _ h => h

/-- There is one last line only, so what is known of one read of a last line is known of each. -/
theorem Stopped.endedBy {ending : Ending Int} (h : shell.Stopped ending past)
    {before after : List (Event ServiceCall.Reply)} {fd offset : Int} {size : Value} {line : Bytes}
    (hsplit : past = before ++ .called (.readLine fd offset size) (.ok line) :: after)
    (hends : shell.EndsRun line) : shell.EndedBy fd after ending := by
  obtain ⟨fd', after', ⟨before', offset', size', line', rfl, hbefore, -⟩, hafter, hended⟩ := h
  have hlast : shell.ReadsLast (.called (.readLine fd offset size) (.ok line)) :=
    ⟨fd, offset, size, line, rfl, hends⟩
  -- if the two reads were not the same, one would be a last line before or behind the other
  rcases List.append_eq_append_iff.mp hsplit with ⟨between, rfl, heq⟩ | ⟨between, rfl, heq⟩
  · cases between with
    | nil =>
        cases heq
        exact hended
    | cons e between =>
        obtain ⟨-, rfl⟩ := List.cons.inj heq
        exact absurd hlast (hafter _ (List.mem_append_right _ List.mem_cons_self))
  · cases between with
    | nil =>
        cases heq
        exact hended
    | cons e between =>
        obtain ⟨rfl, -⟩ := List.cons.inj heq
        exact absurd hlast (hbefore _ (List.mem_append_right _ List.mem_cons_self))

/-- Every last line that a run reads ends it. -/
theorem run_endedBy (hbuffer : buffer.Sized) (hs : buffer.SameSize s.line)
    (hfd : standardInput < w.nextFd) (rounds : Nat) (scripts : List Text)
    {before after : List (Event ServiceCall.Reply)} {fd offset : Int} {size : Value} {line : Bytes}
    (hsplit : ((shell.run rounds scripts).run InMemory.answer s w).events =
      before ++ .called (.readLine fd offset size) (.ok line) :: after)
    (hends : shell.EndsRun line) :
    shell.EndedBy fd after ((shell.run rounds scripts).run InMemory.answer s w).ending := by
  have hlast : shell.ReadsLast (.called (.readLine fd offset size) (.ok line)) :=
    ⟨fd, offset, size, line, rfl, hends⟩
  have hgone : ¬shell.GoesOn ((shell.run rounds scripts).run InMemory.answer s w).events := by
    rw [hsplit]
    exact fun h => h _ (List.mem_append_right _ List.mem_cons_self) hlast
  have hrun := @ensures_run shell buffer hbuffer rounds scripts [] s w
    ⟨fun _ h => (nomatch h), hs, hfd⟩
  rw [List.nil_append] at hrun
  cases hend : ((shell.run rounds scripts).run InMemory.answer s w).ending with
  | returned status =>
      rw [hend] at hrun
      exact hrun.elim (fun h => absurd h.goesOn hgone) fun h => h.endedBy hsplit hends
  | failed e =>
      rw [hend] at hrun
      exact hrun.elim (fun h => absurd h.goesOn hgone) fun h => h.endedBy hsplit hends
  | outOfRounds =>
      rw [hend] at hrun
      exact absurd hrun.goesOn hgone

end Shell

end LineShell
