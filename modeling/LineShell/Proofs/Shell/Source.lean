import LineShell.Proofs.Program.Notes
import LineShell.Proofs.Shell.Exit
import LineShell.Proofs.Shell.Reader
import LineShell.Proofs.Shell.Start

/-!
# The lines of a source

What a shell does with a source depends on the bytes of the source alone: it reads the pieces of the
source one after another and hands the tokens of each to the built-in commands.  It leaves its input
behind only at a line that names `exit`.

Each step of the loop keeps `ReadOn` or leads to the next line, and a budget of rounds says how many
steps are left (`Reader.ensures_runFrom`).  Apart from the notes of what is handed over the run is the
one without them (`run_runFrom_noted`).

The main result is `runSource_readsPieces`.
-/

namespace LineShell

open Program LineShell.Action

namespace Reader

variable {r : Reader} {past : List (Event ServiceCall.Reply)} {s t : Session} {w v : InMemory}
  {offset budget : Nat} {pending : List Bytes}

/-! ## Steps -/

/-- The services that have nothing to do with reading a source. -/
def asideServices : List ServiceCall.Name :=
  [.write, .fileExists, .isDir, .getPwd, .setPwd, .getPath, .getPid, .fork, .exec, .waitpid, .exit]

/-- Reading goes on at an offset, and something was seen. -/
def At (r : Reader) (offset : Nat) (pending : List Bytes) (budget : Nat)
    (P : List (Event ServiceCall.Reply) → Prop) : Assertion Session InMemory ServiceCall.Reply :=
  fun past s w => r.ReadOn offset pending budget past s w ∧ P past

/-- A read failed in the operating system. -/
def ReadFailed (past : List (Event ServiceCall.Reply)) : Prop :=
  ∃ fd offset size errno text,
    .called (.readLine fd offset size) (.error (.os errno text)) ∈ past

/-- No child could be made. -/
def ForkFailed (past : List (Event ServiceCall.Reply)) : Prop :=
  ∃ e, .called .fork (.error e) ∈ past

/-- What was handed over last names the command that leaves all input behind. -/
def HandedExit (past : List (Event ServiceCall.Reply)) : Prop :=
  ∃ tokens, (handings past).getLast? = some (Builtin.handing tokens) ∧
    tokens.head? = some Builtin.exit.name

theorem lasting_readFailed : Lasting ReadFailed :=
  fun _ _ ⟨fd, offset, size, errno, text, h⟩ =>
    ⟨fd, offset, size, errno, text, List.mem_append_left _ h⟩

theorem lasting_forkFailed : Lasting ForkFailed :=
  fun _ _ ⟨e, h⟩ => ⟨e, List.mem_append_left _ h⟩

variable {P : List (Event ServiceCall.Reply) → Prop}

theorem At.logged {entry : Log.Entry} (hP : Lasting P) (hentry : entry.subsystem ∈ Shell.subsystems)
    (h : r.At offset pending budget P past s w) :
    r.At offset pending budget P (past ++ [.logged entry]) s w :=
  ⟨h.1.aside (Builtin.isHanding_eq_false hentry) (LineBuffer.SameSize.refl _) rfl (Nat.le_refl _),
    hP _ _ h.2⟩

theorem ensures_aside {α : Type} {p : Action α} {names : List ServiceCall.Name}
    {parts : List Session.Part} (hp : p.Footprint (Shell.scope names parts))
    (hnames : names.all asideServices.contains) (hP : Lasting P) :
    Ensures InMemory.answer (r.At offset pending budget P) p
      (fun _ => r.At offset pending budget P) (fun _ => r.At offset pending budget P) Never := by
  refine hp.ensures (fun c hc past s w h => ?_) (fun past s t w hst h => ?_)
    (fun entry hentry past s w h => ?_) fun hstops => nomatch hstops
  · have hmem : asideServices.contains c.name :=
      List.all_eq_true.mp hnames _ (List.contains_iff_mem.mp hc)
    have hname : c.name ≠ .readLine := Shell.name_ne_of_mem hmem rfl
    have hopen : c.name ≠ .openReadOnly := Shell.name_ne_of_mem hmem rfl
    have hclose : c.name ≠ .close := Shell.name_ne_of_mem hmem rfl
    rw [InMemory.answer_inner]
    refine ⟨h.1.aside hname (LineBuffer.SameSize.refl _) ?_ ?_, hP _ _ h.2⟩
    · exact InMemory.answer_sources hopen hclose w
    · exact InMemory.length_faults_answer_le c w
  · exact ⟨{ h.1 with buffer := h.1.buffer.trans hst.2 }, h.2⟩
  · exact h.logged hP hentry

theorem At.mono {Q : List (Event ServiceCall.Reply) → Prop} {left : Nat}
    (hPQ : ∀ past, P past → Q past) (hleft : left ≤ budget) (h : r.At offset pending left P past s w) :
    r.At offset pending budget Q past s w :=
  ⟨{ h.1 with budget := Nat.le_trans h.1.budget hleft }, hPQ past h.2⟩

theorem At.imp {Q : List (Event ServiceCall.Reply) → Prop} (hPQ : ∀ past, P past → Q past)
    (h : r.At offset pending budget P past s w) : r.At offset pending budget Q past s w :=
  h.mono hPQ (Nat.le_refl _)

/-- A fact among what was seen may be used from the start. -/
theorem At.ensures {α : Type} {p : Action α} {φ : Prop}
    {returns : α → Assertion Session InMemory ServiceCall.Reply}
    {fails : Failure → Assertion Session InMemory ServiceCall.Reply}
    {stops : Assertion Session InMemory ServiceCall.Reply}
    (h : φ → Ensures InMemory.answer (r.At offset pending budget P) p returns fails stops) :
    Ensures InMemory.answer (r.At offset pending budget fun past => P past ∧ φ) p returns fails
      stops :=
  fun past s w hat => h hat.2.2 past s w (hat.imp fun _ h => h.1)

/-- What one read of the source brings: nothing at its end, else the next piece, or a failure. -/
theorem ensures_request (hr : r.buffer.Sized) (hP : Lasting P) :
    Ensures InMemory.answer (r.At offset [] budget P) (ask (.readLine r.fd offset r.buffer.size))
      (fun (chunk : Bytes) =>
        match chunk with
        | [] => r.At offset [] budget fun past => P past ∧ r.content.drop offset = []
        | chunk => r.At (offset + chunk.length) [chunk] (budget - 1) fun past =>
            P past ∧ 0 < budget ∧ chunk.length ≤ r.buffer.capacity)
      (fun e => r.At offset [] (budget - 1) fun past =>
        P past ∧ 0 < budget ∧ .called (.readLine r.fd offset r.buffer.size) (.error e) ∈ past)
      Never := by
  have hpos : (0 : Int) < r.buffer.capacity := Int.natCast_pos.mpr hr.pos
  have hsources := InMemory.answer_sources (c := .readLine r.fd offset r.buffer.size) nofun nofun
  refine Ensures.request_alone (InMemory.answer_inner _) (fun past s w chunk h hchunk => ?_)
    fun past s w e h he => ?_
  · have hfaults := InMemory.length_faults_answer_le (.readLine r.fd offset r.buffer.size) w
    rcases @InMemory.answer_readLine w r.fd offset _ _ _ h.1.content hr.size with hline | ⟨e, he, -⟩
    · have hchunk : chunk = InMemory.lineAt r.content offset r.buffer.capacity := by
        rw [hline] at hchunk
        exact (Except.ok.inj hchunk).symm
      cases chunk with
      | nil =>
          have hend := (InMemory.lineAt_eq_nil_iff hpos).mp hchunk.symm
          rw [Int.toNat_natCast] at hend
          refine ⟨h.1.readNothing rfl (hsources w) ?_, hP _ _ h.2, hend⟩
          exact Nat.le_trans (Nat.add_le_add_right hfaults _) h.1.budget
      | cons byte rest =>
          -- something was left to read, so the budget was not used up
          have hroom : offset < r.content.length := by
            have hne : ¬r.content.drop (offset : Int).toNat = [] := fun hend =>
              List.cons_ne_nil byte rest (hchunk.trans ((InMemory.lineAt_eq_nil_iff hpos).mpr hend))
            rw [Int.toNat_natCast, List.drop_eq_nil_iff] at hne
            omega
          have hbudget : budget = (budget - 1) + 1 := by
            have := h.1.budget
            omega
          refine ⟨?_, hP _ _ h.2, by omega, ?_⟩
          · exact (hbudget ▸ h.1).readPiece hr (List.cons_ne_nil _ _) hchunk (hsources w) hfaults
          · rw [hchunk]
            exact InMemory.length_lineAt_le
    · rw [he] at hchunk
      cases hchunk
  · rcases @InMemory.answer_readLine w r.fd offset _ _ _ h.1.content hr.size with
      hline | ⟨e', -, hfaults⟩
    · rw [hline] at he
      cases he
    · -- a failed read costs a fault
      have := h.1.budget
      exact ⟨h.1.readNothing rfl (hsources w) (by omega), hP _ _ h.2, by omega, by simp⟩

theorem ensures_readLine (hr : r.buffer.Sized) (hP : Lasting P) (interactive : Bool) :
    Ensures InMemory.answer (r.At offset [] budget P) (Shell.readLine interactive r.fd offset)
      (fun reading =>
        match reading with
        | .exhausted => r.At offset [] budget fun past =>
            P past ∧ (r.content.drop offset = [] ∨ ReadFailed past)
        | .interrupted => r.At offset [] (budget - 1) fun past => P past ∧ 0 < budget
        | .line chunk => r.At (offset + chunk.length) [chunk] (budget - 1) fun past =>
            P past ∧ 0 < budget ∧ chunk.length ≤ r.buffer.capacity)
      (fun _ => r.At offset [] budget P) Never := by
  refine Ensures.state_bind fun s => ?_
  by_cases hsize : s.line.size = r.buffer.size
  · rw [hsize]
    refine Ensures.weaken ?_ fun past t w h => h.2
    refine Ensures.bind ((ensures_request hr hP).attempt) fun outcome => ?_
    -- a failure that is passed on costs nothing, since no round comes behind it
    have hfails : ∀ e, Ensures InMemory.answer (r.At offset [] (budget - 1) fun past =>
        P past ∧ 0 < budget ∧ .called (.readLine r.fd offset r.buffer.size) (.error e) ∈ past)
        (fail e : Action Shell.Reading) (fun _ => Never) (fun _ => r.At offset [] budget P) Never :=
      fun e => Ensures.fail fun _ _ _ h => h.mono (fun _ h => h.1) (Nat.sub_le _ _)
    rcases outcome with e | chunk
    · cases e with
      | interrupt =>
          cases interactive with
          | false => exact (hfails _).of_never
          | true =>
              refine Ensures.bind (m := fun _ => r.At offset [] (budget - 1) fun past =>
                P past ∧ 0 < budget) ?_ fun _ => Ensures.done fun _ _ _ h => h
              refine (ensures_aside (Shell.footprint_print "\n") rfl
                (hP.and (lasting_const (0 < budget)))).mono ?_
                (fun _ _ _ _ h => h) ?_ fun _ _ _ h => h
              · exact fun _ _ _ h => h.imp fun _ h => ⟨h.1, h.2.1⟩
              · exact fun _ _ _ _ h => h.mono (fun _ h => h.1) (Nat.sub_le _ _)
      | os errno text =>
          have hsay : (Shell.say .error (("Read failed: " : Text) ++ Failure.osMessage errno text)
              [("fd", .int r.fd)]).Footprint (Shell.scope [] []) := footprint_say _ _ _
          refine Ensures.bind (m := fun _ => r.At offset [] budget fun past =>
            P past ∧ ReadFailed past) ?_ fun _ => Ensures.done fun _ _ _ h => ?_
          · refine (ensures_aside hsay rfl (hP.and lasting_readFailed)).mono ?_
              (fun _ _ _ _ h => h) ?_ fun _ _ _ h => h
            · exact fun _ _ _ h => h.mono (fun _ h => ⟨h.1, _, _, _, _, _, h.2.2⟩) (Nat.sub_le _ _)
            · exact fun _ _ _ _ h => h.imp fun _ h => h.1
          · exact h.imp fun _ h => ⟨h.1, .inr h.2⟩
      | _ => exact (hfails _).of_never
    · cases chunk with
      | nil => exact Ensures.done fun past s w h => h.imp fun _ h => ⟨h.1, .inl h.2⟩
      | cons byte rest => exact Ensures.done fun past s w h => h
  · rintro past t w ⟨rfl, h⟩
    exact absurd h.1.buffer.size hsize

/-- A line that was read is split into its tokens. -/
theorem ensures_tokenize {shell : Shell} (hmarker : shell.marker.val < 256)
    (hr : r.marker = UInt8.ofNat shell.marker.val) {chunk : Bytes}
    (hfit : chunk.length ≤ r.buffer.capacity) :
    Ensures InMemory.answer (r.At offset pending budget P) (shell.tokenize chunk)
      (fun tokens past s w => tokens = Line.tokens r.marker chunk ∧
        r.At offset pending budget P past s w) (fun _ => Never) Never := by
  rw [hr]
  refine Shell.ensures_tokens hmarker (fun past s w h => ?_) fun past s w line h hsame => ?_
  · rw [h.1.buffer.capacity]
    exact hfit
  · exact ⟨{ h.1 with buffer := h.1.buffer.trans hsame }, h.2⟩

theorem indifferent_at (hP : Lasting P) : Child.Indifferent (r.At offset pending budget P) where
  foreground _ _ _ _ h := ⟨{ h.1 with buffer := h.1.buffer }, h.2⟩
  logged _ hentry _ _ _ h := h.logged hP hentry

/-- Only a fork that failed keeps a child from being made. -/
theorem ensures_spawnOrReport (hP : Lasting P) :
    Ensures InMemory.answer (r.At offset pending budget P) Shell.spawnOrReport
      (fun child => r.At offset pending budget fun past => P past ∧
        (child = none → ForkFailed past)) (fun _ => r.At offset pending budget P) Never := by
  have hfork : Ensures InMemory.answer (r.At offset pending budget P) (ask .fork)
      (fun _ => r.At offset pending budget P)
      (fun _ => r.At offset pending budget fun past => P past ∧ ForkFailed past) Never := by
    have haside : ∀ past s w outcome, r.At offset pending budget P past s w →
        r.ReadOn offset pending budget (past ++ [.called .fork outcome]) s
          (InMemory.answer .fork w).world := by
      intro past s w outcome h
      exact h.1.aside nofun (LineBuffer.SameSize.refl _)
        (InMemory.answer_sources (c := .fork) nofun nofun w) (InMemory.length_faults_answer_le _ w)
    refine Ensures.request_alone (InMemory.answer_inner _) (fun past s w pid h _ => ?_)
      fun past s w e h _ => ?_
    · exact ⟨haside past s w _ h, hP _ _ h.2⟩
    · exact ⟨haside past s w _ h, hP _ _ h.2, e, by simp⟩
  -- once there is a child, nothing keeps it from being told
  have hspawn : Ensures InMemory.answer (r.At offset pending budget P) Child.spawn
      (fun _ => r.At offset pending budget P)
      (fun _ => r.At offset pending budget fun past => P past ∧ ForkFailed past) Never := by
    rw [Child.spawn_eq]
    refine Ensures.bind (hfork.orElse fun e => ?_) fun pid => ?_
    · unfold Child.unmade
      cases e.reportOf? .forkFailed with
      | none => exact Ensures.fail fun _ _ _ h => h
      | some report =>
          refine Ensures.bind (m := fun _ => r.At offset pending budget fun past =>
            P past ∧ ForkFailed past) ?_ fun _ => Ensures.fail fun _ _ _ h => h
          exact ((indifferent_at (hP.and lasting_forkFailed)).ensures_say _ _ _ _).mono_fails
            fun _ _ _ _ h => h.elim
    · refine Ensures.bind (((indifferent_at hP).ensures_made pid).mono_fails
        fun _ _ _ _ h => h.elim) fun _ => ?_
      exact Ensures.done fun _ _ _ h => h
  refine Ensures.bind hspawn.attempt fun outcome => ?_
  cases outcome with
  | ok pid => exact Ensures.done fun _ _ _ h => h.imp fun _ h => ⟨h, nofun⟩
  | error e =>
      dsimp only
      cases e.reportOf? .forkFailed with
      | none => exact Ensures.fail fun _ _ _ h => h.imp fun _ h => h.1
      | some report =>
          refine Ensures.bind ((ensures_aside (Shell.footprint_print "could not fork\n") rfl
            (hP.and lasting_forkFailed)).mono_fails fun _ _ _ _ h =>
              h.imp fun _ h => h.1) fun _ => ?_
          exact Ensures.done fun _ _ _ h => h.imp fun _ h => ⟨h.1, fun _ => h.2⟩

/-- No child is left out without a fork that failed. -/
theorem ensures_runInChild (shell : Shell) (tokens : List Text) (hP : Lasting P) :
    Ensures InMemory.answer (r.At offset pending budget P) (shell.runInChild tokens)
      (fun made => r.At offset pending budget fun past => P past ∧
        (made = false → ForkFailed past)) (fun _ => r.At offset pending budget P) Never := by
  refine Ensures.bind (ensures_spawnOrReport hP) fun child => ?_
  cases child with
  | none => exact Ensures.done fun _ _ _ h => h.imp fun _ h => ⟨h.1, fun _ => h.2 rfl⟩
  | some pid =>
      have hwaited : Ensures InMemory.answer (r.At offset pending budget P)
          ((Child.wait pid shell.waitTimeout).bind fun _ => done true)
          (fun made => r.At offset pending budget fun past => P past ∧
            (made = false → ForkFailed past)) (fun _ => r.At offset pending budget P) Never := by
        refine Ensures.bind (ensures_aside (footprint_wait pid _) rfl hP) fun _ => ?_
        exact Ensures.done fun _ _ _ h => h.imp fun _ h => ⟨h, nofun⟩
      have hmade : Ensures InMemory.answer (r.At offset pending budget P)
          (if pid = 0 then (shell.becomeCommand tokens).bind fun _ =>
              (Child.wait pid shell.waitTimeout).bind fun _ => done true
            else (Child.wait pid shell.waitTimeout).bind fun _ => done true)
          (fun made => r.At offset pending budget fun past => P past ∧
            (made = false → ForkFailed past)) (fun _ => r.At offset pending budget P) Never := by
        split
        · exact Ensures.bind (ensures_aside (shell.footprint_becomeCommand tokens) rfl hP) fun _ =>
            hwaited
        · exact hwaited
      exact hmade.weaken fun _ _ _ h => h.imp fun _ h => h.1

theorem handedExit_handing {tokens : List Text} (h : Builtin.ofName? (tokens.headD []) = some .exit) :
    HandedExit (past ++ [.logged (Builtin.handing tokens)]) := by
  have hlast : handings [.logged (Builtin.handing tokens)] = [Builtin.handing tokens] :=
    List.filter_cons_of_pos (Builtin.isHanding_handing _)
  refine ⟨tokens, by rw [handings_append, hlast, List.getLast?_concat], ?_⟩
  have hname := Builtin.ofName?_eq_some.mp h
  cases tokens with
  | nil => cases hname
  | cons command arguments => exact congrArg some hname

/-- A line is handed over, and the verdict is to leave all input only where the line names `exit`. -/
theorem ensures_handOver (home : Value) (hP : Lasting P) {chunk : Bytes} :
    Ensures InMemory.answer (r.At offset [chunk] budget P)
      (Builtin.noted (Builtin.dispatch home) (Line.tokens r.marker chunk))
      (fun verdict => r.At offset [] budget fun past => P past ∧ (verdict = .exit → HandedExit past))
      (fun _ => r.At offset [] budget P) Never := by
  by_cases hexit : Builtin.ofName? ((Line.tokens r.marker chunk).headD []) = some .exit
  · -- `exit` does nothing, so the note is still the last thing that was seen
    refine Ensures.bind (m := fun _ => r.At offset [] budget fun past => P past ∧ HandedExit past)
      (Ensures.log fun _ _ _ h => ⟨h.1.handOver, hP _ _ h.2, handedExit_handing hexit⟩) fun _ => ?_
    rw [Builtin.dispatch_exit home hexit]
    exact Ensures.done fun _ _ _ h => h.imp fun _ h => ⟨h.1, fun _ => h.2⟩
  · refine Ensures.bind (m := fun _ => r.At offset [] budget P)
      (Ensures.log fun _ _ _ h => ⟨h.1.handOver, hP _ _ h.2⟩) fun _ => ?_
    have hkept : Ensures InMemory.answer (r.At offset [] budget P)
        (Builtin.dispatch home (Line.tokens r.marker chunk)) (fun _ => r.At offset [] budget P)
        (fun _ => r.At offset [] budget P) Never :=
      ensures_aside (footprint_dispatch home _) rfl hP
    refine ((Builtin.ensures_dispatch_ne_exit home hexit).and hkept).mono
      (fun _ _ _ h => h) (fun verdict _ _ h => ?_) (fun _ _ _ _ h => h.2) fun _ _ _ h => h.2
    exact fun hat => hat.2.imp fun _ hpast => ⟨hpast, fun hverdict => absurd hverdict hat.1⟩

/-- A source is left before its end only without a child, and only where nobody is asked, and all input
is left only at `exit`. -/
theorem ensures_runLine {shell : Shell} (hmarker : shell.marker.val < 256)
    (hr : r.marker = UInt8.ofNat shell.marker.val) (home : Value) (hP : Lasting P)
    (interactive : Bool) {chunk : Bytes} (hfit : chunk.length ≤ r.buffer.capacity) :
    Ensures InMemory.answer (r.At offset [chunk] budget P)
      (shell.runLine (Builtin.noted (Builtin.dispatch home)) interactive chunk)
      (fun next => r.At offset [] budget fun past => P past ∧
        (next = .leaveSource → interactive = false ∧ ForkFailed past) ∧
        (next = .leaveAll → HandedExit past))
      (fun _ => r.At offset [] budget P) Never := by
  refine Ensures.bind ((ensures_tokenize hmarker hr hfit).mono_fails fun _ _ _ _ h => h.elim)
    fun tokens => Ensures.and_pre fun htokens => ?_
  subst htokens
  refine Ensures.bind (ensures_handOver home hP) fun verdict => ?_
  cases verdict with
  | exit => exact Ensures.done fun _ _ _ h => h.imp fun _ h => ⟨h.1, nofun, fun _ => h.2 rfl⟩
  | handled => exact Ensures.done fun _ _ _ h => h.imp fun _ h => ⟨h.1, nofun, nofun⟩
  | notBuiltin =>
      refine Ensures.bind ((ensures_runInChild shell _ hP).weaken
        fun _ _ _ h => h.imp fun _ h => h.1) fun made => ?_
      cases made with
      | true => exact Ensures.done fun _ _ _ h => h.imp fun _ h => ⟨h.1, nofun, nofun⟩
      | false =>
          refine Ensures.done fun _ _ _ h => h.imp fun _ h => ?_
          cases interactive with
          | true => exact ⟨h.1, nofun, nofun⟩
          | false => exact ⟨h.1, fun _ => ⟨rfl, h.2 rfl⟩, nofun⟩

/-! ## The loop -/

/-- Reasons for which a source is done with: it is at its end, it cannot be read, or no child could
be made while nobody is asked. -/
def Ended (r : Reader) (interactive : Bool) (offset : Nat) (past : List (Event ServiceCall.Reply)) :
    Prop :=
  r.content.drop offset = [] ∨ ReadFailed past ∨ (interactive = false ∧ ForkFailed past)

/-- Reading goes on somewhere in the source. -/
def Somewhere (r : Reader) (P : List (Event ServiceCall.Reply) → Prop) :
    Assertion Session InMemory ServiceCall.Reply :=
  fun past s w => ∃ offset budget, r.At offset [] budget P past s w

/-- Each round leaves one line behind or hits a fault, so the rounds are used up only when there
were too few. -/
theorem ensures_runFrom {shell : Shell} (hr : r.buffer.Sized) (hmarker : shell.marker.val < 256)
    (hbyte : r.marker = UInt8.ofNat shell.marker.val) (home : Value)
    (hP : Lasting P) (interactive : Bool) (rounds offset budget : Nat) :
    Ensures InMemory.answer (r.At offset [] budget P)
      (shell.runFrom (Builtin.noted (Builtin.dispatch home)) r.fd interactive rounds offset)
      (fun goOn past s w => ∃ offset budget, r.At offset [] budget P past s w ∧
        (if goOn then r.Ended interactive offset past else HandedExit past))
      (fun _ => r.Somewhere P) (fun past s w => rounds ≤ budget ∧ r.Somewhere P past s w) := by
  -- the induction is on the rounds; a line and a failed read each take one of the budget
  induction rounds generalizing offset budget with
  | zero => exact Ensures.outOfRounds fun _ _ _ h => ⟨Nat.zero_le _, _, _, h⟩
  | succ rounds ih =>
      have hsomewhere : ∀ {offset budget past s w}, r.At offset [] budget P past s w →
          r.Somewhere P past s w := fun h => ⟨_, _, h⟩
      have hfewer : 0 < budget → rounds ≤ budget - 1 → rounds + 1 ≤ budget := by omega
      refine Ensures.bind (m := fun _ => r.At offset [] budget P) ?_ fun _ => ?_
      · exact (ensures_aside (shell.footprint_announce interactive) rfl hP).part
          fun _ _ _ _ h => hsomewhere h
      refine Ensures.bind ((ensures_readLine hr hP interactive).part fun _ _ _ _ h => hsomewhere h)
        fun reading => ?_
      cases reading with
      | exhausted =>
          refine Ensures.done fun past s w h => ⟨offset, budget, ?_, ?_⟩
          · exact h.imp fun _ h => h.1
          · exact h.2.2.imp_right .inl
      | interrupted =>
          refine At.ensures fun hbudget => ?_
          exact (ih offset (budget - 1)).mono (fun _ _ _ h => h) (fun _ _ _ _ h => h)
            (fun _ _ _ _ h => h) fun _ _ _ h => ⟨hfewer hbudget h.1, h.2⟩
      | line chunk =>
          refine At.ensures fun ⟨hbudget, hfit⟩ => ?_
          refine Ensures.bind ((ensures_runLine hmarker hbyte home hP interactive hfit).part
            fun _ _ _ _ h => hsomewhere h) fun next => ?_
          cases next with
          | leaveAll =>
              exact Ensures.done fun past s w h =>
                ⟨_, _, h.imp (fun _ h => h.1), h.2.2.2 rfl⟩
          | leaveSource =>
              exact Ensures.done fun past s w h =>
                ⟨_, _, h.imp (fun _ h => h.1), .inr (.inr (h.2.2.1 rfl))⟩
          | goOn =>
              have hrest := ih (offset + chunk.length) (budget - 1)
              rw [Int.natCast_add] at hrest
              exact hrest.mono (fun _ _ _ h => h.imp fun _ h => h.1)
                (fun _ _ _ _ h => h) (fun _ _ _ _ h => h)
                fun _ _ _ h => ⟨hfewer hbudget h.1, h.2⟩

end Reader

/-! ## Without the notes -/

/-- The notes are all that a run with notes shows beyond the run without them. -/
theorem Shell.run_runFrom_noted {shell : Shell} {dispatch : List Text → Action Builtin.Verdict}
    (hdispatch : ∀ tokens, (dispatch tokens).Footprint (Shell.scope [.isDir, .setPwd, .write] [.cwd]))
    (fd : Int) (interactive : Bool) (rounds : Nat) (offset : Int) (s : Session) (w : InMemory) :
    ((shell.runFrom (Builtin.noted dispatch) fd interactive rounds offset).run InMemory.answer s
        w).without Builtin.isHanding =
      (shell.runFrom dispatch fd interactive rounds offset).run InMemory.answer s w := by
  have hplain : ∀ {α : Type} {p : Action α} {names : List ServiceCall.Name}
      {parts : List Session.Part} {stops : Bool}, p.Footprint (scope names parts stops) → ∀ s w,
        (p.run InMemory.answer s w).without Builtin.isHanding = p.run InMemory.answer s w :=
    fun hp => hp.run_without (fun _ => Builtin.isHanding_eq_false) InMemory.answer_inner
  have hnoted : ∀ tokens s w,
      ((Builtin.noted dispatch tokens).run InMemory.answer s w).without Builtin.isHanding =
        (dispatch tokens).run InMemory.answer s w := by
    intro tokens s w
    rw [← hplain (hdispatch tokens) s w, Builtin.noted, run_bind, run_log]
    simp [Outcome.andThen, Outcome.without, Event.isVisible]
  have hline : ∀ chunk s w,
      ((shell.runLine (Builtin.noted dispatch) interactive chunk).run InMemory.answer s w).without
          Builtin.isHanding =
        (shell.runLine dispatch interactive chunk).run InMemory.answer s w := by
    intro chunk s w
    simp only [runLine, bind_eq_bind, run_bind, Outcome.without_andThen,
      hplain (shell.footprint_tokenize chunk), hnoted]
    congr 1
    funext tokens s w
    congr 1
    funext verdict s w
    exact hplain (shell.footprint_follow interactive tokens verdict) s w
  -- the parts run the same with and without notes, so the runs agree from each offset on
  induction rounds generalizing offset s w with
  | zero => rfl
  | succ rounds ih =>
      simp only [runFrom, bind_eq_bind, run_bind, Outcome.without_andThen,
        hplain (shell.footprint_announce interactive),
        hplain (footprint_readLine interactive fd offset)]
      congr 1
      funext _ s w
      congr 1
      funext reading s w
      cases reading with
      | exhausted => rfl
      | interrupted => exact ih offset s w
      | line chunk =>
          simp only [run_bind, Outcome.without_andThen, hline]
          congr 1
          funext next s w
          cases next with
          | leaveAll => rfl
          | leaveSource => rfl
          | goOn => exact ih _ s w

/-! ## The run of a source -/

/-- A run of a source reads pieces of it in order, each behind all the earlier ones, and hands over
the tokens of each.  It leaves all input behind only when the tokens that it handed over last begin with
`exit`.  A run that gets to its end without a failed read, and without a failed fork unless somebody is
asked, reads all of them. -/
structure Reader.ReadsPieces (r : Reader) (interactive : Bool)
    (o : Outcome Session InMemory ServiceCall.Reply Bool) : Prop where
  read : chunks o.events <+: r.pieces
  placed : r.Placed o.events
  handed : handings o.events = (chunks o.events).map r.note
  left : o.ending = .returned false → Reader.HandedExit o.events
  complete : o.ending = .returned true → ¬Reader.ReadFailed o.events →
    (interactive = true ∨ ¬Reader.ForkFailed o.events) →
      chunks o.events = r.pieces ∧ (chunks o.events).flatten = r.content

/-- Reading that went on up to an offset without anything pending. -/
theorem Reader.ReadOn.readsPieces {r : Reader} {interactive : Bool} {offset budget : Nat}
    {o : Outcome Session InMemory ServiceCall.Reply Bool}
    (h : r.ReadOn offset [] budget o.events o.state o.world)
    (hended : ∀ goOn, o.ending = .returned goOn →
      if goOn then r.Ended interactive offset o.events else HandedExit o.events) :
    r.ReadsPieces interactive o where
  read := ⟨_, h.pieces.symm⟩
  placed := h.placed
  handed := by simpa using h.handed
  left := hended false
  complete hend hread hfork := by
    have hall : chunks o.events = r.pieces := by
      rcases hended true hend with hnil | hfailed | ⟨hnobody, hfailed⟩
      · calc chunks o.events
            = chunks o.events ++ Line.pieces r.buffer.capacity (r.content.drop offset) := by
              rw [hnil]
              exact (List.append_nil _).symm
          _ = r.pieces := h.pieces.symm
      · exact absurd hfailed hread
      · rcases hfork with hasked | hmade
        · rw [hnobody] at hasked
          cases hasked
        · exact absurd hfailed hmade
    exact ⟨hall, by rw [hall]; exact Line.flatten_pieces _ _⟩

namespace Shell

/-- The buffer may have held any lines before: only its size matters.  With a round for every byte
and every fault, and one to spare, the rounds are not used up. -/
theorem runSource_readsPieces (shell : Shell) (hmarker : shell.marker.val < 256) {memory : Nat}
    {size : Value} {buffer : LineBuffer} (hsize : LineBuffer.ofSetting memory size = .ok buffer) {s : Session}
    (hs : buffer.SameSize s.line) {w : InMemory} {fd : Int} {content : Bytes}
    (hcontent : w.sources.lookup fd = some content) (interactive : Bool) (rounds : Nat) :
    let o := (shell.runFrom (Builtin.noted (Builtin.dispatch shell.home)) fd interactive rounds 0).run
      InMemory.answer s w
    o.without Builtin.isHanding = (shell.runSource rounds fd interactive).run InMemory.answer s w ∧
      Reader.ReadsPieces ⟨UInt8.ofNat shell.marker.val, buffer, fd, content⟩ interactive o ∧
      (w.faults.length + content.length < rounds → o.ending ≠ .outOfRounds) := by
  intro o
  let r : Reader := ⟨UInt8.ofNat shell.marker.val, buffer, fd, content⟩
  have hr : r.buffer.Sized := LineBuffer.sized_of_setting hsize
  have hplaced : r.Placed [] := fun before _ _ _ _ after h => by simp at h
  have hstart : r.At 0 [] (w.faults.length + content.length) (fun _ => True) [] s w :=
    ⟨⟨hs, hcontent, rfl, rfl, Nat.zero_le _, rfl, hplaced, Nat.le_refl _⟩, trivial⟩
  have hrun := Reader.ensures_runFrom hr hmarker rfl shell.home (lasting_const True) interactive rounds
    0 _ [] s w hstart
  refine ⟨run_runFrom_noted (footprint_dispatch shell.home) fd interactive rounds 0 s w, ?_⟩
  change o.ending.choose _ _ _ o.events o.state o.world at hrun
  cases hend : o.ending with
  | returned goOn =>
      rw [hend] at hrun
      obtain ⟨offset, budget, hat, hended⟩ := hrun
      refine ⟨hat.1.readsPieces fun answer h => ?_, fun _ => nofun⟩
      cases hend.symm.trans h
      exact hended
  | failed e =>
      rw [hend] at hrun
      obtain ⟨offset, budget, hat⟩ := hrun
      refine ⟨hat.1.readsPieces fun _ h => ?_, fun _ => nofun⟩
      rw [hend] at h
      cases h
  | outOfRounds =>
      rw [hend] at hrun
      obtain ⟨hfew, offset, budget, hat⟩ := hrun
      refine ⟨hat.1.readsPieces fun _ h => ?_, fun henough => ?_⟩
      · rw [hend] at h
        cases h
      · omega

/-- A line that does not fit into five bytes. -/
def longLine : Bytes := [0x61, 0x62, 0x20, 0x63, 0x64, 0x65, 0x0A]

/-- The long line, a line with `exit` and a line that nobody gets to. -/
def longLineThenExit : Bytes := longLine ++ [0x65, 0x78, 0x69, 0x74, 0x0A, 0x6C, 0x73, 0x0A]

/-- A world with a source on standard input. -/
def sourceWorld (content : Bytes) : InMemory := .create [] [] "/" "" content [] [] false false []

/-- The long line is read in two pieces, which are the whole source or are followed by the `exit` that
leaves the rest of it. -/
theorem runSource_readsPieces_of_longLine :
    let o (content : Bytes) := (Shell.default.runFrom
      (Builtin.noted (Builtin.dispatch Shell.default.home)) standardInput true 16 0).run
        InMemory.answer ⟨"/", none, .empty 5⟩ (sourceWorld content)
    Reader.ReadsPieces ⟨0x23, .empty 5, standardInput, longLine⟩ true (o longLine) ∧
      (o longLine).ending = .returned true ∧
      chunks (o longLine).events = [[0x61, 0x62, 0x20, 0x63, 0x64], [0x65, 0x0A]] ∧
      Reader.ReadsPieces ⟨0x23, .empty 5, standardInput, longLineThenExit⟩ true
        (o longLineThenExit) ∧
      (o longLineThenExit).ending = .returned false ∧
      handings (o longLineThenExit).events =
        [Builtin.handing ["ab", "cd"], Builtin.handing ["e"], Builtin.handing ["exit"]] := by
  intro o
  have hsize : LineBuffer.ofSetting 1024 (.int 5) = .ok (.empty 5) := rfl
  have hread (content : Bytes) :
      Reader.ReadsPieces ⟨0x23, .empty 5, standardInput, content⟩ true (o content) :=
    (runSource_readsPieces Shell.default (by decide) hsize (s := ⟨"/", none, .empty 5⟩)
      (LineBuffer.SameSize.refl _) (w := sourceWorld content) rfl true 16).2.1
  exact ⟨hread longLine, rfl, rfl, hread longLineThenExit, rfl, rfl⟩

end Shell

end LineShell
