import LineShell.Proofs.Program.MoreRounds
import LineShell.Proofs.Shell.Rounds
import LineShell.Proofs.Shell.Start

/-!
# Every run ends

The loop over the lines of a source has no end of its own.  `run_ne_outOfRounds` says that it comes to
an end before a number of rounds that depends on the world alone, and here it is shown that the number
does not matter beyond that (`Shell.run_prolongs`), so the run is that of the loop without any bound.

The second half of the file counts reads.  A source of `n` bytes is read `n + 1` times at most, and once
more for each interrupt at the prompt: a line that was read leaves one byte less at least, whatever the
line is, and there is one read that finds nothing more.

* `Metered` is the account of a single source while it is read: the reads so far and the reads that are
  still allowed make up what the source came with.  Its steps are those of the loop.
* `Ledger` holds between the scripts: each descriptor that was given out has been read as often as its
  file allows, and the descriptors to come have not been read at all.
* `Frugal` is what remains of the two at the end of a run.

The main result is `run_terminates`.
-/

namespace LineShell

open Program LineShell.Action

/-! ## More rounds -/

namespace Shell

section MoreRounds

variable {World : Type} {answer : (c : ServiceCall) → World → Answer World ServiceCall.Reply c}
  (shell : Shell)

theorem runFrom_prolongs (dispatch : List Text → Action Builtin.Verdict) (fd : Int)
    (interactive : Bool) (rounds : Nat) (offset : Int) :
    Prolongs answer (shell.runFrom dispatch fd interactive (rounds + 1) offset)
      (shell.runFrom dispatch fd interactive rounds offset) := by
  induction rounds generalizing offset with
  | zero => exact .outOfRounds
  | succ rounds ih =>
      refine Prolongs.bind (.refl _) fun _ => Prolongs.bind (.refl _) fun reading => ?_
      cases reading with
      | exhausted => exact .refl _
      | interrupted => exact ih offset
      | line chunk =>
          refine Prolongs.bind (.refl _) fun next => ?_
          cases next with
          | leaveAll => exact .refl _
          | leaveSource => exact .refl _
          | goOn => exact ih _

theorem runScript_prolongs (rounds : Nat) (script : Text) :
    Prolongs answer (shell.runScript (rounds + 1) script) (shell.runScript rounds script) := by
  refine Prolongs.bind (.refl _) fun s => Prolongs.bind (.refl _) fun searchPath => ?_
  refine Prolongs.bind (.refl _) fun path => Prolongs.bind (.refl _) fun opened => ?_
  cases opened with
  | none => exact .refl _
  | some fd =>
      refine Prolongs.bind (.refl _) fun _ => ?_
      exact (shell.runFrom_prolongs _ fd false rounds 0).andFinally

theorem runScripts_prolongs (rounds : Nat) (scripts : List Text) :
    Prolongs answer (shell.runScripts (rounds + 1) scripts) (shell.runScripts rounds scripts) := by
  induction scripts with
  | nil => exact .refl _
  | cons script rest ih =>
      refine Prolongs.bind (shell.runScript_prolongs rounds script) fun goOn => ?_
      cases goOn with
      | true => exact ih
      | false => exact .refl _

theorem run_prolongs (rounds : Nat) (scripts : List Text) :
    Prolongs answer (shell.run (rounds + 1) scripts) (shell.run rounds scripts) := by
  refine Prolongs.bind (.refl _) fun _ => Prolongs.orElse ?_
  refine Prolongs.bind (shell.runScripts_prolongs rounds scripts) fun goOn => ?_
  cases goOn with
  | true => exact Prolongs.bind (shell.runFrom_prolongs _ standardInput true rounds 0) fun _ => .refl _
  | false => exact .refl _

end MoreRounds

/-- With more rounds than any loop can take, their number makes no difference. -/
theorem run_rounds_irrelevant (shell : Shell) (scripts : List Text) (s : Session) {w : InMemory}
    {rounds rounds' : Nat} (h : w.longestSource + w.faults.length < rounds)
    (h' : w.longestSource + w.faults.length < rounds') :
    (shell.run rounds scripts).run InMemory.answer s w =
      (shell.run rounds' scripts).run InMemory.answer s w := by
  have hstep : ∀ rounds, Prolongs InMemory.answer (shell.run (rounds + 1) scripts)
      (shell.run rounds scripts) := fun rounds => shell.run_prolongs rounds scripts
  rcases Nat.le_total rounds rounds' with hle | hle
  · exact (prolongs_of_le hstep hle s w (run_ne_outOfRounds shell s h scripts)).symm
  · exact prolongs_of_le hstep hle s w (run_ne_outOfRounds shell s h' scripts)

end Shell

/-! ## Counting reads -/

/-- Whether an event is a read of a source. -/
def Event.readsFrom (fd : Int) : Event ServiceCall.Reply → Bool
  | .called (.readLine source _ _) _ => source == fd
  | _ => false

/-- Whether an event is a read of a source that was interrupted. -/
def Event.interruptedAt (fd : Int) : Event ServiceCall.Reply → Bool
  | .called (.readLine source _ _) (.error .interrupt) => source == fd
  | _ => false

/-- How often a source was read. -/
def readsOf (fd : Int) (events : List (Event ServiceCall.Reply)) : Nat :=
  events.countP (Event.readsFrom fd)

/-- How often reading a source was interrupted. -/
def interruptsAt (fd : Int) (events : List (Event ServiceCall.Reply)) : Nat :=
  events.countP (Event.interruptedAt fd)

@[simp] theorem readsOf_append (fd : Int) (events more : List (Event ServiceCall.Reply)) :
    readsOf fd (events ++ more) = readsOf fd events + readsOf fd more := List.countP_append

@[simp] theorem interruptsAt_append (fd : Int) (events more : List (Event ServiceCall.Reply)) :
    interruptsAt fd (events ++ more) = interruptsAt fd events + interruptsAt fd more :=
  List.countP_append

@[simp] theorem readsOf_readLine (fd source offset : Int) (size : Value)
    (outcome : Except Failure Bytes) :
    readsOf fd [.called (.readLine source offset size) outcome] = if source = fd then 1 else 0 := by
  simp [readsOf, Event.readsFrom, List.countP_cons]

/-- Only reading is a read. -/
theorem readsOf_of_name_ne (fd : Int) {c : ServiceCall} (h : c.name ≠ .readLine)
    (outcome : Except Failure c.Reply) : readsOf fd [.called c outcome] = 0 := by
  cases c with
  | readLine source offset size => exact absurd rfl h
  | _ => rfl

/-- What a run may read: each script as often as it has bytes and once more, and standard input as
often as it has bytes, once more, and once more for each interrupt at the prompt. -/
structure Frugal (w : InMemory) (events : List (Event ServiceCall.Reply)) : Prop where
  scripts : ∀ path fd, .called (.openReadOnly path) (.ok fd) ∈ events →
    ∃ content, w.files.lookup path = some content ∧ readsOf fd events ≤ content.length + 1
  input : readsOf standardInput events ≤ ((w.sources.lookup standardInput).getD []).length + 1 +
    interruptsAt standardInput events

namespace Frugal

variable {w v : InMemory} {past : List (Event ServiceCall.Reply)} {s : Session}
  {fd offset : Int} {interactive : Bool} {spare : Nat}

/-! ### One source -/

/-- The interrupts that a source is read on after. -/
def pardoned (interactive : Bool) (fd : Int) (past : List (Event ServiceCall.Reply)) : Nat :=
  if interactive then interruptsAt fd past else 0

/-- While a source of `w` is read, nothing else is read and nothing is opened, and the reads so far and
the reads to spare are no more than its bytes, one, and the interrupts let pass. -/
structure Metered (w : InMemory) (fd : Int) (interactive : Bool) (spare : Nat)
    (past : List (Event ServiceCall.Reply)) (v : InMemory) : Prop where
  sources : v.sources = w.sources
  files : v.files = w.files
  nextFd : w.nextFd ≤ v.nextFd
  elsewhere : ∀ other, other ≠ fd → readsOf other past = 0
  unopened : ∀ path opened, .called (.openReadOnly path) (.ok opened) ∉ past
  paid : readsOf fd past + spare ≤
    ((w.sources.lookup fd).getD []).length + 1 + pardoned interactive fd past

/-- The account as a condition on a moment. -/
def On (w : InMemory) (fd : Int) (interactive : Bool) (spare : Nat) :
    Assertion Session InMemory ServiceCall.Reply := fun past _ v => Metered w fd interactive spare past v

theorem pardoned_append (past more : List (Event ServiceCall.Reply)) :
    pardoned interactive fd (past ++ more) =
      pardoned interactive fd past + pardoned interactive fd more := by
  cases interactive with
  | true => exact interruptsAt_append fd past more
  | false => rfl

theorem Metered.mono {fewer : Nat} (h : Metered w fd interactive spare past v)
    (hle : fewer ≤ spare) : Metered w fd interactive fewer past v :=
  { h with paid := Nat.le_trans (Nat.add_le_add_left hle _) h.paid }

/-- What reads and opens nothing costs nothing. -/
theorem Metered.quiet {e : Event ServiceCall.Reply} {v' : InMemory}
    (h : Metered w fd interactive spare past v) (hreads : ∀ other, readsOf other [e] = 0)
    (hopens : ∀ path opened, e ≠ .called (.openReadOnly path) (.ok opened))
    (hsources : v'.sources = v.sources) (hfiles : v'.files = v.files) (hnext : v.nextFd ≤ v'.nextFd) :
    Metered w fd interactive spare (past ++ [e]) v' where
  sources := hsources.trans h.sources
  files := hfiles.trans h.files
  nextFd := Int.le_trans h.nextFd hnext
  elsewhere other hother := by
    rw [readsOf_append, hreads, h.elsewhere other hother]
  unopened path opened hmem := by
    rcases List.mem_append.mp hmem with hmem | hmem
    · exact h.unopened path opened hmem
    · exact hopens path opened (List.mem_singleton.mp hmem).symm
  paid := by
    have hpaid := h.paid
    rw [readsOf_append, hreads, pardoned_append]
    omega

theorem ensures_metered {α : Type} {p : Action α} {names : List ServiceCall.Name}
    {parts : List Session.Part} (hp : p.Footprint (Shell.scope names parts))
    (hnames : names.all Shell.sourceServices.contains) (hread : names.contains .readLine = false) :
    Ensures InMemory.answer (On w fd interactive spare) p (fun _ => On w fd interactive spare)
      (fun _ => On w fd interactive 0) (On w fd interactive 0) := by
  have hkept : Ensures InMemory.answer (On w fd interactive spare) p
      (fun _ => On w fd interactive spare) (fun _ => On w fd interactive spare) Never := by
    refine hp.ensures (fun c hc past s v h => ?_) (fun _ _ _ _ _ h => h) (fun entry _ past s v h => ?_)
      fun hstops => nomatch hstops
    · have hmem : Shell.sourceServices.contains c.name :=
        List.all_eq_true.mp hnames _ (List.contains_iff_mem.mp hc)
      have hopen : c.name ≠ .openReadOnly := Shell.name_ne_of_mem hmem rfl
      have hclose : c.name ≠ .close := Shell.name_ne_of_mem hmem rfl
      rw [InMemory.answer_inner]
      refine h.quiet (fun other => readsOf_of_name_ne other (Shell.name_ne_of_mem hc hread) _) ?_
        (InMemory.answer_sources hopen hclose v) (InMemory.answer_files c v)
        (InMemory.nextFd_le_answer c v)
      intro path opened he
      obtain ⟨rfl, -⟩ := Event.called.inj he
      exact hopen rfl
    · exact h.quiet (fun _ => rfl) nofun rfl rfl (Int.le_refl _)
  exact hkept.mono (fun _ _ _ h => h) (fun _ _ _ _ h => h) (fun _ _ _ _ h => h.mono (Nat.zero_le _))
    fun _ _ _ h => h.elim

/-- A read is paid for by what it was allowed to spare, or by its interrupt. -/
theorem Metered.read {c : ServiceCall} {size : Value} {left : Nat}
    (h : Metered w fd interactive spare past v) (hc : c = .readLine fd offset size)
    (hpaid : left + 1 ≤ spare +
      pardoned interactive fd [.called c (InMemory.answer c v).outcome]) :
    Metered w fd interactive left (past ++ [.called c (InMemory.answer c v).outcome])
      (InMemory.answer c v).world := by
  subst hc
  constructor
  · exact (InMemory.answer_sources (c := .readLine fd offset size) nofun nofun v).trans h.sources
  · exact (InMemory.answer_files _ v).trans h.files
  · exact Int.le_trans h.nextFd (InMemory.nextFd_le_answer _ v)
  · intro other hother
    rw [readsOf_append, h.elsewhere other hother, readsOf_readLine, if_neg hother.symm]
  · intro path opened hmem
    rcases List.mem_append.mp hmem with hmem | hmem
    · exact h.unopened path opened hmem
    · cases List.mem_singleton.mp hmem
  · have hbefore := h.paid
    rw [readsOf_append, readsOf_readLine, if_pos rfl, pardoned_append]
    omega

/-- The reads that are left behind an offset: one for each byte, and one that finds nothing. -/
def allowance (w : InMemory) (fd offset : Int) : Nat := w.unread fd offset + 1

theorem allowance_of_sources {v : InMemory} (hsources : v.sources = w.sources) (fd offset : Int) :
    allowance v fd offset = allowance w fd offset := by
  unfold allowance InMemory.unread
  rw [hsources]

/-- A read that finds something pays for itself, and so does one that is interrupted at the prompt. -/
theorem ensures_asking (hoffset : 0 ≤ offset) (size : Value) :
    Ensures InMemory.answer (On w fd interactive (allowance w fd offset))
      (ask (.readLine fd offset size))
      (fun (chunk : Bytes) =>
        On w fd interactive (if chunk = [] then 0 else allowance w fd (offset + chunk.length)))
      (fun e past t v => On w fd interactive 0 past t v ∧ (e = .interrupt → interactive = true →
        On w fd interactive (allowance w fd offset) past t v)) (On w fd interactive 0) := by
  refine Ensures.request_alone (InMemory.answer_inner _) (fun past t v chunk h hchunk => ?_)
    fun past t v e h he => ?_
  · rw [← hchunk]
    cases chunk with
    | nil =>
        rw [if_pos rfl]
        exact h.read rfl (by unfold allowance; omega)
    | cons byte rest =>
        rw [if_neg (List.cons_ne_nil byte rest)]
        refine h.read rfl ?_
        -- the line that was read is no longer behind the offset
        have hsources := InMemory.answer_sources (c := .readLine fd offset size) (by rintro ⟨⟩)
          (by rintro ⟨⟩) v
        have hless := InMemory.unread_of_answer_readLine hoffset hchunk
        have hbefore := allowance_of_sources h.sources fd offset
        have hbehind :=
          allowance_of_sources (hsources.trans h.sources) fd (offset + (byte :: rest).length)
        unfold allowance at *
        omega
  · rw [← he]
    refine ⟨h.read rfl (by unfold allowance; omega), ?_⟩
    rintro rfl rfl
    refine h.read rfl ?_
    rw [he]
    have hone : pardoned true fd [.called (.readLine fd offset size) (.error .interrupt)] = 1 := by
      simp [pardoned, interruptsAt, Event.interruptedAt]
    omega

theorem ensures_reading (hoffset : 0 ≤ offset) :
    Ensures InMemory.answer (On w fd interactive (allowance w fd offset))
      (Shell.readLine interactive fd offset)
      (fun reading =>
        match reading with
        | .line chunk => On w fd interactive (allowance w fd (offset + chunk.length))
        | .interrupted => On w fd interactive (allowance w fd offset)
        | .exhausted => On w fd interactive 0)
      (fun _ => On w fd interactive 0) (On w fd interactive 0) := by
  rw [Shell.readLine_eq]
  refine Ensures.state_bind fun s => Ensures.weaken ?_ fun _ _ _ h => h.2
  have hread := @ensures_asking w fd offset interactive hoffset s.line.size
  refine Ensures.bind hread.attempt fun outcome => ?_
  rcases outcome with e | chunk
  · cases e with
    | interrupt =>
        cases interactive with
        | false => exact Ensures.fail fun _ _ _ h => h.1
        | true =>
            refine Ensures.bind ((ensures_metered (Shell.footprint_print "\n") rfl rfl).weaken
              fun _ _ _ h => h.2 rfl rfl) fun _ => ?_
            exact Ensures.done fun _ _ _ h => h
    | os errno text =>
        have hsay : (Shell.say .error (("Read failed: " : Text) ++ Failure.osMessage errno text)
            [("fd", .int fd)]).Footprint (Shell.scope [] []) := footprint_say _ _ _
        refine Ensures.bind ((ensures_metered hsay rfl rfl).weaken fun _ _ _ h => h.1) fun _ => ?_
        exact Ensures.done fun _ _ _ h => h
    | _ => exact Ensures.fail fun _ _ _ h => h.1
  · cases chunk with
    | nil => exact Ensures.done fun _ _ _ h => h
    | cons byte rest => exact Ensures.done fun _ _ _ h => h

theorem ensures_runFrom (shell : Shell) (rounds : Nat) (hoffset : 0 ≤ offset) :
    Ensures InMemory.answer (On w fd interactive (allowance w fd offset))
      (shell.runFrom (Builtin.dispatch shell.home) fd interactive rounds offset)
      (fun _ => On w fd interactive 0) (fun _ => On w fd interactive 0) (On w fd interactive 0) := by
  induction rounds generalizing offset with
  | zero => exact Ensures.outOfRounds fun _ _ _ h => h.mono (Nat.zero_le _)
  | succ rounds ih =>
      refine Ensures.bind (ensures_metered (shell.footprint_announce interactive) rfl rfl) fun _ => ?_
      refine Ensures.bind (ensures_reading hoffset) fun reading => ?_
      cases reading with
      | exhausted => exact Ensures.done fun _ _ _ h => h
      | interrupted => exact ih hoffset
      | line chunk =>
          refine Ensures.bind (ensures_metered (shell.footprint_command interactive chunk) rfl rfl)
            fun next => ?_
          cases next with
          | leaveAll => exact Ensures.done fun _ _ _ h => h.mono (Nat.zero_le _)
          | leaveSource => exact Ensures.done fun _ _ _ h => h.mono (Nat.zero_le _)
          | goOn => exact ih (by omega)

/-- However reading a source ends, its account is kept. -/
theorem metered_runSource (shell : Shell) (rounds : Nat) (s : Session) (w : InMemory) (fd : Int)
    (interactive : Bool) :
    let o := (shell.runSource rounds fd interactive).run InMemory.answer s w
    Metered w fd interactive 0 o.events o.world := by
  have hstart : Metered w fd interactive (allowance w fd 0) [] w := by
    refine ⟨rfl, rfl, Int.le_refl _, fun _ _ => rfl, fun _ _ => List.not_mem_nil, ?_⟩
    unfold allowance InMemory.unread
    have hnone : readsOf fd [] = 0 := rfl
    omega
  exact (ensures_runFrom shell rounds (Int.le_refl 0)).always (fun _ _ _ _ h => h)
    (fun _ _ _ _ h => h) (fun _ _ _ h => h) (s := s) hstart

/-! ### One source after another -/

/-- Before standard input is read: each descriptor given out was read as often as its file allows at
most, and no other one was read. -/
structure Ledger (w : InMemory) (past : List (Event ServiceCall.Reply)) (v : InMemory) : Prop where
  files : v.files = w.files
  input : v.sources.lookup standardInput = w.sources.lookup standardInput
  next : standardInput < v.nextFd
  unprompted : readsOf standardInput past = 0
  unopened : ∀ fd, v.nextFd ≤ fd → readsOf fd past = 0
  opened : ∀ path fd, .called (.openReadOnly path) (.ok fd) ∈ past →
    standardInput < fd ∧ fd < v.nextFd ∧
      ∃ content, w.files.lookup path = some content ∧ readsOf fd past ≤ content.length + 1

/-- A script was opened and is about to be read. -/
structure Opened (w : InMemory) (fd : Int) (past : List (Event ServiceCall.Reply)) (v : InMemory) :
    Prop where
  ledger : Ledger w past v
  script : standardInput < fd
  given : fd < v.nextFd
  unread : readsOf fd past = 0
  content : ∃ content, v.sources.lookup fd = some content ∧
    ∀ path, .called (.openReadOnly path) (.ok fd) ∈ past → w.files.lookup path = some content

theorem Ledger.frugal (h : Ledger w past v) : Frugal w past where
  scripts path fd hmem := (h.opened path fd hmem).2.2
  input := by
    rw [h.unprompted]
    exact Nat.zero_le _

/-- What reads and opens nothing leaves the ledger as it is. -/
theorem Ledger.quiet {e : Event ServiceCall.Reply} {v' : InMemory} (h : Ledger w past v)
    (hreads : ∀ other, readsOf other [e] = 0)
    (hopens : ∀ path opened, e ≠ .called (.openReadOnly path) (.ok opened))
    (hfiles : v'.files = v.files)
    (hinput : v'.sources.lookup standardInput = v.sources.lookup standardInput)
    (hnext : v.nextFd ≤ v'.nextFd) : Ledger w (past ++ [e]) v' where
  files := hfiles.trans h.files
  input := hinput.trans h.input
  next := Int.lt_of_lt_of_le h.next hnext
  unprompted := by rw [readsOf_append, hreads, h.unprompted]
  unopened fd hfd := by rw [readsOf_append, hreads, h.unopened fd (Int.le_trans hnext hfd)]
  opened path fd hmem := by
    have hbefore : .called (.openReadOnly path) (.ok fd) ∈ past := by
      refine (List.mem_append.mp hmem).resolve_right fun hlast => ?_
      exact hopens path fd (List.mem_singleton.mp hlast).symm
    obtain ⟨hscript, hgiven, content, hcontent, hreadings⟩ := h.opened path fd hbefore
    refine ⟨hscript, Int.lt_of_lt_of_le hgiven hnext, content, hcontent, ?_⟩
    rw [readsOf_append, hreads]
    exact hreadings

/-- A file that was opened before is behind a smaller descriptor than the one that is given out. -/
theorem Ledger.opened_cases {path other : Text} {number : Int} (h : Ledger w past v)
    (hmem : .called (.openReadOnly other) (.ok number) ∈
      past ++ [.called (.openReadOnly path) (.ok v.nextFd)]) :
    .called (.openReadOnly other) (.ok number) ∈ past ∧ number < v.nextFd ∨
      other = path ∧ number = v.nextFd := by
  rcases List.mem_append.mp hmem with hmem | hmem
  · exact .inl ⟨hmem, (h.opened other number hmem).2.1⟩
  · cases List.mem_singleton.mp hmem
    exact .inr ⟨rfl, rfl⟩

/-- A descriptor that is given out has not been read yet. -/
theorem Ledger.opening {path : Text} (h : Ledger w past v)
    (hok : (InMemory.answer (.openReadOnly path) v).outcome = .ok fd) :
    Opened w fd (past ++ [.called (.openReadOnly path) (.ok fd)])
      (InMemory.answer (.openReadOnly path) v).world := by
  obtain ⟨hfd, hlater⟩ := InMemory.answer_openReadOnly_next hok
  obtain ⟨content, hcontent, hsources⟩ := InMemory.answer_openReadOnly_content hok
  rw [h.files] at hcontent
  subst hfd
  have hscript := h.next
  have hunread : ∀ other, readsOf other [.called (.openReadOnly path) (.ok v.nextFd)] = 0 :=
    fun _ => rfl
  refine ⟨⟨?_, ?_, ?_, ?_, ?_, ?_⟩, hscript, by omega, ?_, content, ?_, ?_⟩
  · exact (InMemory.answer_files _ v).trans h.files
  · rw [hsources, List.lookup_cons, beq_eq_false_iff_ne.mpr (Int.ne_of_lt hscript)]
    exact h.input
  · exact Int.lt_trans h.next hlater
  · rw [readsOf_append, hunread, h.unprompted]
  · intro other hother
    rw [readsOf_append, hunread, h.unopened other (by omega)]
  · intro other number hmem
    rw [readsOf_append, hunread]
    -- the new descriptor was not in use, so nothing was read from it yet
    rcases h.opened_cases hmem with ⟨hbefore, -⟩ | ⟨rfl, rfl⟩
    · obtain ⟨hscript, hgiven, hreadings⟩ := h.opened other number hbefore
      exact ⟨hscript, Int.lt_trans hgiven hlater, hreadings⟩
    · refine ⟨hscript, by omega, content, hcontent, ?_⟩
      rw [h.unopened v.nextFd (Int.le_refl _)]
      exact Nat.zero_le _
  · rw [readsOf_append, hunread, h.unopened v.nextFd (Int.le_refl _)]
  · rw [hsources, List.lookup_cons, beq_self_eq_true]
  · intro other hmem
    rcases h.opened_cases hmem with ⟨-, hless⟩ | ⟨rfl, -⟩
    · exact absurd hless (Int.lt_irrefl _)
    · exact hcontent

/-- A script that was read is paid for. -/
theorem Opened.read {v' : InMemory} {events : List (Event ServiceCall.Reply)} (h : Opened w fd past v)
    (hread : Metered v fd false 0 events v') : Ledger w (past ++ events) v' := by
  have hledger := h.ledger
  obtain ⟨content, hsource, hpaths⟩ := h.content
  have hpaid : readsOf fd events ≤ content.length + 1 := by
    have hpaid := hread.paid
    rw [hsource, Option.getD_some] at hpaid
    exact hpaid
  have hopened : ∀ path number, .called (.openReadOnly path) (.ok number) ∈ past ++ events →
      .called (.openReadOnly path) (.ok number) ∈ past := fun path number hmem =>
    (List.mem_append.mp hmem).resolve_right (hread.unopened path number)
  constructor
  · exact hread.files.trans hledger.files
  · rw [hread.sources]
    exact hledger.input
  · exact Int.lt_of_lt_of_le hledger.next hread.nextFd
  · rw [readsOf_append, hledger.unprompted, hread.elsewhere _ (Int.ne_of_lt h.script)]
  · intro other hother
    have hnext := hread.nextFd
    have hgiven := h.given
    rw [readsOf_append, hledger.unopened other (by omega), hread.elsewhere other (by omega)]
  · intro path number hmem
    obtain ⟨hscript, hgiven, other, hfile, hreadings⟩ :=
      hledger.opened path number (hopened path number hmem)
    refine ⟨hscript, Int.lt_of_lt_of_le hgiven hread.nextFd, other, hfile, ?_⟩
    rw [readsOf_append]
    -- only what is read of this script is added to the account
    by_cases hnumber : number = fd
    · subst hnumber
      rw [hpaths path (hopened path number hmem)] at hfile
      cases hfile
      rw [h.unread, Nat.zero_add]
      exact hpaid
    · rw [hread.elsewhere number hnumber]
      exact hreadings

/-- Standard input is the last source, and it is paid for, too. -/
theorem Ledger.prompted {v' : InMemory} {events : List (Event ServiceCall.Reply)} (h : Ledger w past v)
    (hread : Metered v standardInput true 0 events v') : Frugal w (past ++ events) := by
  constructor
  · intro path fd hmem
    have hbefore := (List.mem_append.mp hmem).resolve_right (hread.unopened path fd)
    obtain ⟨hscript, -, content, hcontent, hreadings⟩ := h.opened path fd hbefore
    refine ⟨content, hcontent, ?_⟩
    rw [readsOf_append, hread.elsewhere fd (Int.ne_of_gt hscript)]
    exact hreadings
  · have hpaid := hread.paid
    rw [h.input] at hpaid
    rw [readsOf_append, h.unprompted, interruptsAt_append]
    unfold pardoned at hpaid
    rw [if_pos rfl] at hpaid
    omega

/-! ### Parts of the shell -/

/-- The ledger as a condition on a moment. -/
def Balanced (w : InMemory) : Assertion Session InMemory ServiceCall.Reply :=
  fun past _ v => Ledger w past v

/-- What is left of the ledger at the end. -/
def Settled (w : InMemory) : Assertion Session InMemory ServiceCall.Reply :=
  fun past _ _ => Frugal w past

/-- The services that have nothing to do with reading. -/
def quietServices : List ServiceCall.Name := .fileExists :: Shell.lineServices

theorem ensures_balanced {α : Type} {p : Action α} {names : List ServiceCall.Name}
    {parts : List Session.Part} (hp : p.Footprint (Shell.scope names parts))
    (hnames : names.all quietServices.contains) :
    Ensures InMemory.answer (Balanced w) p (fun _ => Balanced w) (fun _ => Balanced w) (Balanced w) := by
  refine hp.ensures (fun c hc past s v h => ?_) (fun _ _ _ _ _ h => h) (fun entry _ past s v h => ?_)
    fun hstops => nomatch hstops
  · have hmem : quietServices.contains c.name :=
      List.all_eq_true.mp hnames _ (List.contains_iff_mem.mp hc)
    have hopen : c.name ≠ .openReadOnly := Shell.name_ne_of_mem hmem rfl
    rw [InMemory.answer_inner]
    refine h.quiet (fun other => readsOf_of_name_ne other (Shell.name_ne_of_mem hmem rfl) _) ?_
      (InMemory.answer_files c v) ?_ (InMemory.nextFd_le_answer c v)
    · intro path opened he
      obtain ⟨rfl, -⟩ := Event.called.inj he
      exact hopen rfl
    · rw [InMemory.answer_sources hopen (Shell.name_ne_of_mem hmem rfl)]
  · exact h.quiet (fun _ => rfl) nofun rfl rfl (Int.le_refl _)

theorem ensures_openScript (path : Text) :
    Ensures InMemory.answer (Balanced w) (Shell.openScript path)
      (fun opened =>
        match opened with
        | none => Balanced w
        | some fd => fun past _ v => Opened w fd past v)
      (fun _ => Balanced w) (Balanced w) := by
  have hopen : Ensures InMemory.answer (Balanced w) (ask (.openReadOnly path))
      (fun (fd : Int) past _ v => Opened w fd past v) (fun _ => Balanced w) (Balanced w) := by
    refine Ensures.request_alone (InMemory.answer_inner _) (fun past s v fd h hfd => ?_)
      fun past s v e h he => ?_
    · exact h.opening hfd
    · refine h.quiet (fun _ => rfl) nofun (InMemory.answer_files _ v) ?_ (InMemory.nextFd_le_answer _ v)
      rcases InMemory.answer_cases (.openReadOnly path) v with ⟨e, hc⟩ | hc <;> rw [hc] at he ⊢
      · rfl
      · simp only [InMemory.serve] at he ⊢
        split at he
        · cases he
        · rfl
  refine Ensures.bind hopen.attempt fun outcome => ?_
  cases outcome with
  | ok fd => exact Ensures.done fun _ _ _ h => h
  | error e =>
      dsimp only
      cases e.reportOf? .fileNotFound with
      | none => exact Ensures.fail fun _ _ _ h => h
      | some report =>
          refine Ensures.bind (ensures_balanced (@footprint_say [] [] false _ _ _) rfl) fun _ => ?_
          exact Ensures.done fun _ _ _ h => h

/-- A script is read and closed, and what is behind standard input stays there. -/
theorem ensures_readAndClose (shell : Shell) (rounds : Nat) (fd : Int) :
    Ensures InMemory.answer (fun past _ v => Opened w fd past v)
      ((shell.runSource rounds fd false).andFinally (ask (.close fd)))
      (fun _ => Balanced w) (fun _ => Balanced w) (Balanced w) := by
  have hread : Ensures InMemory.answer (fun past _ v => Opened w fd past v)
      (shell.runSource rounds fd false) (fun _ past _ v => standardInput < fd ∧ Ledger w past v)
      (fun _ past _ v => standardInput < fd ∧ Ledger w past v) (Balanced w) := by
    intro past s v h
    have hpaid := h.read (metered_runSource shell rounds s v fd false)
    cases ((shell.runSource rounds fd false).run InMemory.answer s v).ending with
    | returned goOn => exact ⟨h.script, hpaid⟩
    | failed e => exact ⟨h.script, hpaid⟩
    | outOfRounds => exact hpaid
  have hclose : Ensures InMemory.answer (fun past _ v => standardInput < fd ∧ Ledger w past v)
      (ask (.close fd)) (fun _ => Balanced w) (fun _ => Balanced w) (Balanced w) := by
    have hkept : ∀ {past v} outcome, standardInput < fd ∧ Ledger w past v →
        Ledger w (past ++ [.called (.close fd) outcome]) (InMemory.answer (.close fd) v).world := by
      intro past v outcome h
      refine h.2.quiet (fun _ => rfl) nofun (InMemory.answer_files _ v) ?_
        (InMemory.nextFd_le_answer _ v)
      exact InMemory.lookup_answer_close (Int.ne_of_lt h.1) v
    refine Ensures.request_alone (InMemory.answer_inner _) (fun past s v _ h _ => ?_)
      fun past s v e h _ => ?_
    · exact hkept _ h
    · exact hkept _ h
  exact Ensures.andFinally hread (fun _ => hclose) fun _ => hclose

theorem ensures_runScript (shell : Shell) (rounds : Nat) (script : Text) :
    Ensures InMemory.answer (Balanced w) (shell.runScript rounds script) (fun _ => Balanced w)
      (fun _ => Balanced w) (Balanced w) := by
  refine Ensures.state_bind fun s => Ensures.weaken ?_ fun _ _ _ h => h.2
  refine Ensures.bind (ensures_balanced (@footprint_ask [.getPath] [] false .getPath rfl) rfl)
    fun searchPath => ?_
  refine Ensures.bind (ensures_balanced (footprint_resolve script s.cwd searchPath) rfl) fun path => ?_
  refine Ensures.bind (ensures_openScript path) fun opened => ?_
  cases opened with
  | none => exact Ensures.done fun _ _ _ h => h
  | some fd =>
      have hsay : Ensures InMemory.answer (fun past _ v => Opened w fd past v)
          (Shell.say .debug (("Running script " : Text) ++ path) [("fd", .int fd)])
          (fun _ past _ v => Opened w fd past v) (fun _ => Balanced w) (Balanced w) := by
        refine Ensures.log fun past s v h => ?_
        refine ⟨h.ledger.quiet (fun _ => rfl) nofun rfl rfl (Int.le_refl _), h.script, h.given, ?_, ?_⟩
        · rw [readsOf_append, h.unread]
          rfl
        · obtain ⟨content, hcontent, hpaths⟩ := h.content
          refine ⟨content, hcontent, fun path hmem => hpaths path ?_⟩
          exact (List.mem_append.mp hmem).resolve_right fun hlast => by cases List.mem_singleton.mp hlast
      exact Ensures.bind hsay fun _ => ensures_readAndClose shell rounds fd

theorem ensures_runScripts (shell : Shell) (rounds : Nat) (scripts : List Text) :
    Ensures InMemory.answer (Balanced w) (shell.runScripts rounds scripts) (fun _ => Balanced w)
      (fun _ => Balanced w) (Balanced w) := by
  induction scripts with
  | nil => exact Ensures.done fun _ _ _ h => h
  | cons script rest ih =>
      refine Ensures.bind (ensures_runScript shell rounds script) fun goOn => ?_
      cases goOn with
      | true => exact ih
      | false => exact Ensures.done fun _ _ _ h => h

/-- Once everything was read, nothing is read or opened any more. -/
theorem ensures_settled {α : Type} {p : Action α} {names : List ServiceCall.Name}
    {parts : List Session.Part} (hp : p.Footprint (Shell.scope names parts))
    (hnames : names.all quietServices.contains) :
    Ensures InMemory.answer (Settled w) p (fun _ => Settled w) (fun _ => Settled w) (Settled w) := by
  have hquiet : ∀ {past : List (Event ServiceCall.Reply)} {e : Event ServiceCall.Reply},
      (∀ fd, readsOf fd [e] = 0) → (∀ path fd, e ≠ .called (.openReadOnly path) (.ok fd)) →
        Frugal w past → Frugal w (past ++ [e]) := by
    intro past e hreads hopens h
    constructor
    · intro path fd hmem
      rw [readsOf_append, hreads]
      refine h.scripts path fd ((List.mem_append.mp hmem).resolve_right fun hlast => ?_)
      exact hopens path fd (List.mem_singleton.mp hlast).symm
    · have hinput := h.input
      rw [readsOf_append, hreads, interruptsAt_append]
      omega
  refine hp.ensures (fun c hc past s v h => ?_) (fun _ _ _ _ _ h => h) (fun entry _ past s v h => ?_)
    fun hstops => nomatch hstops
  · have hmem : quietServices.contains c.name :=
      List.all_eq_true.mp hnames _ (List.contains_iff_mem.mp hc)
    rw [InMemory.answer_inner]
    refine hquiet (fun fd => readsOf_of_name_ne fd (Shell.name_ne_of_mem hmem rfl) _) ?_ h
    intro path fd he
    obtain ⟨rfl, -⟩ := Event.called.inj he
    cases hmem
  · exact hquiet (fun _ => rfl) nofun h

/-- However often a run may read a source, it does not read it more often. -/
theorem ensures_run (shell : Shell) (rounds : Nat) (scripts : List Text) :
    Ensures InMemory.answer (Balanced w) (shell.run rounds scripts) (fun _ => Settled w)
      (fun _ => Settled w) (Settled w) := by
  have hpart : ∀ {α : Type} {p : Action α},
      Ensures InMemory.answer (Balanced w) p (fun _ => Balanced w) (fun _ => Balanced w)
        (Balanced w) →
      Ensures InMemory.answer (Balanced w) p (fun _ => Balanced w) (fun _ => Settled w) (Settled w) :=
    fun h => h.mono (fun _ _ _ h => h) (fun _ _ _ _ h => h) (fun _ _ _ _ h => h.frugal)
      fun _ _ _ h => h.frugal
  refine Ensures.bind (hpart (ensures_balanced Shell.footprint_publishCwd rfl)) fun _ => ?_
  refine Ensures.orElse (m := fun _ => Settled w) ?_ fun e => ?_
  · refine Ensures.bind (hpart (ensures_runScripts shell rounds scripts)) fun goOn => ?_
    cases goOn with
    | false => exact Ensures.done fun _ _ _ h => h.frugal
    | true =>
        have hinput : Ensures InMemory.answer (Balanced w) (shell.runSource rounds standardInput true)
            (fun _ => Settled w) (fun _ => Settled w) (Settled w) := by
          intro past s v h
          have hpaid := h.prompted (metered_runSource shell rounds s v standardInput true)
          cases ((shell.runSource rounds standardInput true).run InMemory.answer s v).ending <;>
            exact hpaid
        exact Ensures.bind hinput fun _ => Ensures.done fun _ _ _ h => h
  · cases e with
    | interrupt =>
        refine Ensures.bind (ensures_settled (@footprint_say [] [] false _ _ _) rfl) fun _ => ?_
        refine Ensures.bind (ensures_settled (Shell.footprint_print "\n") rfl) fun _ => ?_
        exact Ensures.done fun _ _ _ h => h
    | _ => exact Ensures.fail fun _ _ _ h => h

end Frugal

namespace Shell

/-- Every run ends of its own, and there is one run only: that of any number of rounds from some number
on.  It reads no source more often than the source has bytes, but for one read more that finds nothing
and for the interrupts at the prompt. -/
theorem run_terminates (shell : Shell) (s : Session) {w : InMemory} (hfd : standardInput < w.nextFd)
    (scripts : List Text) :
    let o := InMemory.perform (fun rounds => shell.run rounds scripts) s w
    o.ending ≠ .outOfRounds ∧
      (∀ rounds, w.longestSource + w.faults.length < rounds →
        (shell.run rounds scripts).run InMemory.answer s w = o) ∧
      Frugal w o.events := by
  intro o
  have henough : w.longestSource + w.faults.length < w.rounds := by
    unfold InMemory.rounds
    omega
  have hstart : Frugal.Ledger w [] w :=
    ⟨rfl, rfl, hfd, rfl, fun _ _ => rfl, fun _ _ hmem => absurd hmem List.not_mem_nil⟩
  refine ⟨run_ne_outOfRounds shell s henough scripts, ?_, ?_⟩
  · intro rounds hrounds
    exact run_rounds_irrelevant shell scripts s hrounds henough
  · exact (Frugal.ensures_run shell w.rounds scripts).always (fun _ _ _ _ h => h)
      (fun _ _ _ _ h => h) (fun _ _ _ h => h) (s := s) hstart

/-- A world with a script whose only line starts with a NUL, an empty line on standard input, and two
interrupts in a row before that line is read. -/
def impatientInput : InMemory :=
  .create [("/bin/nul", [0x00, 0x0A])] [] "/" "/bin" [0x0A] [] [] false false
    [⟨.readLine, 3, .interrupt⟩, ⟨.readLine, 4, .interrupt⟩]

/-- Standard input is read as often as it may be: twice for its one byte, and twice for nothing. -/
theorem run_terminates_of_impatientInput :
    let o := InMemory.perform (fun rounds => Shell.default.run rounds ["nul"]) (.default "/")
      impatientInput
    readsOf 3 o.events = 2 ∧ readsOf standardInput o.events = 4 ∧
      interruptsAt standardInput o.events = 2 ∧ o.ending ≠ .outOfRounds ∧
      (∀ rounds, impatientInput.longestSource + impatientInput.faults.length < rounds →
        (Shell.default.run rounds ["nul"]).run InMemory.answer (.default "/") impatientInput = o) ∧
      Frugal impatientInput o.events := by
  intro o
  have hfd : standardInput < impatientInput.nextFd := by decide
  exact ⟨rfl, rfl, rfl, run_terminates Shell.default (.default "/") hfd ["nul"]⟩

end Shell

end LineShell
