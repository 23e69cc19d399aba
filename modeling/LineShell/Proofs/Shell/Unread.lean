import LineShell.Proofs.Shell.CutShort
import LineShell.Proofs.Shell.Sequel
import LineShell.Proofs.Shell.Start

/-!
# Lines that cannot be read

When reading a line fails with an error of the operating system, that is the end of its source, and the log
is told.  So what is left of a run is what is left of it behind the last line (`unread`,
`Shell.sequel_unread`), and the run is the one in which the source ends where the line that could not be read
begins.

A source is read while it is open, from the byte behind the last one that was read.  So what was read of it
comes before the cut, and nothing is read of it any more: the two runs cannot be told apart but by the one
read.  The main result is `Shell.run_cutShort`.
-/

namespace LineShell

open Program LineShell.Action

/-! ## What is left -/

/-- What the log is told when a line cannot be read. -/
def unreadEntry (fd : Int) (errno : Option Int) (text : Text) : Log.Entry :=
  ⟨.error, "shell", ("Read failed: " : Text) ++ Failure.osMessage errno text, none, [("fd", .int fd)]⟩

/-- Behind a line that cannot be read the same is left as behind the last one. -/
def unread : Sequel Session ServiceCall.Reply where
  calls c := c.name = .readLine
  leaves c next t k :=
    match c, next with
    | .readLine fd _ capacity, next => capacity = t.line.size ∧ next (.ok []) = k ∧
        ∀ errno text, next (.error (.os errno text)) = .note (unreadEntry fd errno text) k
    | _, _ => True
  bind f h := by
    rename_i c next t k
    cases c with
    | readLine fd offset capacity =>
        obtain ⟨hcapacity, rfl, herror⟩ := h
        refine ⟨hcapacity, rfl, fun errno text => ?_⟩
        dsimp only
        rw [herror]
        rfl
    | _ => trivial
  attempt h := by
    rename_i c next t k
    cases c with
    | readLine fd offset capacity =>
        obtain ⟨hcapacity, rfl, herror⟩ := h
        refine ⟨hcapacity, rfl, fun errno text => ?_⟩
        dsimp only
        rw [herror]
        rfl
    | _ => trivial

namespace Shell

section Left

variable {World : Type} {answer : (c : ServiceCall) → World → Answer World ServiceCall.Reply c}
  {s : Session} {w : World} (shell : Shell)

/-- What reads no line. -/
theorem no_read {names : List ServiceCall.Name} {parts : List Session.Part} {stops : Bool}
    (hnames : names.contains .readLine = false) (c : ServiceCall) (hc : (scope names parts stops).calls c) :
    ¬unread.calls c := name_ne_of_mem hc hnames

/-- A read from a descriptor. -/
def ReadFrom (fd : Int) (c : ServiceCall) : Prop := ∃ offset capacity, c = .readLine fd offset capacity

theorem sequel_readLine (interactive : Bool) (fd offset : Int) :
    unread.Of answer (fun _ c k => ReadFrom fd c ∧ k = done .exhausted) (readLine interactive fd offset)
      s w := by
  intro past c next t v hpass hc
  rw [readLine_eq] at hpass
  rcases hpass.start_cases with ⟨-, hstart⟩ | ⟨y, later, hy, rfl, hasked⟩
  · cases hstart
  cases hy
  rcases hasked.attempt_request_cases with ⟨-, hstart⟩ | ⟨after, -, hread⟩
  · cases hstart
    exact ⟨done .exhausted, ⟨⟨_, _, rfl⟩, rfl⟩, rfl, rfl, fun _ _ => rfl⟩
  · exact absurd hc (no_read rfl c (hread.within (footprint_readingOf interactive fd _ _)).1)

/-- Nothing is left of a source. -/
theorem sequel_source (fd : Int) (interactive : Bool) (rounds : Nat) (offset : Int) :
    unread.Of answer (fun _ c k => ReadFrom fd c ∧ k = done true)
      (shell.runFrom (Builtin.dispatch shell.home) fd interactive rounds offset) s w := by
  induction rounds generalizing offset s w with
  | zero => exact .outOfRounds
  | succ rounds ih =>
      refine .behind (shell.footprint_announce interactive) (no_read rfl) fun _ t v before _ => ?_
      refine (sequel_readLine interactive fd offset).bind ?_ fun reading t' v' before' hread => ?_
      · rintro past c k ⟨hc, rfl⟩
        exact ⟨hc, rfl⟩
      · cases reading with
        | exhausted => exact .done _
        | interrupted => exact ih offset
        | line chunk =>
            refine .behind (shell.footprint_command interactive chunk) (no_read rfl)
              fun next t v before _ => ?_
            cases next with
            | leaveAll => exact .done _
            | leaveSource => exact .done _
            | goOn => exact ih _

/-- Behind a line of a script that cannot be read the script is closed and the next one has its turn; behind
one of standard input there is nothing. -/
theorem sequel_unread (hinner : ∀ c w, (answer c w).inner = []) (rounds : Nat) (scripts : List Text) :
    unread.Of answer (fun past c k => ∃ rest, k = rest.orElse lastWords ∧
        ((∃ left, (ReadFrom standardInput c ∧ left = done true) ∧ rest = left.bind fun _ => done 0) ∨
          BehindScript (fun fd _ c => ReadFrom fd c)
            (shell.work rounds (scripts.drop (openings past).length)) past c rest))
      (shell.run rounds scripts) s w := by
  refine sequel_run (I := fun _ c k => ReadFrom standardInput c ∧ k = done true) hinner shell
    (fun c hc => ?_) (fun fd rounds s w => shell.sequel_source fd false rounds 0) (fun _ _ _ _ => id)
    (fun rounds s w => shell.sequel_source standardInput true rounds 0) (fun _ _ _ _ => id) rounds scripts
  have hname : c.name = .readLine := hc
  rw [hname]
  decide

end Left

end Shell

/-! ## Sources are read while they are open -/

section Open

open Descriptors

variable {shell : Shell} {rounds : Nat} {scripts : List Text} {s : Session} {w : InMemory}
  {before after : List (Event ServiceCall.Reply)} {fd g : Int}

/-- What is closed was opened before. -/
theorem Shell.opened_of_closed
    (hsplit : ((shell.run rounds scripts).run InMemory.answer s w).events = before ++ after)
    (hclosed : fd ∈ descriptorsClosed before) : fd ∈ descriptorsOpened before := by
  have horderly : custody.Orderly ((shell.run rounds scripts).run InMemory.answer s w).events :=
    (run_atRest rounds scripts).always (A := fun past _ _ => custody.Orderly past)
      (fun _ _ _ _ h => h.orderly) (fun _ _ _ _ h => h.orderly) (fun _ _ _ ⟨_, h⟩ => h.orderly)
      Custody.at_nil
  obtain ⟨held, howing⟩ := horderly.single before after hsplit
  have hopened : descriptorsOpened before = descriptorsClosed before ++ held.toList := howing
  rw [hopened]
  exact List.mem_append_left _ hclosed

/-- A source that a line is read from is standard input or was opened, and it was not closed. -/
theorem Shell.open_of_read (hfd : standardInput < w.nextFd) {offset : Int} {capacity : Value}
    {outcome : Except Failure Bytes}
    (hsplit : ((shell.run rounds scripts).run InMemory.answer s w).events =
      before ++ .called (.readLine fd offset capacity) outcome :: after) :
    fd ∉ descriptorsClosed before ∧ (fd = standardInput ∨ fd ∈ descriptorsOpened before) := by
  obtain ⟨hnodup, hinput⟩ := run_fresh shell rounds scripts s hfd
  obtain ⟨next, t, v, hpass, -⟩ := Passes.exists_call (fun c => InMemory.answer_inner c) hsplit
  obtain ⟨k, ⟨rest, -, hleft⟩, -⟩ :=
    shell.sequel_unread InMemory.answer_inner rounds scripts before _ next t v hpass rfl
  rcases hleft with ⟨left, ⟨⟨offset', capacity', hread⟩, -⟩, -⟩ |
    ⟨earlier, path, g, middle, rfl, hclosed, ⟨offset', capacity', hread⟩, -⟩
  · cases hread
    refine ⟨fun hmem => hinput ?_, .inl rfl⟩
    rw [hsplit, descriptorsOpened_append]
    exact List.mem_append_left _ (Shell.opened_of_closed hsplit hmem)
  · cases hread
    have hopening : descriptorsOpened (.called (.openReadOnly path) (.ok fd) :: middle) =
      fd :: descriptorsOpened middle := rfl
    have hclosing : descriptorsClosed (.called (.openReadOnly path) (.ok fd) :: middle) =
      descriptorsClosed middle := rfl
    rw [descriptorsClosed_append, descriptorsOpened_append, hopening, hclosing, hclosed, List.append_nil]
    refine ⟨fun hmem => ?_, .inr (List.mem_append_right _ List.mem_cons_self)⟩
    -- it would have been opened twice
    rw [List.append_assoc] at hsplit
    have hbefore := Shell.opened_of_closed hsplit hmem
    rw [hsplit, descriptorsOpened_append] at hnodup
    exact (List.nodup_append.mp hnodup).2.2 fd hbefore fd List.mem_cons_self rfl

/-- Once a descriptor is given out it is not given out again. -/
theorem Shell.not_opened_again (hfd : standardInput < w.nextFd)
    (hsplit : ((shell.run rounds scripts).run InMemory.answer s w).events = before ++ after)
    (hopened : fd = standardInput ∨ fd ∈ descriptorsOpened before) : fd ∉ descriptorsOpened after := by
  obtain ⟨hnodup, hinput⟩ := run_fresh shell rounds scripts s hfd
  rw [hsplit, descriptorsOpened_append] at hnodup hinput
  rcases hopened with rfl | hopened
  · exact fun hmem => hinput (List.mem_append_right _ hmem)
  · exact fun hmem => (List.nodup_append.mp hnodup).2.2 fd hopened fd hmem rfl

/-- What was to be read, or is opened now, is to be read after a call that does not close it. -/
theorem InMemory.source_isSome {c : ServiceCall} {w : InMemory}
    (hclosed : fd ∉ descriptorsClosed [.called c (answer c w).outcome])
    (hopen : (w.sources.lookup fd).isSome ∨ fd ∈ descriptorsOpened [.called c (answer c w).outcome]) :
    ((answer c w).world.sources.lookup fd).isSome := by
  by_cases hname : c.name = .openReadOnly ∨ c.name = .close
  · cases c with
    | openReadOnly path =>
        cases houtcome : (answer (.openReadOnly path) w).outcome with
        | ok g =>
            obtain ⟨content, -, hsources⟩ := answer_openReadOnly_content houtcome
            rw [hsources, List.lookup_cons]
            by_cases hg : fd = g
            · rw [hg, beq_self_eq_true]
              rfl
            · rw [beq_false_of_ne hg]
              rw [houtcome] at hopen
              exact hopen.resolve_right fun hnow => hg (List.mem_singleton.mp hnow)
        | error e =>
            have hsame : (answer (.openReadOnly path) w).world.sources = w.sources := by
              rcases answer_cases (.openReadOnly path) w with ⟨e', hc⟩ | hc <;> rw [hc] at houtcome ⊢
              · rfl
              · simp only [serve] at houtcome ⊢
                split at houtcome
                · cases houtcome
                · rfl
            rw [houtcome] at hopen
            rw [hsame]
            exact hopen.resolve_right List.not_mem_nil
    | close g =>
        -- another source was closed
        have hg : fd ≠ g := fun heq => hclosed (heq ▸ List.mem_cons_self)
        rw [lookup_answer_close hg]
        exact hopen.resolve_right List.not_mem_nil
    | _ => rcases hname with hname | hname <;> cases hname
  · rw [answer_sources (fun h => hname (.inl h)) fun h => hname (.inr h)]
    refine hopen.resolve_right fun hnow => ?_
    cases c with
    | openReadOnly path => exact hname (.inl rfl)
    | _ => cases hnow

/-- A source that was opened and not closed is there to be read. -/
theorem Passes.source_isSome {α : Type} {x y : Point Session InMemory ServiceCall.Reply α}
    (hpass : Passes InMemory.answer x before y)
    (hopen : (x.world.sources.lookup fd).isSome ∨ fd ∈ descriptorsOpened before)
    (hclosed : fd ∉ descriptorsClosed before) : (y.world.sources.lookup fd).isSome := by
  have hkept := hpass.kept (P := fun past v => fd ∉ descriptorsClosed past →
    (x.world.sources.lookup fd).isSome ∨ fd ∈ descriptorsOpened past → (v.sources.lookup fd).isSome)
    (fun c past v h hclosed hopen => ?_) (fun entry past v h hclosed hopen => ?_)
    fun _ hopen => hopen.resolve_right List.not_mem_nil
  · exact hkept hclosed hopen
  · rw [InMemory.answer_inner, descriptorsClosed_append, List.mem_append, not_or] at hclosed
    rw [InMemory.answer_inner, descriptorsOpened_append, List.mem_append, ← or_assoc] at hopen
    exact InMemory.source_isSome hclosed.2 (hopen.imp_left (h hclosed.1))
  · rw [descriptorsClosed_append, List.mem_append, not_or] at hclosed
    rw [descriptorsOpened_append, List.mem_append, ← or_assoc] at hopen
    exact h hclosed.1 (hopen.resolve_right List.not_mem_nil)

/-! ## How far a source was read -/

theorem bytesTaken_le_concat {past : List (Event ServiceCall.Reply)} {e : Event ServiceCall.Reply}
    (hopened : fd ∉ descriptorsOpened [e]) (hclosed : fd ∉ descriptorsClosed [e]) :
    bytesTaken fd past ≤ bytesTaken fd (past ++ [e]) := by
  have hquiet : linesFrom fd (past ++ [e]) = linesFrom fd past →
      bytesTaken fd past ≤ bytesTaken fd (past ++ [e]) := fun h =>
    Nat.le_of_eq (congrArg (fun lines : List Bytes => lines.flatten.length) h.symm)
  cases e with
  | logged entry => exact hquiet (Pace.linesFrom_logged entry)
  | called c outcome =>
      cases c with
      | readLine g offset capacity =>
          cases outcome with
          | error e => exact hquiet (Pace.linesFrom_unread e)
          | ok line =>
              rw [bytesTaken, bytesTaken, Pace.linesFrom_read]
              split
              · rw [List.flatten_append, List.length_append]
                exact Nat.le_add_right _ _
              · exact Nat.le_refl _
      | openReadOnly path =>
          cases outcome with
          | error e => exact hquiet (Pace.linesFrom_unopened e)
          | ok g =>
              have hg : g ≠ fd := fun heq => hopened (heq ▸ List.mem_cons_self)
              exact hquiet (Pace.linesFrom_opened.trans (if_neg hg))
      | close g =>
          have hg : g ≠ fd := fun heq => hclosed (heq ▸ List.mem_cons_self)
          exact hquiet ((Pace.linesFrom_closed outcome).trans (if_neg hg))
      | _ => exact hquiet (Pace.linesFrom_aside rfl outcome)

/-- What is read of a source only adds to it while it is neither opened nor closed. -/
theorem bytesTaken_le_append {past later : List (Event ServiceCall.Reply)}
    (hopened : fd ∉ descriptorsOpened later) (hclosed : fd ∉ descriptorsClosed later) :
    bytesTaken fd past ≤ bytesTaken fd (past ++ later) := by
  induction later generalizing past with
  | nil => exact Nat.le_of_eq (by rw [List.append_nil])
  | cons e later ih =>
      have hopening : descriptorsOpened (e :: later) = descriptorsOpened [e] ++ descriptorsOpened later :=
        descriptorsOpened_append [e] later
      have hclosing : descriptorsClosed (e :: later) = descriptorsClosed [e] ++ descriptorsClosed later :=
        descriptorsClosed_append [e] later
      rw [hopening, List.mem_append, not_or] at hopened
      rw [hclosing, List.mem_append, not_or] at hclosed
      have hmore : bytesTaken fd (past ++ [e]) ≤ bytesTaken fd (past ++ [e] ++ later) :=
        ih hopened.2 hclosed.2
      rw [List.append_assoc] at hmore
      exact Nat.le_trans (bytesTaken_le_concat hopened.1 hclosed.1) hmore

/-- What was read of a source by then comes before the byte that is to be read next. -/
theorem Shell.read_before (hfd : standardInput < w.nextFd) {offset p : Int}
    {capacity capacity' : Value} {outcome : Except Failure Bytes} {line : Bytes}
    (hsplit : ((shell.run rounds scripts).run InMemory.answer s w).events =
      before ++ .called (.readLine fd offset capacity) outcome :: after)
    (hread : .called (.readLine fd p capacity') (.ok line) ∈ before) :
    p.toNat + line.length ≤ offset.toNat := by
  have hpaced := shell.paced_run InMemory.answer_inner rounds scripts s w
  have hoffset : offset = bytesTaken fd before := hpaced _ _ _ hsplit
  have hclosed := (Shell.open_of_read hfd hsplit).1
  obtain ⟨first, last, rfl⟩ := List.append_of_mem hread
  have hfirst := hsplit
  rw [List.append_assoc, List.cons_append] at hfirst
  have hp : p = bytesTaken fd first := hpaced _ _ _ hfirst
  have hopened := (Shell.open_of_read hfd hfirst).2
  -- the source stays open until then, so what was read of it is not forgotten
  have hagain : fd ∉ descriptorsOpened (.called (.readLine fd p capacity') (.ok line) :: last) := by
    have hall := Shell.not_opened_again hfd hfirst hopened
    rw [← List.cons_append, descriptorsOpened_append] at hall
    exact fun hmem => hall (List.mem_append_left _ hmem)
  rw [descriptorsClosed_append, List.mem_append, not_or] at hclosed
  have htaken : bytesTaken fd (first ++ [.called (.readLine fd p capacity') (.ok line)]) =
      bytesTaken fd first + line.length := by
    rw [bytesTaken, Pace.linesFrom_read, if_pos rfl, List.flatten_append, List.length_append,
      List.flatten_singleton, bytesTaken]
  have hless : bytesTaken fd (first ++ [.called (.readLine fd p capacity') (.ok line)]) ≤
      bytesTaken fd (first ++ [.called (.readLine fd p capacity') (.ok line)] ++ last) :=
    bytesTaken_le_append hagain hclosed.2
  rw [List.append_assoc, List.singleton_append] at hless
  omega

/-! ## Nothing behind the cut -/

/-- Whether a source is closed before anything else is seen. -/
def ClosesFirst (fd : Int) (events : List (Event ServiceCall.Reply)) : Prop :=
  ∀ e ∈ events.head?, ∃ outcome, e = .called (.close fd) outcome

/-- What is left of a run behind a line that cannot be read closes the source, or it is nothing. -/
theorem Shell.closesFirst_left {next rest : Action Int} {offset : Int} {capacity : Value}
    (hleft : (∃ left, (ReadFrom standardInput (.readLine fd offset capacity) ∧ left = done true) ∧
        rest = left.bind fun _ => done 0) ∨
      BehindScript (fun fd _ c => ReadFrom fd c) next before (.readLine fd offset capacity) rest)
    (t : Session) (u : InMemory) :
    ClosesFirst fd ((rest.orElse lastWords).run InMemory.answer t u).events := by
  rcases hleft with ⟨_, ⟨-, rfl⟩, rfl⟩ | ⟨_, _, _, _, -, -, ⟨_, _, hread⟩, rfl⟩
  · intro e he
    cases he
  · cases hread
    intro e he
    cases he
    exact ⟨_, rfl⟩

/-- No line is read from a source that was closed. -/
theorem Shell.not_read_of_closesFirst (hfd : standardInput < w.nextFd)
    (hsplit : ((shell.run rounds scripts).run InMemory.answer s w).events = before ++ after)
    (hclose : ClosesFirst fd after) {offset : Int} {capacity : Value} {outcome : Except Failure Bytes} :
    .called (.readLine fd offset capacity) outcome ∉ after := by
  intro hread
  obtain ⟨first, last, rfl⟩ := List.append_of_mem hread
  cases first with
  | nil =>
      obtain ⟨_, hclosing⟩ := hclose _ rfl
      cases hclosing
  | cons e first =>
      obtain ⟨_, rfl⟩ := hclose e rfl
      rw [← List.append_assoc] at hsplit
      refine (Shell.open_of_read hfd hsplit).1 ?_
      rw [descriptorsClosed_append]
      exact List.mem_append_right _ List.mem_cons_self

theorem Event.beforeCut_of {path : Option Text} {n : Nat} {e : Event ServiceCall.Reply}
    (hopened : ∀ p g, e = .called (.openReadOnly p) (.ok g) → (some p = path ↔ g = fd))
    (hread : ∀ offset capacity line, e = .called (.readLine fd offset capacity) (.ok line) →
      offset.toNat + line.length ≤ n) : e.BeforeCut path fd n := by
  cases e with
  | logged entry => trivial
  | called c outcome =>
      cases c with
      | openReadOnly p =>
          cases outcome with
          | ok g => exact hopened p g rfl
          | error e => trivial
      | readLine g offset capacity =>
          cases outcome with
          | ok line =>
              rintro rfl
              exact hread offset capacity line rfl
          | error e => trivial
      | _ => trivial

/-- Of a source that cannot be read any further nothing is seen from behind that place. -/
theorem Shell.beforeCut (hfd : standardInput < w.nextFd) {offset : Int} {capacity : Value} {e : Failure}
    {entry : Log.Entry} {later : List (Event ServiceCall.Reply)} {source : Source}
    (hsplit : ((shell.run rounds scripts).run InMemory.answer s w).events =
      before ++ .called (.readLine fd offset capacity) (.error e) :: .logged entry :: later)
    (hclose : ClosesFirst fd later) (hsource : source.ReadAs fd before)
    (honce : source.OpenedOnce ((shell.run rounds scripts).run InMemory.answer s w).events) :
    ∀ e ∈ before ++ later, e.BeforeCut source.path? fd offset.toNat := by
  obtain ⟨hnodup, hinput⟩ := run_fresh shell rounds scripts s hfd
  have hbehind : ((shell.run rounds scripts).run InMemory.answer s w).events =
      (before ++ [.called (.readLine fd offset capacity) (.error e), .logged entry]) ++ later := by
    rw [hsplit, List.append_assoc]
    rfl
  have hbefore : before ⊆ ((shell.run rounds scripts).run InMemory.answer s w).events := by
    rw [hsplit]
    exact List.subset_append_left _ _
  have hall : before ++ later ⊆ ((shell.run rounds scripts).run InMemory.answer s w).events := by
    refine List.append_subset.mpr ⟨hbefore, ?_⟩
    rw [hbehind]
    exact List.subset_append_right _ _
  intro seen hseen
  refine Event.beforeCut_of (fun p g hopened => ?_) fun p capacity' line hread => ?_
  · exact honce.opened_iff hsource hbefore hnodup hinput (hopened ▸ hall hseen)
  · rcases List.mem_append.mp hseen with hearly | hlate
    · exact Shell.read_before hfd hsplit (hread ▸ hearly)
    · exact absurd (hread ▸ hlate) (Shell.not_read_of_closesFirst hfd hbehind hclose)

end Open

/-! ## The run with the source cut short -/

namespace Shell

/-- The shell reads with the size of the buffer that it was set up with. -/
theorem sameSize_of_passes {shell : Shell} {rounds : Nat} {scripts : List Text} {s : Session} {w : InMemory}
    {past : List (Event ServiceCall.Reply)} {y : Point Session InMemory ServiceCall.Reply Int}
    (hpass : Passes InMemory.answer ⟨shell.run rounds scripts, s, w⟩ past y) :
    s.line.SameSize y.state.line := by
  have hmaintains : Maintains InMemory.answer .none (fun _ t _ => s.line.SameSize t.line)
      (shell.run rounds scripts) :=
    Maintains.of_footprint (shell.footprint_run rounds scripts) (fun _ _ _ _ _ h => h)
      (fun _ _ _ _ hchange h => h.trans hchange.2) fun _ _ _ _ _ h => h
  exact (hmaintains [] s w (LineBuffer.SameSize.refl _) past y hpass).resolve_right id

/-- A line that cannot be read is told to the log, and where the source is cut there is none to be read.
The same is left behind both. -/
theorem passes_unread (shell : Shell) {memory : Nat} {size : Value} {buffer : LineBuffer}
    (hsize : LineBuffer.ofSetting memory size = .ok buffer) {s : Session} (hs : buffer.SameSize s.line)
    {w : InMemory} (hw : w.Started) (hone : w.faults.length ≤ 1) {rounds : Nat} {scripts : List Text}
    {before after : List (Event ServiceCall.Reply)} {fd offset : Int} {capacity : Value}
    {errno : Option Int} {text : Text}
    (hsplit : ((shell.run rounds scripts).run InMemory.answer s w).events =
      before ++ .called (.readLine fd offset capacity) (.error (.os errno text)) :: after) :
    ∃ next t v k,
      Passes InMemory.answer ⟨shell.run rounds scripts, s, w⟩ before
        ⟨.call (.readLine fd offset capacity) next, t, v⟩ ∧
      v.faults ≠ [] ∧
      Passes InMemory.answer ⟨.call (.readLine fd offset capacity) next, t, v⟩
        [.called (.readLine fd offset capacity) (.error (.os errno text)),
          .logged (unreadEntry fd errno text)] ⟨k, t, v.calm⟩ ∧
      (∀ path v', InMemory.CutTo path fd offset.toNat v.calm v' →
        Passes InMemory.answer ⟨.call (.readLine fd offset capacity) next, t, v'⟩
          [.called (.readLine fd offset capacity) (.ok [])] ⟨k, t, v'⟩) ∧
      ClosesFirst fd (k.run InMemory.answer t v.calm).events := by
  obtain ⟨next, t, v, hpass, houtcome⟩ := Passes.exists_call (fun c => InMemory.answer_inner c) hsplit
  obtain ⟨k, ⟨rest, rfl, hleft⟩, hcapacity, hok, herror⟩ :=
    shell.sequel_unread InMemory.answer_inner rounds scripts before _ next t v hpass rfl
  -- the source is there to be read, so it was the fault that was hit, and none is left
  obtain ⟨hclosed, hopened⟩ := open_of_read hw.beyondInput hsplit
  have hopen : (v.sources.lookup fd).isSome :=
    hpass.source_isSome (hopened.imp_left fun (h : fd = standardInput) => h ▸ hw.input) hclosed
  have hcount : capacity.toInt? = some (buffer.capacity : Int) := by
    rw [hcapacity, (sameSize_of_passes hpass).size, hs.size]
    exact (LineBuffer.sized_of_setting hsize).size
  have hfewer : v.faults.length ≤ 1 := Nat.le_trans hpass.length_faults_le hone
  obtain ⟨hfaulty, hhit⟩ := InMemory.answer_readLine_hit hfewer hopen hcount houtcome
  refine ⟨next, t, v, rest.orElse lastWords, hpass, hfaulty, ?_, fun path v' hcut => ?_,
    closesFirst_left hleft t v.calm⟩
  · have htold : Passes InMemory.answer ⟨.call (.readLine fd offset capacity) next, t, v⟩ _ _ :=
      Passes.answered hhit
    rw [herror] at htold
    exact htold.next rfl
  · have hnone : Passes InMemory.answer ⟨.call (.readLine fd offset capacity) next, t, v'⟩ _ _ :=
      Passes.answered (hcut.answer_readLine_cut rfl hopen hcount)
    rwa [hok] at hnone

/-- A source of which a line cannot be read, and which is opened once, is at its end there.  Nothing else
goes wrong in the run, so apart from the outcome of that read and its log entry it is the run in which the
source is cut to what comes before the line. -/
theorem run_cutShort (shell : Shell) {memory : Nat} {size : Value} {buffer : LineBuffer}
    (hsize : LineBuffer.ofSetting memory size = .ok buffer) {s : Session} (hs : buffer.SameSize s.line)
    {w : InMemory} (hw : w.Started) (hone : w.faults.length ≤ 1) (rounds : Nat) (scripts : List Text)
    (source : Source) {before after : List (Event ServiceCall.Reply)} {fd offset : Int} {capacity : Value}
    {errno : Option Int} {text : Text} :
    let o := (shell.run rounds scripts).run InMemory.answer s w
    o.events = before ++ .called (.readLine fd offset capacity) (.error (.os errno text)) :: after →
    source.ReadAs fd before → source.OpenedOnce o.events →
      let o' := (shell.run rounds scripts).run InMemory.answer s (w.calm.cutShort offset.toNat source)
      ∃ later, after = .logged (unreadEntry fd errno text) :: later ∧
        o'.events = before ++ .called (.readLine fd offset capacity) (.ok []) :: later ∧
        o'.ending = o.ending ∧ o'.state = o.state ∧
        o'.world = { o.world with files := o'.world.files, sources := o'.world.sources } := by
  intro o hsplit hsource honce o'
  obtain ⟨next, t, v, k, hpass, hfaulty, hread, hend, hclose⟩ :=
    passes_unread shell hsize hs hw hone hsplit
  have hwork := passes_run InMemory.answer k t v.calm
  have hrun : o = _ := (hpass.trans hread).run_eq
  dsimp only at hrun
  generalize k.run InMemory.answer t v.calm = last at hwork hrun hclose
  have hevents : o.events = before ++ .called (.readLine fd offset capacity) (.error (.os errno text)) ::
      .logged (unreadEntry fd errno text) :: last.events := by
    rw [hrun, List.append_assoc]
    rfl
  -- the other run goes the same way to the cut, and behind it
  have hcut := beforeCut hw.beyondInput hevents hclose hsource honce
  have hcalm := hpass.calm_of_unhit hone hfaulty
  obtain ⟨v', hv', hpass'⟩ := InMemory.CutTo.passes hcalm rfl
    (fun e he => hcut e (List.mem_append_left _ he)) (hw.calm.cutTo hcalm hsource offset.toNat)
  obtain ⟨v'', hv'', hwork'⟩ := InMemory.CutTo.passes hwork rfl
    (fun e he => hcut e (List.mem_append_right _ he)) hv'
  have hrun' : o' = _ := ((hpass'.trans (hend _ v' hv')).trans hwork').run_eq
  dsimp only at hrun'
  rw [Ending.run_program, List.append_nil, List.append_assoc] at hrun'
  rw [hrun, hrun']
  refine ⟨last.events, ?_, rfl, rfl, rfl, hv''.rest⟩
  exact (List.cons.inj (List.append_cancel_left (hsplit.symm.trans hevents))).2

/-- A world with a script that changes the working directory and exits, of which the second line cannot be
read. -/
def unreadScript : InMemory :=
  .create [("/go", [0x63, 0x64, 0x20, 0x2F, 0x68, 0x6F, 0x6D, 0x65, 0x0A, 0x65, 0x78, 0x69, 0x74, 0x0A])]
    [] "/" "" [0x63, 0x64, 0x20, 0x2F, 0x0A] [] [] false false
    [⟨.readLine, 2, .os (some 5) "Input/output error"⟩]

/-- The script ends behind its first line, and standard input is gone through. -/
theorem run_cutShort_of_unreadScript :
    let o := (Shell.default.run 12 ["/go"]).run InMemory.answer (.default "/") unreadScript
    let o' := (Shell.default.run 12 ["/go"]).run InMemory.answer (.default "/")
      (unreadScript.calm.cutShort 9 (.script "/go"))
    ∃ later,
      o.events = o.events.take 8 ++
        .called (.readLine 3 9 (.int 256)) (.error (.os (some 5) "Input/output error")) ::
          .logged (unreadEntry 3 (some 5) "Input/output error") :: later ∧
      o'.events = o.events.take 8 ++ .called (.readLine 3 9 (.int 256)) (.ok []) :: later ∧
      o'.ending = .returned 0 ∧ o'.state.cwd = "/" ∧
      chunks later = [[0x63, 0x64, 0x20, 0x2F, 0x0A]] := by
  intro o o'
  have hsize : LineBuffer.ofSetting 1024 (.int 256) = .ok (.empty 256) := rfl
  have hsame : (LineBuffer.empty 256).SameSize (Session.default "/").line := .refl _
  have hstarted : unreadScript.Started := InMemory.started_create _ _ _ _ _ _ _ _ _ _
  have hsplit : o.events = o.events.take 8 ++
      .called (.readLine 3 9 (.int 256)) (.error (.os (some 5) "Input/output error")) ::
        o.events.drop 9 := rfl
  have hsource : (Source.script "/go").ReadAs 3 (o.events.take 8) :=
    List.mem_of_getElem? (i := 2) rfl
  have honce : (Source.script "/go").OpenedOnce o.events := rfl
  obtain ⟨later, hlater, hevents, hending, hstate, -⟩ :=
    run_cutShort Shell.default hsize hsame hstarted (Nat.le_refl 1) 12 ["/go"] (.script "/go") hsplit hsource
      honce
  refine ⟨later, hlater ▸ hsplit, hevents, hending, congrArg Session.cwd hstate, ?_⟩
  have hread : chunks (o.events.drop 10) = [[0x63, 0x64, 0x20, 0x2F, 0x0A]] := rfl
  have hdrop : o.events.drop 10 = later := congrArg (List.drop 1) hlater
  rwa [hdrop] at hread

end Shell

end LineShell
