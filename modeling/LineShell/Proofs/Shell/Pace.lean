import LineShell.Proofs.Shell.BrokenOff

/-!
# The pace of a shell

A shell counts the bytes of the lines that it has read from a source, and asks for the next line at that
count; and it makes a child only for the line that it has just read.  Both are said of the events alone:
a read is in place where its offset is the number of bytes read from the descriptor since it was opened,
and making a child is in place behind a line of a source that is open still (`Event.InPlace`).

In a run of the shell each event is in place, whatever its calls are answered with (`Shell.paced_run`).
`Pace.At fd offset` is what holds between two lines of a source, and the steps of the loop follow it.
-/

namespace LineShell

open Program LineShell.Action

/-- The lines that were read from a descriptor since it was opened. -/
def linesFrom (fd : Int) (events : List (Event ServiceCall.Reply)) : List Bytes :=
  events.foldl (fun lines e =>
    match e with
    | .called (.openReadOnly _) (.ok opened) => if opened = fd then [] else lines
    | .called (.close closed) _ => if closed = fd then [] else lines
    | .called (.readLine source _ _) (.ok line) => if source = fd then lines ++ [line] else lines
    | _ => lines) []

/-- The number of bytes that were read from a descriptor since it was opened. -/
def bytesTaken (fd : Int) (events : List (Event ServiceCall.Reply)) : Nat :=
  (linesFrom fd events).flatten.length

/-- The source of the line that is at hand: a line was read from it last, and it was not closed
since. -/
def sourceAtHand (events : List (Event ServiceCall.Reply)) : Option Int :=
  events.foldl (fun held e =>
    match e with
    | .called (.readLine source _ _) (.ok (_ :: _)) => some source
    | .called (.readLine ..) _ => none
    | .called (.close _) _ => none
    | _ => held) none

/-- An event comes where it is expected behind others: a line is read from behind those that were read,
and a child is made for the line at hand. -/
def Event.InPlace (past : List (Event ServiceCall.Reply)) : Event ServiceCall.Reply → Prop
  | .called (.readLine fd offset _) _ => offset = bytesTaken fd past
  | .called .fork _ => sourceAtHand past ≠ none
  | _ => True

/-- Each event came where it was expected. -/
def Paced (past : List (Event ServiceCall.Reply)) : Prop :=
  ∀ before e after, past = before ++ e :: after → e.InPlace before

namespace Pace

variable {past : List (Event ServiceCall.Reply)} {e : Event ServiceCall.Reply} {fd offset : Int}
  {held : Option Int}

theorem paced_nil : Paced [] := by
  intro before e after h
  cases before <;> cases h

theorem paced_concat (he : e.InPlace past) (h : Paced past) : Paced (past ++ [e]) := by
  intro before x after hsplit
  rcases concat_eq_append_cons hsplit with ⟨-, rfl, rfl⟩ | ⟨rest, -, hpast⟩
  · exact he
  · exact h before x rest hpast

theorem of_append {later : List (Event ServiceCall.Reply)} (h : Paced (past ++ later)) : Paced past := by
  intro before x after hsplit
  refine h before x (after ++ later) ?_
  rw [hsplit, List.append_assoc, List.cons_append]

/-- The calls that begin, go on with or end the reading of a source. -/
def steps : List ServiceCall.Name := [.readLine, .openReadOnly, .close]

theorem linesFrom_aside {c : ServiceCall} (hc : steps.contains c.name = false)
    (outcome : Except Failure c.Reply) :
    linesFrom fd (past ++ [.called c outcome]) = linesFrom fd past := by
  rw [linesFrom, List.foldl_append]
  cases c <;> first | rfl | cases hc

theorem sourceAtHand_aside {c : ServiceCall} (hc : steps.contains c.name = false)
    (outcome : Except Failure c.Reply) :
    sourceAtHand (past ++ [.called c outcome]) = sourceAtHand past := by
  rw [sourceAtHand, List.foldl_append]
  cases c <;> first | rfl | cases hc

theorem linesFrom_logged (entry : Log.Entry) :
    linesFrom fd (past ++ [.logged entry]) = linesFrom fd past := by
  rw [linesFrom, List.foldl_append]
  rfl

theorem sourceAtHand_logged (entry : Log.Entry) :
    sourceAtHand (past ++ [.logged entry]) = sourceAtHand past := by
  rw [sourceAtHand, List.foldl_append]
  rfl

theorem linesFrom_read {g : Int} {capacity : Value} (line : Bytes) :
    linesFrom g (past ++ [.called (.readLine fd offset capacity) (.ok line)]) =
      if fd = g then linesFrom g past ++ [line] else linesFrom g past := by
  rw [linesFrom, List.foldl_append]
  rfl

theorem linesFrom_unread {g : Int} {capacity : Value} (e : Failure) :
    linesFrom g (past ++ [.called (.readLine fd offset capacity) (.error e)]) = linesFrom g past := by
  rw [linesFrom, List.foldl_append]
  rfl

theorem linesFrom_opened {g : Int} {path : Text} :
    linesFrom g (past ++ [.called (.openReadOnly path) (.ok fd)]) =
      if fd = g then [] else linesFrom g past := by
  rw [linesFrom, List.foldl_append]
  rfl

theorem linesFrom_unopened {g : Int} {path : Text} (e : Failure) :
    linesFrom g (past ++ [.called (.openReadOnly path) (.error e)]) = linesFrom g past := by
  rw [linesFrom, List.foldl_append]
  rfl

theorem linesFrom_closed {g : Int} (outcome : Except Failure Unit) :
    linesFrom g (past ++ [.called (.close fd) outcome]) = if fd = g then [] else linesFrom g past := by
  rw [linesFrom, List.foldl_append]
  cases outcome <;> rfl

/-! ## Between two lines -/

/-- So many bytes of a source were read, and none of any other one. -/
structure At (fd offset : Int) (past : List (Event ServiceCall.Reply)) : Prop where
  paced : Paced past
  here : bytesTaken fd past = offset
  elsewhere : ∀ g, g ≠ fd → bytesTaken g past = 0

/-- No bytes of any source were read, or it was closed. -/
structure Idle (past : List (Event ServiceCall.Reply)) : Prop where
  paced : Paced past
  everywhere : ∀ g, bytesTaken g past = 0

theorem Idle.at (h : Idle past) (fd : Int) : At fd 0 past where
  paced := h.paced
  here := congrArg Nat.cast (h.everywhere fd)
  elsewhere g _ := h.everywhere g

theorem idle_nil : Idle [] := ⟨paced_nil, fun _ => rfl⟩

/-- What is read from nowhere leaves the counts as they are. -/
theorem At.aside (h : At fd offset past) (he : e.InPlace past)
    (hlines : ∀ g, linesFrom g (past ++ [e]) = linesFrom g past) : At fd offset (past ++ [e]) where
  paced := paced_concat he h.paced
  here := by
    unfold bytesTaken
    rw [hlines]
    exact h.here
  elsewhere g hg := by
    unfold bytesTaken
    rw [hlines]
    exact h.elsewhere g hg

theorem Idle.aside (h : Idle past) (he : e.InPlace past)
    (hlines : ∀ g, linesFrom g (past ++ [e]) = linesFrom g past) : Idle (past ++ [e]) where
  paced := paced_concat he h.paced
  everywhere g := by
    unfold bytesTaken
    rw [hlines]
    exact h.everywhere g

theorem At.read (h : At fd offset past) (capacity : Value) (line : Bytes) :
    At fd (offset + line.length) (past ++ [.called (.readLine fd offset capacity) (.ok line)]) where
  paced := paced_concat h.here.symm h.paced
  here := by
    unfold bytesTaken
    rw [linesFrom_read, if_pos rfl, List.flatten_append, List.length_append, List.flatten_singleton,
      Int.natCast_add, ← bytesTaken, h.here]
  elsewhere g hg := by
    unfold bytesTaken
    rw [linesFrom_read, if_neg (Ne.symm hg)]
    exact h.elsewhere g hg

/-- A source that was opened is at its start. -/
theorem Idle.opened (h : Idle past) (path : Text) (fd : Int) :
    At fd 0 (past ++ [.called (.openReadOnly path) (.ok fd)]) where
  paced := paced_concat trivial h.paced
  here := by
    unfold bytesTaken
    rw [linesFrom_opened, if_pos rfl]
    rfl
  elsewhere g hg := by
    unfold bytesTaken
    rw [linesFrom_opened, if_neg (Ne.symm hg)]
    exact h.everywhere g

/-- When the source is closed nothing is left of any. -/
theorem At.closed (h : At fd offset past) (outcome : Except Failure Unit) :
    Idle (past ++ [.called (.close fd) outcome]) where
  paced := paced_concat trivial h.paced
  everywhere g := by
    unfold bytesTaken
    rw [linesFrom_closed]
    split
    · rfl
    · exact h.elsewhere g (Ne.symm ‹_›)

/-! ## Steps -/

section Steps

variable {World α : Type} {answer : (c : ServiceCall) → World → Answer World ServiceCall.Reply c}
  {names : List ServiceCall.Name} {parts : List Session.Part} {p : Action α}

/-- An event that is no step of a source is in place, if it makes a child only where a line is at
hand. -/
theorem inPlace_aside {c : ServiceCall} (hc : steps.contains c.name = false)
    (hfork : c.name = .fork → sourceAtHand past ≠ none) (outcome : Except Failure c.Reply) :
    (Event.called c outcome).InPlace past := by
  cases c <;> first | trivial | exact hfork rfl

theorem not_step {c : ServiceCall} (hc : names.contains c.name) (hnames : ∀ name ∈ steps, name ∉ names) :
    steps.contains c.name = false :=
  Bool.eq_false_iff.mpr fun hstep =>
    hnames _ (List.contains_iff_mem.mp hstep) (List.contains_iff_mem.mp hc)

/-- What is no step of a source and makes no child keeps what only those change. -/
theorem ensures_quiet {I : List (Event ServiceCall.Reply) → Prop}
    (hinner : ∀ c w, (answer c w).inner = [])
    (hI : ∀ past e, e.InPlace past → (∀ g, linesFrom g (past ++ [e]) = linesFrom g past) → I past →
      I (past ++ [e]))
    (hp : p.Footprint (Shell.scope names parts)) (hnames : ∀ name ∈ .fork :: steps, name ∉ names) :
    Ensures answer (fun past _ _ => I past) p (fun _ past _ _ => I past) (fun _ past _ _ => I past)
      Never := by
  refine hp.ensures (fun c hc past s w h => ?_) (fun _ _ _ _ _ h => h)
    (fun entry _ past s w h => hI past _ trivial (fun g => linesFrom_logged entry) h) nofun
  have hstep := not_step hc fun name hname => hnames name (List.mem_cons_of_mem _ hname)
  have hfork : c.name ≠ .fork := fun hname =>
    hnames _ List.mem_cons_self (hname ▸ List.contains_iff_mem.mp hc)
  rw [hinner]
  exact hI past _ (inPlace_aside hstep (fun hname => absurd hname hfork) _)
    (fun g => linesFrom_aside hstep _) h

theorem ensures_at (hinner : ∀ c w, (answer c w).inner = [])
    (hp : p.Footprint (Shell.scope names parts)) (hnames : ∀ name ∈ .fork :: steps, name ∉ names) :
    Ensures answer (fun past _ _ => At fd offset past) p (fun _ past _ _ => At fd offset past)
      (fun _ past _ _ => At fd offset past) Never :=
  ensures_quiet hinner (fun _ _ he hlines h => h.aside he hlines) hp hnames

theorem ensures_idle (hinner : ∀ c w, (answer c w).inner = [])
    (hp : p.Footprint (Shell.scope names parts)) (hnames : ∀ name ∈ .fork :: steps, name ∉ names) :
    Ensures answer (fun past _ _ => Idle past) p (fun _ past _ _ => Idle past)
      (fun _ past _ _ => Idle past) Never :=
  ensures_quiet hinner (fun _ _ he hlines h => h.aside he hlines) hp hnames

theorem ensures_paced (hinner : ∀ c w, (answer c w).inner = [])
    (hp : p.Footprint (Shell.scope names parts)) (hnames : ∀ name ∈ .fork :: steps, name ∉ names) :
    Ensures answer (fun past _ _ => Paced past) p (fun _ past _ _ => Paced past)
      (fun _ past _ _ => Paced past) Never :=
  ensures_quiet hinner (fun _ _ he _ h => paced_concat he h) hp hnames

/-- While a line is at hand children may be made for it. -/
theorem ensures_aside (hinner : ∀ c w, (answer c w).inner = [])
    (hp : p.Footprint (Shell.scope names parts)) (hnames : ∀ name ∈ steps, name ∉ names) :
    Ensures answer (fun past _ _ => At fd offset past ∧ sourceAtHand past = some fd) p
      (fun _ past _ _ => At fd offset past) (fun _ past _ _ => At fd offset past) Never := by
  have hkept : Ensures answer (fun past _ _ => At fd offset past ∧ sourceAtHand past = some fd) p
      (fun _ past _ _ => At fd offset past ∧ sourceAtHand past = some fd)
      (fun _ past _ _ => At fd offset past ∧ sourceAtHand past = some fd) Never := by
    refine hp.ensures (fun c hc past s w h => ?_) (fun _ _ _ _ _ h => h)
      (fun entry _ past s w h => ⟨h.1.aside trivial fun g => linesFrom_logged entry, ?_⟩) nofun
    · have hstep := not_step hc hnames
      have hheld : sourceAtHand past ≠ none := by
        rw [h.2]
        nofun
      rw [hinner]
      refine ⟨h.1.aside (inPlace_aside hstep (fun _ => hheld) _) fun g => linesFrom_aside hstep _, ?_⟩
      rw [sourceAtHand_aside hstep]
      exact h.2
    · rw [sourceAtHand_logged]
      exact h.2
  exact hkept.mono (fun _ _ _ h => h) (fun _ _ _ _ h => h.1) (fun _ _ _ _ h => h.1) fun _ _ _ h => h

theorem ensures_say (level : Log.Level) (message : Text) (context : Fields)
    {fails : Failure → Assertion Session World ServiceCall.Reply} :
    Ensures answer (fun past _ _ => At fd offset past) (Shell.say level message context)
      (fun _ past _ _ => At fd offset past) fails Never :=
  Ensures.log fun _ _ _ h => h.aside trivial fun _ => linesFrom_logged _

/-! ## The lines of a source -/

/-- What a read comes to: the next line is at hand, or the source is where it was. -/
def readTo (fd offset : Int) : Shell.Reading → List (Event ServiceCall.Reply) → Prop
  | .line chunk, past => At fd (offset + chunk.length) past ∧ sourceAtHand past = some fd
  | _, past => At fd offset past

theorem ensures_readLine (hinner : ∀ c w, (answer c w).inner = []) (interactive : Bool) :
    Ensures answer (fun past _ _ => At fd offset past) (Shell.readLine interactive fd offset)
      (fun reading past _ _ => readTo fd offset reading past) (fun _ past _ _ => At fd offset past)
      Never := by
  rw [Shell.readLine_eq]
  refine Ensures.state_bind fun s => ?_
  have hask : Ensures answer (fun past t _ => t = s ∧ At fd offset past)
      (ask (.readLine fd offset s.line.size))
      (fun (line : Bytes) past _ _ => At fd (offset + line.length) past ∧
        (line ≠ [] → sourceAtHand past = some fd))
      (fun _ past _ _ => At fd offset past) Never := by
    refine Ensures.request_alone (hinner _) (fun past t w line h _ => ⟨h.2.read _ line, fun hline => ?_⟩)
      fun past t w e h _ => h.2.aside h.2.here.symm fun g => linesFrom_unread e
    obtain ⟨byte, rest, rfl⟩ := List.exists_cons_of_ne_nil hline
    rw [sourceAtHand, List.foldl_append]
    rfl
  refine Ensures.bind hask.attempt fun outcome => ?_
  rcases outcome with e | chunk
  · cases e with
    | interrupt =>
        cases interactive with
        | true =>
            refine Ensures.bind (ensures_at hinner (Shell.footprint_print _) (by decide)) fun _ => ?_
            exact Ensures.done fun _ _ _ h => h
        | false => exact Ensures.fail fun _ _ _ h => h
    | os errno text =>
        exact Ensures.bind (ensures_say _ _ _) fun _ => Ensures.done fun _ _ _ h => h
    | _ => exact Ensures.fail fun _ _ _ h => h
  · cases chunk with
    | nil =>
        refine Ensures.done fun past _ _ h => ?_
        -- a read that brings nothing leaves the place as it was
        have hsame : offset + (([] : Bytes).length : Int) = offset := Int.add_zero offset
        exact hsame ▸ h.1
    | cons byte rest => exact Ensures.done fun _ _ _ h => ⟨h.1, h.2 nofun⟩

/-- So many bytes of a source were read, whatever the number is. -/
def Somewhere (fd : Int) (past : List (Event ServiceCall.Reply)) : Prop := ∃ offset, At fd offset past

/-- The lines of a source are read one behind the other, whatever is done in between. -/
theorem ensures_runFrom (hinner : ∀ c w, (answer c w).inner = []) (shell : Shell) (fd : Int)
    (interactive : Bool) (rounds : Nat) (offset : Int) :
    Ensures answer (fun past _ _ => At fd offset past)
      (shell.runFrom (Builtin.dispatch shell.home) fd interactive rounds offset)
      (fun _ past _ _ => Somewhere fd past) (fun _ past _ _ => Somewhere fd past)
      fun past _ _ => Somewhere fd past := by
  induction rounds generalizing offset with
  | zero => exact Ensures.outOfRounds fun _ _ _ h => ⟨offset, h⟩
  | succ rounds ih =>
      have hannounce : Ensures answer (fun past _ _ => At fd offset past) (shell.announce interactive)
          (fun _ past _ _ => At fd offset past) (fun _ past _ _ => At fd offset past) Never :=
        ensures_at hinner (shell.footprint_announce interactive) (by decide)
      refine Ensures.bind (hannounce.part fun _ _ _ _ h => ⟨offset, h⟩) fun _ => ?_
      refine Ensures.bind ((ensures_readLine hinner interactive).part fun _ _ _ _ h => ⟨offset, h⟩)
        fun reading => ?_
      cases reading with
      | exhausted => exact Ensures.done fun _ _ _ h => ⟨offset, h⟩
      | interrupted => exact ih offset
      | line chunk =>
          -- from here on the line is at hand, so its command may be run in a child
          have hcommand : Ensures answer
              (fun past _ _ => At fd (offset + chunk.length) past ∧ sourceAtHand past = some fd)
              (shell.runLine (Builtin.dispatch shell.home) interactive chunk)
              (fun _ past _ _ => At fd (offset + chunk.length) past)
              (fun _ past _ _ => At fd (offset + chunk.length) past) Never :=
            ensures_aside hinner (shell.footprint_command interactive chunk) (by decide)
          refine Ensures.bind (hcommand.part fun _ _ _ _ h => ⟨_, h⟩) fun next => ?_
          cases next with
          | leaveAll => exact Ensures.done fun _ _ _ h => ⟨_, h⟩
          | leaveSource => exact Ensures.done fun _ _ _ h => ⟨_, h⟩
          | goOn => exact ih _

/-! ## Scripts -/

/-- A script that was opened is at its start. -/
theorem ensures_openScript (hinner : ∀ c w, (answer c w).inner = []) (path : Text) :
    Ensures answer (fun past _ _ => Idle past) (Shell.openScript path)
      (fun opened past _ _ =>
        match opened with
        | some fd => At fd 0 past
        | none => Idle past)
      (fun _ past _ _ => Idle past) Never := by
  have hask : Ensures answer (fun past _ _ => Idle past) (ask (.openReadOnly path))
      (fun (fd : Int) past _ _ => At fd 0 past) (fun _ past _ _ => Idle past) Never :=
    Ensures.request_alone (hinner _) (fun _ _ _ fd h _ => h.opened path fd)
      fun _ _ _ e h _ => h.aside trivial fun g => linesFrom_unopened e
  refine Ensures.bind hask.attempt fun outcome => ?_
  cases outcome with
  | ok fd => exact Ensures.done fun _ _ _ h => h
  | error e =>
      dsimp only
      cases e.reportOf? .fileNotFound with
      | none => exact Ensures.fail fun _ _ _ h => h
      | some r =>
          refine Ensures.bind (m := fun _ past _ _ => Idle past) (Ensures.log fun _ _ _ h => ?_) fun _ => ?_
          · exact h.aside trivial fun _ => linesFrom_logged _
          · exact Ensures.done fun _ _ _ h => h

/-- A script is read to its end, or as far as it goes, and closed. -/
theorem ensures_runScript (hinner : ∀ c w, (answer c w).inner = []) (shell : Shell) (rounds : Nat)
    (script : Text) :
    Ensures answer (fun past _ _ => Idle past) (shell.runScript rounds script)
      (fun _ past _ _ => Idle past) (fun _ past _ _ => Idle past) fun past _ _ => Paced past := by
  refine Ensures.state_bind fun s => Ensures.weaken ?_ fun _ _ _ h => h.2
  have hpath : (ask .getPath).Footprint (Shell.scope [.getPath] []) := footprint_ask rfl
  refine Ensures.bind ((ensures_idle hinner hpath (by decide)).part fun _ _ _ _ h => h)
    fun searchPath => ?_
  refine Ensures.bind ((ensures_idle hinner (footprint_resolve script s.cwd searchPath)
    (by decide)).part fun _ _ _ _ h => h) fun path => ?_
  refine Ensures.bind ((ensures_openScript hinner path).part fun _ _ _ _ h => h) fun opened => ?_
  cases opened with
  | none => exact Ensures.done fun _ _ _ h => h
  | some fd =>
      refine Ensures.bind ((ensures_say _ _ _).part fun _ _ _ _ h => h) fun _ => ?_
      have hclose : Ensures answer (fun past _ _ => Somewhere fd past) (ask (.close fd))
          (fun _ past _ _ => Idle past) (fun _ past _ _ => Idle past) fun past _ _ => Paced past :=
        Ensures.request_alone (hinner _) (fun _ _ _ _ ⟨_, h⟩ _ => h.closed _)
          fun _ _ _ _ ⟨_, h⟩ _ => h.closed _
      refine Ensures.andFinally ?_ (fun _ => hclose) fun _ => hclose
      exact (ensures_runFrom hinner shell fd false rounds 0).mono (fun _ _ _ h => h)
        (fun _ _ _ _ h => h) (fun _ _ _ _ h => h) fun _ _ _ ⟨_, h⟩ => h.paced

theorem ensures_runScripts (hinner : ∀ c w, (answer c w).inner = []) (shell : Shell) (rounds : Nat)
    (scripts : List Text) :
    Ensures answer (fun past _ _ => Idle past) (shell.runScripts rounds scripts)
      (fun _ past _ _ => Idle past) (fun _ past _ _ => Idle past) fun past _ _ => Paced past := by
  induction scripts with
  | nil => exact Ensures.done fun _ _ _ h => h
  | cons script rest ih =>
      refine Ensures.bind (ensures_runScript hinner shell rounds script) fun goOn => ?_
      split
      · exact ih
      · exact Ensures.done fun _ _ _ h => h

end Steps

end Pace

open Pace

theorem Shell.footprint_lastWords (e : Failure) : (lastWords e).Footprint (scope [.write] []) := by
  cases e with
  | interrupt =>
      exact Footprint.bind (footprint_say _ _ _) fun _ =>
        Footprint.bind (footprint_print _) fun _ => Footprint.done _
  | _ => exact Footprint.fail _

/-- In a run of the shell lines are read one behind the other, and children are made for the line that
was read last, whatever its calls are answered with. -/
theorem Shell.paced_run {World : Type}
    {answer : (c : ServiceCall) → World → Answer World ServiceCall.Reply c}
    (hinner : ∀ c w, (answer c w).inner = []) (shell : Shell) (rounds : Nat) (scripts : List Text)
    (s : Session) (w : World) : Paced ((shell.run rounds scripts).run answer s w).events := by
  have hwork : Ensures answer (fun past _ _ => Idle past) (shell.work rounds scripts)
      (fun _ past _ _ => Paced past) (fun _ past _ _ => Paced past) fun past _ _ => Paced past := by
    refine Ensures.bind ((Pace.ensures_runScripts hinner shell rounds scripts).mono_fails
      fun _ _ _ _ h => h.paced) fun goOn => ?_
    split
    · refine Ensures.bind (m := fun _ past _ _ => Paced past) ?_ fun _ => Ensures.done fun _ _ _ h => h
      exact (Pace.ensures_runFrom hinner shell standardInput true rounds 0).mono (fun _ _ _ h => h.at _)
        (fun _ _ _ _ ⟨_, h⟩ => h.paced) (fun _ _ _ _ ⟨_, h⟩ => h.paced) fun _ _ _ ⟨_, h⟩ => h.paced
    · exact Ensures.done fun _ _ _ h => h.paced
  have hlast : ∀ e, Ensures answer (fun past _ _ => Paced past) (lastWords e)
      (fun _ past _ _ => Paced past) (fun _ past _ _ => Paced past) fun past _ _ => Paced past := by
    intro e
    exact (ensures_paced hinner (footprint_lastWords e) (by decide)).part fun _ _ _ _ h => h
  have hrun : Ensures answer (fun past _ _ => Idle past) (shell.run rounds scripts)
      (fun _ past _ _ => Paced past) (fun _ past _ _ => Paced past) fun past _ _ => Paced past := by
    rw [run_eq_work]
    refine Ensures.bind ((ensures_idle hinner footprint_publishCwd (by decide)).part
      fun _ _ _ _ h => h.paced) fun _ => ?_
    exact Ensures.orElse hwork hlast
  exact hrun.always (fun _ _ _ _ h => h) (fun _ _ _ _ h => h) (fun _ _ _ h => h) idle_nil

end LineShell
