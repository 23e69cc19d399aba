import LineShell.Proofs.Line.Pieces
import LineShell.Proofs.Services.Mirror
import LineShell.Proofs.Services.Piped
import LineShell.Proofs.Shell.Pace
import LineShell.Proofs.Shell.Start

/-!
# Standard input from a pipe

The shell asks for each line at an offset that it keeps count of itself.  Where standard input can seek
the offset decides where the line is read from; where it cannot, the place in the source does.  The two
agree because the place in a source is the number of bytes of the lines that were read from it
(`InStep`), which is the offset that the shell asks for (`Shell.paced_run`).  So a run is the same
whether standard input can seek or not, but for the seeks on it.

For the same reason a child that is made finds in the source of its line all that was not read yet.

The main result is `Shell.run_pipedInput`.
-/

namespace LineShell

open Program OsCall

/-! ## A line that is read from a host -/

namespace Host

open OsWorld (answer Moved run_ask)

variable {σ : Type} {w : OsWorld} {fd : Int} {offset : Nat}

/-- The source behind a read: behind the line, or where it was when nothing was read. -/
def BehindRead (offset : Nat) : Except Failure Bytes → Option OpenSource → Option OpenSource → Prop
  | .ok (byte :: rest), before, after => ∃ content, before = some ⟨content, offset⟩ ∧
      byte :: rest <+: content.drop offset ∧ after = some ⟨content, offset + (byte :: rest).length⟩
  | _, before, after => after = before

/-- A source was read from at a place, and nothing else happened to the sources. -/
structure ReadFrom (fd : Int) (offset : Nat) (outcome : Except Failure Bytes) (w v : OsWorld) :
    Prop where
  quiet : v.faults = []
  elsewhere : ∀ g, g ≠ fd → v.sources.lookup g = w.sources.lookup g
  here : BehindRead offset outcome (w.sources.lookup fd) (v.sources.lookup fd)

theorem run_readUpTo_cases (s : σ) (count : Nat) (hfaults : w.faults = [])
    (hplace : ∀ source, w.sources.lookup fd = some source → source.position = offset) :
    ∃ outcome v events, (readUpTo fd count).run answer s w = ⟨endingOf outcome, s, v, events⟩ ∧
      ReadFrom fd offset outcome w v := by
  cases hsource : w.sources.lookup fd with
  | none =>
      cases count with
      | zero => exact ⟨.ok [], w, [], rfl, hfaults, fun _ _ => rfl, rfl⟩
      | succ count =>
          have hserve : w.serve (.readBytes fd 1) = (.error OsWorld.badDescriptor, w) := by
            simp only [OsWorld.serve, OsWorld.readBytes, hsource]
          have hask := run_ask (c := .readBytes fd 1) s hfaults rfl
          rw [hserve] at hask
          refine ⟨.error OsWorld.badDescriptor, w,
            [.called (.readBytes fd 1) (.error OsWorld.badDescriptor)], ?_, hfaults, fun _ _ => rfl, rfl⟩
          rw [readUpTo, bind_eq_bind, run_bind, hask]
          rfl
  | some source =>
      obtain ⟨content, position⟩ := source
      obtain rfl : position = offset := hplace _ hsource
      obtain ⟨v, events, hrun, hmoved⟩ := run_readUpTo s count hfaults hsource
      refine ⟨.ok _, v, events, hrun, hmoved.faults.trans hfaults, hmoved.elsewhere, ?_⟩
      have hprefix : InMemory.firstLine ((content.drop offset).take count) <+: content.drop offset :=
        (InMemory.prefix_firstLine _).trans (List.take_prefix _ _)
      have hhere := hmoved.here
      revert hprefix hhere
      -- only where the line comes from matters from here on
      generalize InMemory.firstLine ((content.drop offset).take count) = line
      intro hprefix hhere
      cases line with
      | nil =>
          have hstill : (offset : Int) + ([] : Bytes).length = offset := Int.add_zero _
          rw [hstill, ← hsource] at hhere
          exact hhere
      | cons byte rest => exact ⟨content, hsource, hprefix, hhere⟩

/-- A read that goes to the place where the source is leaves it behind the line. -/
theorem run_readLine_cases (s : σ) (rounds : Nat) (capacity : Value) (hfaults : w.faults = [])
    (hplace : ∀ source, w.sources.lookup fd = some source → source.position = offset) :
    ∃ outcome v events,
      (readLine rounds fd offset capacity).run answer s w = ⟨endingOf outcome, s, v, events⟩ ∧
      ReadFrom fd offset outcome w v := by
  obtain ⟨u, events, hrewind, hrest, hlookup, -⟩ := run_rewind s hfaults hplace
  have hcalm : u.faults = [] := by
    rw [hrest]
    exact hfaults
  rw [readLine_eq, run_bind, hrewind]
  cases hcount : bytesBelow rounds capacity with
  | error e => exact ⟨.error e, u, _, rfl, hcalm, fun g _ => hlookup g, hlookup fd⟩
  | ok count =>
      obtain ⟨outcome, v, more, hrun, hquiet, helsewhere, hhere⟩ :=
        run_readUpTo_cases s count hcalm (fun source hsource => hplace source (hlookup fd ▸ hsource))
      refine ⟨outcome, v, events ++ more, ?_, hquiet, ?_, ?_⟩
      · simp only [Outcome.andThen, run_bind, run_ofExcept_ok, hrun, List.nil_append]
      · exact fun g hg => (helsewhere g hg).trans (hlookup g)
      · rw [hlookup] at hhere
        exact hhere

end Host

/-! ## The place in a source -/

namespace OsWorld

variable {w : OsWorld} {c : OsCall}

/-- The calls that open, close, read or move sources. -/
def sourceCalls : List OsCall.Name := [.openFile, .close, .seek, .readBytes]

theorem serve_sources (hc : sourceCalls.contains c.name = false) (w : OsWorld) :
    (w.serve c).2.sources = w.sources := by
  cases c with
  | openFile => cases hc
  | close => cases hc
  | seek => cases hc
  | readBytes => cases hc
  | _ => simp only [serve, chdir, takeStatus] <;> (repeat' split) <;> rfl

/-- A file is opened behind the next descriptor, or nothing happens. -/
theorem serve_openFile_cases (path : Text) (w : OsWorld) :
    (∃ e, w.serve (.openFile path) = (.error e, w)) ∨
      ∃ content, w.serve (.openFile path) = (.ok w.nextFd,
        { w with sources := (w.nextFd, ⟨content, 0⟩) :: w.sources, nextFd := w.nextFd + 1 }) := by
  simp only [serve]
  split
  · exact .inl ⟨_, rfl⟩
  · cases w.files.lookup path with
    | none => exact .inl ⟨_, rfl⟩
    | some content => exact .inr ⟨content, rfl⟩

/-- Without faults there are none later. -/
theorem answer_quiet (c : OsCall) (hfaults : w.faults = []) : (answer c w).world.faults = [] := by
  refine answer_preserves (P := fun v => v.faults = []) (fun _ _ h => h) (fun v call h => ?_)
    (fun d v _ h => (serve_faults d v).trans h) hfaults
  dsimp only
  rw [h]
  rfl

/-- All other calls leave the sources alone. -/
theorem answer_sources (hc : sourceCalls.contains c.name = false) (w : OsWorld) :
    (answer c w).world.sources = w.sources := by
  refine answer_preserves (P := fun v => v.sources = w.sources) (fun _ _ h => h) (fun _ _ h => h)
    (fun d v hd h => ?_) rfl
  have hname : sourceCalls.contains d.name = false := by
    rcases hd with hd | hd
    · rw [hd]
      exact hc
    · rw [hd]
      rfl
  exact (serve_sources hname v).trans h

end OsWorld

/-- A source was read up to a place: the lines that were read are what stands before it. -/
structure OpenSource.Behind (lines : List Bytes) (source : OpenSource) : Prop where
  position : source.position = lines.flatten.length
  taken : lines.flatten <+: source.content

/-- As long as each line was asked for in its place, each source is behind the lines that were read from
it, and that of the line at hand is open. -/
structure InStep (past : List (Event ServiceCall.Reply)) (w : OsWorld) : Prop where
  quiet : w.faults = []
  behind : Paced past → ∀ fd source, w.sources.lookup fd = some source →
    source.Behind (linesFrom fd past)
  held : Paced past → ∀ fd, sourceAtHand past = some fd → (w.sources.lookup fd).isSome = true

namespace InStep

open Pace

variable {past : List (Event ServiceCall.Reply)} {e : Event ServiceCall.Reply} {w v : OsWorld}
  {fd : Int} {offset : Nat}

/-- What has nothing to do with sources keeps them in step. -/
theorem aside (h : InStep past w) (hquiet : v.faults = []) (hsources : v.sources = w.sources)
    (hlines : ∀ fd, linesFrom fd (past ++ [e]) = linesFrom fd past)
    (hheld : sourceAtHand (past ++ [e]) = sourceAtHand past) : InStep (past ++ [e]) v where
  quiet := hquiet
  behind hpaced fd source hsource := by
    rw [hlines]
    exact h.behind (of_append hpaced) fd source (hsources ▸ hsource)
  held hpaced fd hfd := by
    rw [hsources]
    exact h.held (of_append hpaced) fd (hheld ▸ hfd)

/-- Only the sources matter, and that there are no faults. -/
theorem congr (h : InStep past w) (hquiet : v.faults = []) (hsources : v.sources = w.sources) :
    InStep past v where
  quiet := hquiet
  behind hpaced fd source hsource := h.behind hpaced fd source (hsources ▸ hsource)
  held hpaced fd hfd := by
    rw [hsources]
    exact h.held hpaced fd hfd

/-- Nothing is asked of the sources once a line was asked for out of its place. -/
theorem of_unpaced (hquiet : w.faults = []) (h : ¬Paced past) : InStep past w :=
  ⟨hquiet, fun hpaced => absurd hpaced h, fun hpaced => absurd hpaced h⟩

/-- A line is taken from its place. -/
theorem read (h : InStep past w) (hoffset : bytesTaken fd past = offset) (capacity : Value)
    {outcome : Except Failure Bytes} (hread : Host.ReadFrom fd offset outcome w v) :
    InStep (past ++ [.called (.readLine fd offset capacity) outcome]) v where
  quiet := hread.quiet
  behind hpaced g source hsource := by
    have hbefore := h.behind (of_append hpaced)
    have hhere := hread.here
    by_cases hg : g = fd
    · subst hg
      rw [hsource] at hhere
      rcases outcome with e | line
      · rw [linesFrom_unread]
        exact hbefore g source hhere.symm
      · rw [linesFrom_read, if_pos rfl]
        cases line with
        | nil =>
            obtain ⟨hposition, htaken⟩ := hbefore g source hhere.symm
            refine ⟨?_, ?_⟩ <;> rw [List.flatten_append, List.flatten_singleton, List.append_nil]
            · exact hposition
            · exact htaken
        | cons byte rest =>
            obtain ⟨content, hlookup, hline, hafter⟩ := hhere
            obtain rfl := Option.some.inj hafter
            obtain ⟨-, htaken⟩ := hbefore g _ hlookup
            refine ⟨?_, ?_⟩ <;> rw [List.flatten_append, List.flatten_singleton]
            · rw [List.length_append, ← bytesTaken, hoffset]
              exact (Int.natCast_add _ _).symm
            · -- the lines before end where this one begins
              have hsplit : (linesFrom g past).flatten = content.take offset := by
                rw [← hoffset]
                exact List.prefix_iff_eq_take.mp htaken
              obtain ⟨later, hlater⟩ := hline
              refine ⟨later, ?_⟩
              rw [hsplit, List.append_assoc, hlater, List.take_append_drop]
    · have hsame : linesFrom g (past ++ [.called (.readLine fd offset capacity) outcome]) =
          linesFrom g past := by
        rcases outcome with e | line
        · exact linesFrom_unread e
        · rw [linesFrom_read, if_neg (Ne.symm hg)]
      rw [hsame]
      exact hbefore g source (hread.elsewhere g hg ▸ hsource)
  held hpaced g hg := by
    have hhere := hread.here
    rw [sourceAtHand, List.foldl_append] at hg
    rcases outcome with e | _ | ⟨byte, rest⟩
    · cases hg
    · cases hg
    · obtain rfl := Option.some.inj hg
      obtain ⟨content, -, -, hafter⟩ := hhere
      rw [hafter]
      rfl

/-- A source that was opened is at its start. -/
theorem opened (h : InStep past w) (path : Text) (content : Bytes)
    (hrest : v = { w with sources := (w.nextFd, ⟨content, 0⟩) :: w.sources, nextFd := v.nextFd }) :
    InStep (past ++ [.called (.openReadOnly path) (.ok w.nextFd)]) v where
  quiet := by
    rw [hrest]
    exact h.quiet
  behind hpaced g source hsource := by
    rw [linesFrom_opened]
    rw [hrest, List.lookup_cons] at hsource
    by_cases hg : w.nextFd = g
    · rw [if_pos hg]
      rw [hg, beq_self_eq_true] at hsource
      obtain rfl := Option.some.inj hsource
      exact ⟨rfl, List.nil_prefix⟩
    · rw [if_neg hg]
      rw [beq_false_of_ne (Ne.symm hg)] at hsource
      exact h.behind (of_append hpaced) g source hsource
  held hpaced g hg := by
    rw [sourceAtHand, List.foldl_append] at hg
    have hbefore := h.held (of_append hpaced) g hg
    rw [hrest, List.lookup_cons]
    split
    · rfl
    · exact hbefore

/-- When a source is closed no line is at hand. -/
theorem closed (h : InStep past w) (outcome : Except Failure Unit) (hquiet : v.faults = [])
    (hsources : ∀ g, g ≠ fd → v.sources.lookup g = w.sources.lookup g)
    (hgone : v.sources.lookup fd = none) : InStep (past ++ [.called (.close fd) outcome]) v where
  quiet := hquiet
  behind hpaced g source hsource := by
    rw [linesFrom_closed]
    by_cases hg : fd = g
    · rw [← hg, hgone] at hsource
      cases hsource
    · rw [if_neg hg]
      exact h.behind (of_append hpaced) g source (hsources g (Ne.symm hg) ▸ hsource)
  held hpaced g hg := by
    rw [sourceAtHand, List.foldl_append] at hg
    cases outcome <;> cases hg

end InStep

namespace Host

open OsWorld (answer SameButPipe)

variable {σ : Type} {past : List (Event ServiceCall.Reply)}

theorem ensures_quiet {α : Type} {p : Program σ OsCall.Reply α} {names : List OsCall.Name}
    {stops : Bool} (hp : p.Footprint (scope names stops)) :
    Ensures answer (fun _ _ w => w.faults = []) p (fun _ _ _ w => w.faults = [])
      (fun _ _ _ w => w.faults = []) fun _ _ _ => True :=
  hp.ensures (fun c _ _ _ _ h => OsWorld.answer_quiet c h) (fun _ _ _ _ hchange => hchange.elim)
    (fun _ _ _ _ _ h => h) fun _ _ _ _ _ => trivial

/-- What is carried out without a call that has to do with sources leaves them as they are. -/
theorem ensures_sources {α : Type} {p : Program σ OsCall.Reply α} {names : List OsCall.Name}
    {stops : Bool} (hp : p.Footprint (scope names stops))
    (hnames : ∀ name ∈ OsWorld.sourceCalls, name ∉ names) (sources : List (Int × OpenSource)) :
    Ensures answer (fun _ _ w => w.faults = [] ∧ w.sources = sources) p
      (fun _ _ _ w => w.faults = [] ∧ w.sources = sources)
      (fun _ _ _ w => w.faults = [] ∧ w.sources = sources) fun _ _ _ => True := by
  refine hp.ensures (fun c hc _ _ w h => ⟨OsWorld.answer_quiet c h.1, ?_⟩)
    (fun _ _ _ _ hchange => hchange.elim) (fun _ _ _ _ _ h => h) fun _ _ _ _ _ => trivial
  refine (OsWorld.answer_sources (Bool.eq_false_iff.mpr fun hmem => ?_) w).trans h.2
  exact hnames _ (List.contains_iff_mem.mp hmem) (List.contains_iff_mem.mp hc)

/-- A line that is asked for in its place is taken from there. -/
theorem ensures_readLine_inStep (spare : Nat) (fd offset : Int) (capacity : Value) :
    Ensures (σ := σ) answer (fun _ _ w => InStep past w) (readLine spare fd offset capacity)
      (fun r _ _ w => InStep (past ++ [.called (.readLine fd offset capacity) (.ok r)]) w)
      (fun e _ _ w => InStep (past ++ [.called (.readLine fd offset capacity) (.error e)]) w)
      fun _ _ _ => True := by
  by_cases hplaced : Paced past ∧ offset = bytesTaken fd past
  · obtain ⟨hpaced, rfl⟩ := hplaced
    intro before s w h
    have hplace : ∀ source, w.sources.lookup fd = some source → source.position = bytesTaken fd past :=
      fun source hsource => (h.behind hpaced fd source hsource).position
    obtain ⟨outcome, v, events, hrun, hread⟩ := run_readLine_cases s spare capacity h.quiet hplace
    rw [hrun]
    cases outcome with
    | ok line => exact h.read rfl capacity hread
    | error e => exact h.read rfl capacity hread
  · -- the line was not asked for in its place, so that only the faults matter
    have hunpaced : ∀ outcome, ¬Paced (past ++ [.called (.readLine fd offset capacity) outcome]) :=
      fun outcome h => hplaced ⟨Pace.of_append h, h past _ [] rfl⟩
    refine (ensures_quiet (footprint_readLine spare fd offset capacity)).mono ?_ ?_ ?_ ?_
    · exact fun _ _ _ h => h.quiet
    · exact fun _ _ _ _ h => .of_unpaced h (hunpaced _)
    · exact fun _ _ _ _ h => .of_unpaced h (hunpaced _)
    · exact fun _ _ _ h => h

/-- A source that is opened is at its start. -/
theorem ensures_openReadOnly_inStep (path : Text) :
    Ensures (σ := σ) answer (fun _ _ w => InStep past w) (openReadOnly path)
      (fun fd _ _ w => InStep (past ++ [.called (.openReadOnly path) (.ok fd)]) w)
      (fun e _ _ w => InStep (past ++ [.called (.openReadOnly path) (.error e)]) w)
      fun _ _ _ => True := by
  have hrefused : ∀ e w, InStep past w → InStep (past ++ [.called (.openReadOnly path) (.error e)]) w := by
    refine fun e w h => h.aside h.quiet rfl (fun _ => Pace.linesFrom_unopened e) ?_
    rw [sourceAtHand, List.foldl_append]
    rfl
  -- asking whether a path is a directory touches no source
  have hisDir : Ensures (σ := σ) answer (fun _ _ w => InStep past w) (ask (.isDir (.text path)))
      (fun _ _ _ w => InStep past w)
      (fun e _ _ w => InStep (past ++ [.called (.openReadOnly path) (.error e)]) w)
      fun _ _ _ => True := by
    have hsame : ∀ w, InStep past w → InStep past (answer (.isDir (.text path)) w).world := fun w h =>
      h.congr (OsWorld.answer_quiet _ h.quiet) (OsWorld.answer_sources rfl w)
    exact Ensures.request (fun _ _ w _ h _ => hsame w h) fun _ _ w e h _ => hrefused e _ (hsame w h)
  have hopen : Ensures (σ := σ) answer (fun _ _ w => InStep past w) (ask (.openFile path))
      (fun (fd : Int) _ _ w => InStep (past ++ [.called (.openReadOnly path) (.ok fd)]) w)
      (fun _ _ _ w => InStep past w) fun _ _ _ => True := by
    refine Ensures.request (fun _ _ w fd h hfd => ?_) fun _ _ w e h he => ?_
    · rw [OsWorld.answer_of_faults_nil h.quiet rfl] at hfd ⊢
      rcases w.serve_openFile_cases path with ⟨e, hserve⟩ | ⟨content, hserve⟩ <;>
        rw [hserve] at hfd ⊢
      · cases hfd
      · obtain rfl := Except.ok.inj hfd
        exact h.opened path content rfl
    · rw [OsWorld.answer_of_faults_nil h.quiet rfl] at he ⊢
      rcases w.serve_openFile_cases path with ⟨e', hserve⟩ | ⟨content, hserve⟩ <;> rw [hserve] at he ⊢
      · exact h
      · cases he
  unfold openReadOnly
  refine Ensures.bind hisDir fun isDirectory => ?_
  split
  · exact Ensures.fail fun _ _ w h => hrefused _ w h
  · refine Ensures.bind hopen.attempt fun outcome => ?_
    cases outcome with
    | ok fd =>
        refine Ensures.bind (m := fun _ _ _ w => InStep (past ++ [.called (.openReadOnly path) (.ok fd)]) w)
          (Ensures.log fun _ _ _ h => h) fun _ => ?_
        exact Ensures.done fun _ _ _ h => h
    | error e =>
        cases e with
        | os errno text => exact Ensures.fail fun _ _ w h => hrefused _ w h
        | _ => exact Ensures.fail fun _ _ w h => hrefused _ w h

theorem ensures_close_inStep (fd : Int) :
    Ensures (σ := σ) answer (fun _ _ w => InStep past w) (ask (.close fd))
      (fun r _ _ w => InStep (past ++ [.called (.close fd) (.ok r)]) w)
      (fun e _ _ w => InStep (past ++ [.called (.close fd) (.error e)]) w) fun _ _ _ => True := by
  have hclosed : ∀ w outcome, InStep past w →
      InStep (past ++ [.called (.close fd) outcome]) (answer (.close fd) w).world := by
    intro w outcome h
    rw [OsWorld.answer_of_faults_nil h.quiet rfl]
    simp only [OsWorld.serve]
    split
    · refine h.closed outcome h.quiet (fun g hg => ?_) ?_
      · dsimp only
        rw [lookup_filter_key (· != fd), if_pos (bne_iff_ne.mpr hg)]
      · dsimp only
        rw [lookup_filter_key (· != fd)]
        simp
    · exact h.closed outcome h.quiet (fun _ _ => rfl) (Option.not_isSome_iff_eq_none.mp ‹_›)
  exact Ensures.request (fun _ _ w _ h _ => hclosed w _ h) fun _ _ w _ h _ => hclosed w _ h

theorem ensures_carryOut_inStep (spare : Nat) (c : ServiceCall) :
    Ensures (σ := σ) answer (fun _ _ w => InStep past w) (carryOut spare c)
      (fun r _ _ w => InStep (past ++ [.called c (.ok r)]) w)
      (fun e _ _ w => InStep (past ++ [.called c (.error e)]) w) fun _ _ _ => True := by
  by_cases hc : Pace.steps.contains c.name
  · cases c with
    | readLine fd offset capacity => exact ensures_readLine_inStep spare fd offset capacity
    | openReadOnly path => exact ensures_openReadOnly_inStep path
    | close fd => exact ensures_close_inStep fd
    | _ => cases hc
  · have hstep : Pace.steps.contains c.name = false := Bool.eq_false_iff.mpr hc
    have hnames : ∀ name ∈ OsWorld.sourceCalls, name ∉ callsOf c.name := by
      revert hstep
      generalize c.name = name
      cases name <;> decide
    intro before s w h
    have hrun := ensures_sources (footprint_carryOut spare c) hnames w.sources before s w ⟨h.quiet, rfl⟩
    have hbehind : ∀ outcome v, v.faults = [] ∧ v.sources = w.sources →
        InStep (past ++ [.called c outcome]) v := fun outcome v hv =>
      h.aside hv.1 hv.2 (fun _ => Pace.linesFrom_aside hstep outcome)
        (Pace.sourceAtHand_aside hstep outcome)
    cases hend : ((carryOut spare c).run answer s w).ending with
    | returned r => rw [hend] at hrun; exact hbehind _ _ hrun
    | failed e => rw [hend] at hrun; exact hbehind _ _ hrun
    | outOfRounds => trivial

end Host

namespace Shell

open OsWorld (answer SameButPipe)
open Host (carryOut onHost)

variable {shell : Shell} {spare rounds : Nat} {scripts : List Text} {s t : Session} {w v : OsWorld}
  {past : List (Event ServiceCall.Reply)} {inner : List (Event OsCall.Reply)}

/-- What a shell has done between two services, and what it does next, is in its place. -/
theorem paced_between {c : ServiceCall} {next : Except Failure c.Reply → Action Int}
    (h : Between (carryOut spare) answer ⟨shell.run rounds scripts, s, w⟩ past inner ⟨.call c next, t, v⟩) :
    Paced past ∧ ∀ outcome, (Event.called c outcome).InPlace past := by
  have hsteady : ∀ c (s : Session) w, ((carryOut spare c).run answer s w).state = s := fun c s w =>
    (Host.footprint_carryOut spare c).run_state (fun _ _ h => h) s w
  -- the run goes on with any outcome of the call
  have hplace : ∀ outcome, Paced (past ++ [.called c outcome]) := by
    intro outcome
    have hpass := (h.replayed hsteady [⟨c, outcome⟩]).next rfl
    rw [Point.shown] at hpass
    simp only [replay_cons] at hpass
    have hrun := Shell.paced_run replay_inner shell rounds scripts s (outcomes past ++ [⟨c, outcome⟩])
    have hevents := congrArg Outcome.events hpass.run_eq
    dsimp only at hevents
    rw [hevents] at hrun
    exact Pace.of_append hrun
  have houtcome := hplace (.error .interrupt)
  exact ⟨Pace.of_append houtcome, fun outcome => hplace outcome past _ [] rfl⟩

/-- Between two services the sources are in step with what was read. -/
theorem inStep_between {p : Action Int} (hquiet : w.faults = [])
    (hstart : ∀ fd source, w.sources.lookup fd = some source → source.position = 0)
    (h : Between (carryOut spare) answer ⟨shell.run rounds scripts, s, w⟩ past inner ⟨p, t, v⟩) :
    InStep past v := by
  refine h.kept (P := InStep) (fun c past => Host.ensures_carryOut_inStep spare c)
    (fun entry past w h => ?_) ?_
  · exact h.aside h.quiet rfl (fun _ => Pace.linesFrom_logged entry) (Pace.sourceAtHand_logged entry)
  · exact ⟨hquiet, fun _ fd source hsource => ⟨hstart fd source hsource, List.nil_prefix⟩, fun _ _ => nofun⟩

/-- Whether standard input can seek or not, a run of the shell ends in the same way with the same state,
and makes the same calls with the same results but for the seeks on standard input.  In both, a child is
made where the source of its line is behind the lines that were read from it, so that it finds all that
comes after them. -/
theorem run_pipedInput {content : Bytes} (hquiet : w.faults = [])
    (hinput : w.sources = [(standardInput, ⟨content, 0⟩)]) (shell : Shell) (spare rounds : Nat)
    (scripts : List Text) (s : Session) :
    let run := fun pipe => (onHost spare (shell.run rounds scripts)).run answer s
      { w with stdinPipe := pipe }
    ((run true).ending = (run false).ending ∧ (run true).state = (run false).state ∧
      SameButPipe (run false).world (run true).world ∧
      (run true).events.filter (fun e => !e.isSeekOn standardInput) =
        (run false).events.filter fun e => !e.isSeekOn standardInput) ∧
    ∀ pipe past inner next t v, Between (carryOut spare) answer
        ⟨shell.run rounds scripts, s, { w with stdinPipe := pipe }⟩ past inner ⟨.call .fork next, t, v⟩ →
      ∃ fd source, sourceAtHand past = some fd ∧ v.sources.lookup fd = some source ∧
        source.position = (linesFrom fd past).flatten.length ∧
        (linesFrom fd past).flatten <+: source.content := by
  intro run
  have hstart : ∀ fd source, w.sources.lookup fd = some source → source.position = 0 := by
    intro fd source hsource
    rw [hinput, List.lookup_cons] at hsource
    split at hsource
    · rw [← Option.some.inj hsource]
    · cases hsource
  refine ⟨?_, fun pipe past inner next t v hfork => ?_⟩
  · have hsame : SameButPipe { w with stdinPipe := false } { w with stdinPipe := true } :=
      ⟨rfl, fun _ => rfl⟩
    have halike : Outcome.Alike SameButPipe (fun e => !e.isSeekOn standardInput) (run false) (run true) := by
      refine Between.alike (fun past inner c next t w' hcall v' hA => ?_) hsame
      have hstep := inStep_between (w := { w with stdinPipe := false }) hquiet hstart hcall
      obtain ⟨hpaced, hplace⟩ := paced_between hcall
      -- only a read looks for the place, and it asks for the one where the source is
      by_cases hc : c.name = .readLine
      · cases c with
        | readLine fd offset capacity =>
            obtain rfl : offset = bytesTaken fd past := hplace (.error .interrupt)
            exact Host.alike_readLine hA t spare capacity hstep.quiet fun source hsource =>
              (hstep.behind hpaced fd source hsource).position
        | _ => cases hc
      · exact Host.alike_carryOut hA t spare hc
    exact ⟨halike.ending, halike.state, halike.world, halike.events⟩
  · have hstep := inStep_between (w := { w with stdinPipe := pipe }) hquiet hstart hfork
    obtain ⟨hpaced, hplace⟩ := paced_between hfork
    -- a fork belongs to a line, and a line to the source at hand
    have hheld : sourceAtHand past ≠ none := hplace (.error .interrupt)
    obtain ⟨fd, hfd⟩ := Option.ne_none_iff_exists'.mp hheld
    obtain ⟨source, hsource⟩ := Option.isSome_iff_exists.mp (hstep.held hpaced fd hfd)
    obtain ⟨hposition, htaken⟩ := hstep.behind hpaced fd source hsource
    exact ⟨fd, source, hfd, hsource, hposition, htaken⟩

/-- A host with a script of one command, and two commands on standard input. -/
def commandsHost : OsWorld :=
  (InMemory.create [("/a", [0x6C, 0x73])] [] "/" "/bin" [0x6C, 0x73, 0x0A, 0x64, 0x75, 0x0A] [7, 8, 9] []
    false false []).asHost false (some 3) [.status 7 0, .interrupt, .status 8 0x100, .status 9 0]

/-- Six seeks are made where standard input can seek and three where it cannot, and nothing else is
different. -/
theorem run_pipedInput_of_commands :
    let run := fun pipe => (onHost 5 (Shell.default.run 8 ["/a"])).run answer (.default "/")
      { commandsHost with stdinPipe := pipe }
    (run false).ending = .returned 0 ∧ (run true).ending = .returned 0 ∧
      (run true).events.filter (fun e => !e.isSeekOn standardInput) =
        ((run false).events.filter fun e => !e.isSeekOn standardInput) ∧
      ((run false).events.filter fun e => e.isSeekOn standardInput).length = 6 ∧
      ((run true).events.filter fun e => e.isSeekOn standardInput).length = 3 := by
  intro run
  obtain ⟨⟨-, -, -, hevents⟩, -⟩ := run_pipedInput (w := commandsHost) rfl rfl Shell.default 5 8 ["/a"]
    (.default "/")
  exact ⟨rfl, rfl, hevents, rfl, rfl⟩

end Shell

end LineShell
