import LineShell.Proofs.Services.Delivery
import LineShell.Proofs.Services.Mirror
import LineShell.Proofs.Shell.Lockstep
import LineShell.Proofs.Shell.Rounds
import LineShell.Proofs.Shell.Seen
import LineShell.Proofs.Shell.Start
import LineShell.Proofs.Text.Utf8

/-!
# The shell on a host

The shell runs on a host as it runs in a world in memory that the host mirrors.  The two are `Abreast`
at each step: the worlds mirror each other, the same was seen of both, standard input has been read up
to where the shell is in it, and the same children are left to be made.

* Calls that leave the worlds as they are: `served_of_still` needs nothing but the answers on both
  sides, and `served_of_dark` not even what is seen.
* Calls that change the worlds: each changes both in the same way, however many calls to the operating
  system that takes.  A read moves a source (`served_readLine`), scripts are opened and closed, and
  a directory is entered on both (`relates_entered`) or on neither (`relates_refused`).
* A child is made on both as long as the list of children lasts (`served_fork`); behind its end the two
  may differ, which is what `Exhausted` is for.

So each call of the shell is answered alike, the two run in lockstep (`lockstep_host`), and they come
to the same (`Shell.run_onHost`).
-/

namespace LineShell

open Program LineShell.Action

namespace Machine

/-- The shell over services in memory. -/
abbrev memory : Machine Session ServiceCall.Reply where
  World := InMemory
  Inner := ServiceCall
  InnerReply := ServiceCall.Reply
  carryOut := request
  answer := InMemory.answer

/-- The shell over the services of a host. -/
abbrev host (spare : Nat) : Machine Session ServiceCall.Reply where
  World := OsWorld
  Inner := OsCall
  InnerReply := OsCall.Reply
  carryOut := Host.carryOut spare
  answer := OsWorld.answer

theorem run_memory {α : Type} (p : Action α) (l : memory.Moment) :
    memory.run p l = p.run InMemory.answer l.state l.world := by
  rw [run, interpret_self]

end Machine

open Machine (memory host)

/-- The offset that standard input has been read up to. -/
def Place.inputOffset : Place → Int
  | .input offset => offset
  | _ => 0

/-- A host whose sources are where a shell reads on from a place. -/
structure Standing (place : Place) (h : OsWorld) : Prop where
  input : ∃ content, h.sources.lookup standardInput = some ⟨content, place.inputOffset⟩
  script : ∀ fd offset, place = .script fd offset →
    fd ≠ standardInput ∧ ∃ source, h.sources.lookup fd = some source
  offset : ∀ fd offset, place.reads? = some (fd, offset) → 0 ≤ offset

/-- The children that a world is to make, `all` of them, no longer suffice. -/
def Exhausted (all : List Int) (past : List (Event ServiceCall.Reply)) : Prop :=
  all.length < (forkReplies past).length

/-- The two machines have come to the same, with the shell at a place and, once it is `published`, with
the working directory in the environment. -/
structure Abreast (spare : Nat) (all : List Int) (published : Prop) (place : Place)
    (l : memory.Moment) (r : (host spare).Moment) : Prop where
  mirror : Mirror l.world r.world
  same : View.Same l.past r.past
  standing : Standing place r.world
  children : l.world.forks = all.drop (forkReplies l.past).length
  environment : published →
    r.world.environment.lookup Host.pwdVariable = some l.world.pwd

variable {spare : Nat} {all : List Int} {published : Prop} {place : Place}
  {l : memory.Moment} {r : (host spare).Moment}

theorem lasting_exhausted (all : List Int) : Lasting (Exhausted all) := by
  intro past later h
  unfold Exhausted at h ⊢
  rw [forkReplies_append, List.length_append]
  exact Nat.lt_add_right _ h

/-! ## One call -/

/-- How a call is answered on both sides, given the service in memory and its run on the host. -/
theorem both_of_runs {c : ServiceCall} {outcome : Except Failure c.Reply} {m : InMemory} {v : OsWorld}
    {ending : Ending c.Reply} {events : List (Event OsCall.Reply)}
    {returns : c.Reply → c.Reply → Relation memory (host spare)}
    {fails : Failure → Failure → Relation memory (host spare)} {stops : Relation memory (host spare)}
    (hquiet : l.world.faults = []) (hserve : l.world.serve c = (outcome, m))
    (hrun : (Host.carryOut spare c).run OsWorld.answer r.state r.world = ⟨ending, r.state, v, events⟩)
    (h : Ending.both returns fails stops (endingOf outcome) ending
      ⟨l.past ++ [.called c outcome], l.state, m⟩ ⟨r.past ++ events, r.state, v⟩) :
    Ending.both returns fails stops (memory.ending (ask c) l) ((host spare).ending (ask c) r)
      (memory.after (ask c) l) ((host spare).after (ask c) r) := by
  have hmemory : memory.run (ask c) l = ⟨endingOf outcome, l.state, m, [.called c outcome]⟩ := by
    rw [Machine.run_memory, ask, run_request, InMemory.answer_of_faults_nil hquiet, hserve]
  have hhost : (host spare).run (ask c) r = ⟨ending, r.state, v, events⟩ := by
    rw [ask, Machine.run_request, hrun]
  unfold Machine.ending Machine.after
  rw [hmemory, hhost]
  exact h

namespace Abreast

/-- A call that is no fork makes no children. -/
theorem children_next (h : Abreast spare all published place l r) {c : ServiceCall}
    (hc : (c.name == .fork) = false) {m : InMemory} (hm : m.forks = l.world.forks)
    (outcome : Except Failure c.Reply) :
    m.forks = all.drop (forkReplies (l.past ++ [.called c outcome])).length := by
  rw [hm, forkReplies_append, forkReplies_of_name_ne (beq_eq_false_iff_ne.mp hc), List.append_nil]
  exact h.children

/-- A call that leaves both worlds as they are. -/
theorem still (h : Abreast spare all published place l r) {c : ServiceCall}
    (hc : (c.name == .fork) = false) {outcome : Except Failure c.Reply}
    {events : List (Event OsCall.Reply)}
    (hsame : View.Same [.called c outcome] events) :
    Abreast spare all published place ⟨l.past ++ [.called c outcome], l.state, l.world⟩
      ⟨r.past ++ events, r.state, r.world⟩ where
  mirror := h.mirror
  same := h.same.append hsame
  standing := h.standing
  children := h.children_next hc rfl outcome
  environment := h.environment

end Abreast

/-- Text that has bytes. -/
def HasBytes (text : Text) : Prop := Text.Utf8.isEncodable text = true

/-- An outcome in memory and an ending on a host that lead the shell the same way, with words that have
bytes. -/
def Answered (c : ServiceCall) : Except Failure c.Reply → Ending c.Reply → Prop
  | .ok a, .returned b => c.Matches a b
  | .error e, .failed e' => c.FailsAlike HasBytes e e'
  | _, _ => False

/-- The two machines answer a call alike and are abreast where it leads. -/
abbrev Served (spare : Nat) (all : List Int) : ServiceCall → Place → Prop :=
  AnsweredAlike memory (host spare) (Exhausted all) (Abreast spare all True) HasBytes

/-! ## Calls that leave the worlds as they are -/

/-- A call that leaves both worlds as they are keeps the two abreast where the answers lead the shell
the same way and look alike. -/
theorem served_of_still {c : ServiceCall} (hc : (c.name == .fork) = false)
    (hlead : ∀ a, c.lead a place = place)
    (hstill : ∀ (s : Session) (m : InMemory) (h : OsWorld), Mirror m h →
      ∃ outcome ending events, m.serve c = (outcome, m) ∧
        (Host.carryOut spare c).run OsWorld.answer s h = ⟨ending, s, h, events⟩ ∧
        View.Same [.called c outcome] events ∧ Answered c outcome ending) :
    Served spare all c place := by
  intro s t l r ⟨hstates, habreast⟩
  obtain ⟨outcome, ending, events, hserve, hrun, hsame, hanswered⟩ := hstill r.state _ _ habreast.mirror
  refine .inr (both_of_runs habreast.mirror.quiet hserve hrun ?_)
  have hnext := habreast.still hc hsame
  cases outcome <;> cases ending
  case ok.returned a b =>
    refine ⟨hanswered, hstates, ?_⟩
    rw [hlead]
    exact hnext
  case error.failed e e' => exact ⟨hanswered, hstates, hnext⟩
  all_goals exact hanswered.elim

/-- Where nothing is seen of a call only the answers matter. -/
theorem served_of_dark {c : ServiceCall} (hc : View.shownServices.contains c.name = false)
    (hlead : ∀ a, c.lead a place = place)
    (hstill : ∀ (s : Session) (m : InMemory) (h : OsWorld), Mirror m h →
      ∃ outcome ending events, m.serve c = (outcome, m) ∧
        (Host.carryOut spare c).run OsWorld.answer s h = ⟨ending, s, h, events⟩ ∧
        Answered c outcome ending) : Served spare all c place := by
  have hfork : (c.name == .fork) = false := by
    refine beq_eq_false_iff_ne.mpr fun heq => ?_
    rw [heq] at hc
    cases hc
  refine served_of_still hfork hlead fun s m h hm => ?_
  obtain ⟨outcome, ending, events, hserve, hrun, hanswered⟩ := hstill s m h hm
  exact ⟨outcome, ending, events, hserve, hrun, View.same_of_carryOut spare hc hrun _, hanswered⟩

theorem served_fileExists (path : Text) : Served spare all (.fileExists path) place := by
  refine served_of_dark rfl (fun _ => rfl) fun s m h hm => ?_
  have hrun := OsWorld.run_ask (c := .isFile path) s hm.hostQuiet rfl
  rw [OsWorld.serve, hm.files] at hrun
  exact ⟨_, _, _, rfl, hrun, .inr rfl⟩

theorem served_isDir (path : Value) : Served spare all (.isDir path) place := by
  refine served_of_dark rfl (fun _ => rfl) fun s m h hm => ?_
  have hrun := OsWorld.run_ask (c := .isDir path) s hm.hostQuiet rfl
  cases path with
  | text p =>
      simp only [OsWorld.serve, hm.isSome_dirs] at hrun
      exact ⟨_, _, _, rfl, hrun, .inr rfl⟩
  | list items => exact ⟨_, _, _, rfl, hrun, .same, fun _ _ hreport => by cases hreport⟩
  | dict fields => exact ⟨_, _, _, rfl, hrun, .same, fun _ _ hreport => by cases hreport⟩
  | _ => exact ⟨_, _, _, rfl, hrun, .inr rfl⟩

theorem served_getPwd : Served spare all .getPwd place := by
  refine served_of_dark rfl (fun _ => rfl) fun s m h hm => ?_
  obtain ⟨events, hrun⟩ := Host.run_getPwd s hm.hostQuiet hm.here
  rw [hm.cwd] at hrun
  exact ⟨_, _, _, rfl, hrun, .inr rfl⟩

theorem served_getPath : Served spare all .getPath place := by
  refine served_of_dark rfl (fun _ => rfl) fun s m h hm => ?_
  obtain ⟨events, hrun⟩ := Host.run_variableOr s Host.pathVariable [] hm.hostQuiet
  rw [hm.path] at hrun
  exact ⟨_, _, _, rfl, hrun, .inr rfl⟩

theorem served_getPid : Served spare all .getPid place := by
  refine served_of_dark rfl (fun _ => rfl) fun s m h hm => ?_
  exact ⟨_, _, _, rfl, OsWorld.run_ask (c := .getpid) s hm.hostQuiet rfl, .inr rfl⟩

theorem served_exit (status : Value) : Served spare all (.exit status) place := by
  refine served_of_dark rfl (fun _ => rfl) fun s m h hm => ?_
  have hserve : m.serve (.exit status) = (.error (.exit status), m) := by
    rw [InMemory.serve, hm.exitEnds]
    rfl
  exact ⟨_, _, _, hserve, OsWorld.run_ask (c := .exit status) s hm.hostQuiet rfl, .of_untold .same rfl⟩

/-- A text with bytes is written, however few of them each write takes. -/
theorem served_write {text : Text} (htext : HasBytes text) :
    Served spare all (.write standardOutput text) place := by
  refine served_of_still rfl (fun _ => rfl) fun s m h hm => ?_
  obtain ⟨bytes, hbytes⟩ := Text.Utf8.exists_encode? htext
  obtain ⟨events, hrun, houtput, hdeeds⟩ := Host.run_write s spare hbytes
    (OsWorld.accepts_of_faults_nil hm.hostQuiet hm.takes)
  have hseen : View.services.output [.called (.write standardOutput text) (.ok ())] = bytes := by
    simp [View.output, View.services, hbytes]
  exact ⟨_, _, _, rfl, hrun, ⟨houtput.trans hseen.symm, hdeeds⟩, .inr rfl⟩

theorem served_exec (path : Text) (argv : List Text) : Served spare all (.exec path argv) place := by
  refine served_of_still rfl (fun _ => rfl) fun s m h hm => ?_
  obtain ⟨e, report, events, hrun, hreport, houtput, hdeeds⟩ :=
    Host.run_exec s path argv hm.hostQuiet hm.hostExecFails
  have hserve : m.serve (.exec path argv) =
      (.error (.execFailed "No such file or directory" InMemory.pid (some path)), m) := by
    rw [InMemory.serve, hm.execFails]
    rfl
  exact ⟨_, _, _, hserve, hrun, ⟨houtput, hdeeds⟩, .of_untold (.notExecuted rfl hreport) rfl⟩

/-! ## Calls that change the worlds -/

theorem Standing.of_sources {h v : OsWorld} (hs : Standing place h) (hv : v.sources = h.sources) :
    Standing place v where
  input := by
    rw [hv]
    exact hs.input
  script := by
    rw [hv]
    exact hs.script
  offset := hs.offset

/-- The source that is read, and where it is. -/
theorem Standing.source {h : OsWorld} (hs : Standing place h) {fd offset : Int}
    (hplace : place.reads? = some (fd, offset)) :
    ∃ content position, h.sources.lookup fd = some ⟨content, position⟩ ∧
      (fd = standardInput → position = offset) := by
  cases place with
  | between => cases hplace
  | script fd offset =>
      cases hplace
      obtain ⟨hne, source, hsource⟩ := hs.script fd offset rfl
      exact ⟨source.content, source.position, hsource, fun heq => absurd heq hne⟩
  | input offset =>
      cases hplace
      obtain ⟨content, hinput⟩ := hs.input
      exact ⟨content, offset, hinput, fun _ => rfl⟩

/-- Reading on in a source leaves a shell behind what it read. -/
theorem Standing.behind {h v : OsWorld} (hs : Standing place h) {fd offset : Int} {content : Bytes}
    {length : Nat} (hplace : place.reads? = some (fd, offset))
    (hmoved : OsWorld.Moved fd ⟨content, offset + length⟩ h v) : Standing (place.behind length) v := by
  have hoffset := hs.offset fd offset hplace
  cases place with
  | between => cases hplace
  | script fd offset =>
      cases hplace
      obtain ⟨hne, -⟩ := hs.script fd offset rfl
      obtain ⟨unread, hinput⟩ := hs.input
      refine ⟨⟨unread, ?_⟩, ?_, ?_⟩
      · rw [hmoved.elsewhere standardInput (Ne.symm hne), hinput]
        rfl
      · intro g place heq
        cases heq
        exact ⟨hne, _, hmoved.here⟩
      · intro g place heq
        cases heq
        omega
  | input offset =>
      cases hplace
      refine ⟨⟨content, hmoved.here⟩, nofun, ?_⟩
      intro g place heq
      cases heq
      omega

/-- A line is read at the same offset on both. -/
theorem served_readLine {capacity : Value} {n fd offset : Int} (hsize : capacity.toInt? = some n)
    (hplace : place.reads? = some (fd, offset)) :
    Served spare all (.readLine fd offset capacity) place := by
  intro s t l r ⟨hstates, habreast⟩
  have hm := habreast.mirror
  obtain ⟨k, rfl⟩ := Int.eq_ofNat_of_zero_le (habreast.standing.offset fd offset hplace)
  obtain ⟨content, position, hsource, hposition⟩ := habreast.standing.source hplace
  obtain ⟨v, events, hrun, hmoved⟩ := Host.run_readLine r.state spare hsize hm.hostQuiet hsource
    fun hpiped => hposition hpiped.1
  have hserve : l.world.serve (.readLine fd k capacity) =
      (.ok (InMemory.lineAt content k n), l.world) := by
    simp only [InMemory.serve, hm.source hsource, hsize]
  refine .inr (both_of_runs hm.quiet hserve hrun ⟨.inr rfl, hstates, ?_⟩)
  exact {
    mirror := hm.moved hsource hmoved
    same := habreast.same.append (View.same_of_carryOut spare (c := .readLine fd k capacity) rfl hrun _)
    standing := habreast.standing.behind hplace hmoved
    children := habreast.children_next (c := .readLine fd k capacity) rfl rfl _
    environment := fun _ => by
      rw [hmoved.rest]
      exact habreast.environment trivial }

/-- A script that was opened is read from its start. -/
theorem Standing.opened {h : OsWorld} (hs : Standing .between h) (hbeyond : standardInput < h.nextFd)
    (content : Bytes) : Standing (.script h.nextFd 0) (Host.opened h content) := by
  have hne : h.nextFd ≠ standardInput := Int.ne_of_gt hbeyond
  obtain ⟨unread, hinput⟩ := hs.input
  refine ⟨⟨unread, ?_⟩, ?_, ?_⟩
  · have hother : (standardInput == h.nextFd) = false := beq_eq_false_iff_ne.mpr (Ne.symm hne)
    rw [Host.opened, List.lookup_cons, hother]
    exact hinput
  · intro fd offset heq
    cases heq
    exact ⟨hne, _, List.lookup_cons_self ..⟩
  · intro fd offset heq
    cases heq
    exact Int.le_refl 0

/-- A file is opened behind the same descriptor on both; anything else is on neither. -/
theorem served_openReadOnly (path : Text) : Served spare all (.openReadOnly path) .between := by
  intro s t l r ⟨hstates, habreast⟩
  have hm := habreast.mirror
  cases hfile : l.world.files.lookup path with
  | some content =>
      -- what is a file is no directory
      have hdir : l.world.dirs.contains path = false := by
        refine Bool.eq_false_iff.mpr fun hdir => ?_
        have hnone := hm.apart path hdir
        rw [hfile] at hnone
        cases hnone
      have hhost : r.world.dirs.lookup path = none := by
        rw [hm.dirs, hdir]
        rfl
      obtain ⟨events, hrun⟩ := Host.run_openReadOnly r.state hm.hostQuiet hhost (hm.not_denied path)
        ((hm.files path).trans hfile)
      have hserve : l.world.serve (.openReadOnly path) = (.ok l.world.nextFd,
          { l.world with
            sources := (l.world.nextFd, content) :: l.world.sources
            nextFd := l.world.nextFd + 1 }) := by
        simp only [InMemory.serve, hfile]
      have hstanding := habreast.standing.opened (hm.nextFd ▸ hm.beyondInput) content
      refine .inr (both_of_runs hm.quiet hserve hrun ⟨.inr hm.nextFd.symm, hstates, ?_⟩)
      exact {
        mirror := hm.opened content
        same := habreast.same.append
          (View.same_of_carryOut spare (c := .openReadOnly path) rfl hrun _)
        standing := hm.nextFd ▸ hstanding
        children := habreast.children_next (c := .openReadOnly path) rfl rfl _
        environment := habreast.environment }
  | none =>
      obtain ⟨given, events, hrun⟩ := Host.run_openReadOnly_refused r.state hm.hostQuiet
        (.inr ((hm.files path).trans hfile)) (hm.not_denied path)
      have hserve : l.world.serve (.openReadOnly path) =
          (.error (.fileNotFound path []), l.world) := by
        simp only [InMemory.serve, hfile]
      have hsame := View.same_of_carryOut spare (c := .openReadOnly path) rfl hrun
        (.error (.fileNotFound path []))
      refine .inr (both_of_runs hm.quiet hserve hrun
        ⟨.of_untold (.notOpened rfl rfl) rfl, hstates, ?_⟩)
      exact habreast.still (c := .openReadOnly path) rfl hsame

/-- Behind a script standard input is as it was. -/
theorem Standing.closed {h : OsWorld} {fd offset : Int} (hs : Standing (.script fd offset) h) :
    Standing .between { h with sources := h.sources.filter (·.1 != fd) } := by
  obtain ⟨hne, -⟩ := hs.script fd offset rfl
  obtain ⟨unread, hinput⟩ := hs.input
  refine ⟨⟨unread, ?_⟩, nofun, nofun⟩
  rw [lookup_filter_key (· != fd), if_pos (bne_iff_ne.mpr (Ne.symm hne))]
  exact hinput

theorem served_close (fd offset : Int) : Served spare all (.close fd) (.script fd offset) := by
  intro s t l r ⟨hstates, habreast⟩
  have hm := habreast.mirror
  obtain ⟨-, source, hsource⟩ := habreast.standing.script fd offset rfl
  have hrun := OsWorld.run_ask (c := .close fd) r.state hm.hostQuiet rfl
  have hclose : r.world.serve (.close fd) =
      (.ok (), { r.world with sources := r.world.sources.filter (·.1 != fd) }) := by
    simp only [OsWorld.serve, hsource, Option.isSome_some, if_true]
  rw [hclose] at hrun
  refine .inr (both_of_runs hm.quiet rfl hrun ⟨.inr rfl, hstates, ?_⟩)
  exact {
    mirror := hm.closed fd
    same := habreast.same.append (View.same_of_carryOut spare (c := .close fd) rfl hrun _)
    standing := habreast.standing.closed
    children := habreast.children_next (c := .close fd) rfl rfl _
    environment := habreast.environment }

/-- A directory is entered on both, and is published then. -/
theorem relates_entered (s t : Session) (path : Text) :
    Relates memory (host spare) (Exhausted all)
      (fun l r => l.world.dirs.contains path = true ∧ (l.state = s ∧ r.state = t) ∧
        Abreast spare all published place l r) (ask (.setPwd path)) (ask (.setPwd path))
      (fun _ _ l r => (l.state = s ∧ r.state = t) ∧ Abreast spare all True place l r)
      (fun _ _ _ _ => False) fun _ _ => False := by
  intro l r ⟨hdir, hstates, habreast⟩
  have hm := habreast.mirror
  have hhost : r.world.dirs.lookup path = some path := by
    rw [hm.dirs, hdir]
    rfl
  obtain ⟨events, hrun⟩ := Host.run_setPwd r.state hm.hostQuiet (hm.not_denied path)
    ((hm.files path).trans (hm.apart path hdir)) hhost
  have hserve : l.world.serve (.setPwd path) = (.ok (), { l.world with pwd := path }) := by
    simp only [InMemory.serve, hdir, if_true]
  refine .inr (both_of_runs hm.quiet hserve hrun ⟨hstates, ?_⟩)
  exact {
    mirror := hm.entered path
    same := habreast.same.append (View.same_of_carryOut spare (c := .setPwd path) rfl hrun _)
    standing := habreast.standing.of_sources rfl
    children := habreast.children_next (c := .setPwd path) rfl rfl _
    environment := fun _ => OsWorld.lookup_setVariable_self }

/-- What is no directory is entered on neither. -/
theorem relates_refused (s t : Session) (path : Text) :
    Relates memory (host spare) (Exhausted all)
      (fun l r => l.world.dirs.contains path = false ∧ (l.state = s ∧ r.state = t) ∧
        Abreast spare all published place l r) (ask (.setPwd path)) (ask (.setPwd path))
      (fun _ _ _ _ => False)
      (fun e e' l r => (∃ given, e = .notADirectory (.text path) [] ∧
          e' = .notADirectory (.text path) given) ∧ (l.state = s ∧ r.state = t) ∧
        Abreast spare all published place l r) fun _ _ => False := by
  intro l r ⟨hdir, hstates, habreast⟩
  have hm := habreast.mirror
  have hhost : r.world.dirs.lookup path = none := by
    rw [hm.dirs, hdir]
    rfl
  obtain ⟨given, events, hrun⟩ :=
    Host.run_setPwd_refused r.state hm.hostQuiet (hm.not_denied path) hhost
  have hserve : l.world.serve (.setPwd path) =
      (.error (.notADirectory (.text path) []), l.world) := by
    simp only [InMemory.serve, hdir, Bool.false_eq_true, if_false]
  have hsame := View.same_of_carryOut spare (c := .setPwd path) rfl hrun
    (.error (.notADirectory (.text path) []))
  refine .inr (both_of_runs hm.quiet hserve hrun ⟨⟨given, rfl, rfl⟩, hstates, ?_⟩)
  exact habreast.still (c := .setPwd path) rfl hsame

theorem served_setPwd {path : Text} (hpath : HasBytes path) :
    Served spare all (.setPwd path) place := by
  intro s t l r hpre
  cases hdir : l.world.dirs.contains path with
  | true =>
      exact (relates_entered s t path).mono (fun _ _ h => h) (fun _ _ _ _ h => ⟨.inr rfl, h⟩)
        (fun _ _ _ _ h => h.elim) (fun _ _ h => h) l r ⟨hdir, hpre⟩
  | false =>
      refine (relates_refused s t path).mono (fun _ _ h => h) (fun _ _ _ _ h => h.elim)
        (fun e e' l r hfailed => ?_) (fun _ _ h => h) l r ⟨hdir, hpre⟩
      obtain ⟨⟨given, rfl, rfl⟩, hafter⟩ := hfailed
      refine ⟨⟨.notEntered, fun _ report hreport => ?_⟩, hafter⟩
      cases hreport
      exact Text.Utf8.isEncodable_append (Text.Utf8.isEncodable_of_ascii rfl) hpath

/-- The same child is made on both, as long as there is one left. -/
theorem served_fork : Served spare all .fork place := by
  intro s t l r ⟨hstates, habreast⟩
  have hm := habreast.mirror
  have hrun := Host.run_fork r.state hm.hostQuiet
  have hserve : l.world.serve .fork = (.ok (l.world.forks.headD (100 + (l.world.forked + 1))),
      { l.world with forks := l.world.forks.tail, forked := l.world.forked + 1 }) := rfl
  have hcount : ∀ pid, (forkReplies (l.past ++ [.called .fork (.ok pid)])).length =
      (forkReplies l.past).length + 1 := by
    intro pid
    rw [forkReplies_append, List.length_append]
    rfl
  cases hforks : l.world.forks with
  | nil =>
      left
      have hpast : (memory.after (ask .fork) l).past =
          l.past ++ [.called .fork (l.world.serve .fork).1] := by
        unfold Machine.after
        rw [Machine.run_memory, ask, run_request, InMemory.answer_of_faults_nil hm.quiet]
      -- the children are used up, so this fork is one too many
      have hall : all.length ≤ (forkReplies l.past).length := by
        have hchildren := habreast.children
        rw [hforks] at hchildren
        exact List.drop_eq_nil_iff.mp hchildren.symm
      rw [hpast, hserve, Exhausted, hcount]
      exact Nat.lt_succ_of_le hall
  | cons pid rest =>
      rw [hforks] at hserve
      rw [hm.forks, hforks] at hrun
      refine .inr (both_of_runs hm.quiet hserve hrun ⟨.inr rfl, hstates, ?_⟩)
      have hchildren : rest = all.drop ((forkReplies l.past).length + 1) := by
        rw [← List.tail_drop, ← habreast.children, hforks]
        rfl
      have hmirror := hm.forked
      rw [hm.forks, hforks] at hmirror
      exact {
        mirror := hmirror
        same := habreast.same.append ⟨rfl, rfl⟩
        standing := habreast.standing.of_sources rfl
        children := hchildren.trans (by rw [hcount])
        environment := habreast.environment }

/-- A child is waited for on both, whatever the wait comes to. -/
theorem served_waitpid (pid : Int) : Served spare all (.waitpid pid (.int 0)) place := by
  intro s t l r ⟨hstates, habreast⟩
  have hm := habreast.mirror
  obtain ⟨outcome, waits, handler, events, hrun, hwaits, houtput, hdeeds⟩ :=
    Host.run_waitpid r.state spare pid hm.hostQuiet hm.waits
  refine .inr (both_of_runs hm.quiet rfl hrun ⟨.inl rfl, hstates, ?_⟩)
  exact {
    mirror := hm.waited hwaits handler
    same := habreast.same.append ⟨houtput, hdeeds⟩
    standing := habreast.standing.of_sources rfl
    children := habreast.children_next (c := .waitpid pid (.int 0)) rfl rfl _
    environment := habreast.environment }

/-! ## The whole run -/

theorem fitting_hasBytes : Fitting HasBytes where
  append := Text.Utf8.isEncodable_append
  ascii := Text.Utf8.isEncodable_of_ascii
  decode := Text.Utf8.isEncodable_decode

/-- The shell runs on a host in lockstep with memory. -/
theorem lockstep_host {shell : Shell} {buffer : LineBuffer} (hbuffer : buffer.Sized)
    (hfits : shell.Fits HasBytes) (htimeout : shell.waitTimeout = .int 0) :
    Lockstep memory (host spare) (Exhausted all) (Abreast spare all True) shell buffer HasBytes where
  lasting := lasting_exhausted all
  fitting := fitting_hasBytes
  fits := hfits
  anyState _ _ h := ⟨h.mirror, h.same, h.standing, h.children, h.environment⟩
  anyEntry _ _ h := by
    refine ⟨h.mirror, h.same.append ⟨rfl, rfl⟩, h.standing, ?_, h.environment⟩
    rw [forkReplies_append]
    exact h.children.trans (by rw [List.length_append]; rfl)
  input h := by
    refine { h with standing := ⟨h.standing.input, nofun, ?_⟩ }
    intro fd offset heq
    cases heq
    exact Int.le_refl 0
  serves {c place} hasks := by
    cases c with
    | readLine fd offset capacity =>
        obtain ⟨hplace, rfl⟩ := hasks
        exact served_readLine hbuffer.size hplace
    | write fd text =>
        obtain ⟨rfl, htext⟩ := hasks
        exact served_write htext
    | fileExists path => exact served_fileExists path
    | isDir path => exact served_isDir path
    | openReadOnly path =>
        cases hasks
        exact served_openReadOnly path
    | close fd =>
        obtain ⟨offset, rfl⟩ := hasks
        exact served_close fd offset
    | getPwd => exact served_getPwd
    | setPwd path => exact served_setPwd hasks
    | getPath => exact served_getPath
    | getPid => exact served_getPid
    | fork => exact served_fork
    | exec path argv => exact served_exec path argv
    | waitpid pid timeout =>
        obtain rfl : timeout = .int 0 := hasks.trans htimeout
        exact served_waitpid pid
    | exit status => exact served_exit status

open Lockstep (Together Anywhere)

/-- A shell that is in a directory publishes it, and the two are together from then on. -/
theorem relates_publishCwd {s : Session} (hcwd : HasBytes s.cwd)
    {fails : Failure → Failure → Relation memory (host spare)} {stops : Relation memory (host spare)} :
    Relates memory (host spare) (Exhausted all)
      (fun l r => l.world.dirs.contains s.cwd = true ∧ (l.state = s ∧ r.state = s) ∧
        Abreast spare all False .between l r) Shell.publishCwd Shell.publishCwd
      (fun _ _ => Together (Abreast spare all True) s.line HasBytes .between) fails stops := by
  refine Relates.state_bind fun s' t' l r hpre => ?_
  obtain ⟨⟨rfl, rfl⟩, hdir, ⟨hl, hr⟩, habreast⟩ := hpre
  subst hl
  rw [hr]
  refine Relates.orElse (lasting_exhausted all) (n := fun _ _ _ _ => False)
    ((relates_entered l.state l.state l.state.cwd).mono (fun _ _ h => h) (fun _ _ l' r' h => ?_)
      (fun _ _ _ _ h => h) fun _ _ h => h.elim) (fun _ _ => fun _ _ h => h.elim) l r
    ⟨hdir, ⟨rfl, hr⟩, habreast⟩
  obtain ⟨⟨hl', hr'⟩, hinner⟩ := h
  refine ⟨hinner, ?_, ?_, ?_, ?_⟩
  · rw [hl', hr']
  · rw [hl', hr']
  · rw [hl']
    exact .refl _
  · rw [hl']
    exact hcwd

/-- A run in memory and a run on a host that come to the same. -/
structure Agree (o : Outcome Session InMemory ServiceCall.Reply Int)
    (o' : Outcome Session OsWorld OsCall.Reply Int) : Prop where
  ending : o'.ending = o.ending
  ended : o.ending ≠ .outOfRounds
  /-- The same bytes arrive on standard output. -/
  output : View.system.output o'.events = View.services.output o.events
  /-- The same children are made, turned into the same commands, and waited for. -/
  deeds : View.system.deeds o'.events = View.services.deeds o.events
  cwd : o'.state.cwd = o.state.cwd
  pwd : o'.world.cwd = o.world.pwd
  published : o'.world.environment.lookup Host.pwdVariable = some o.world.pwd

namespace Shell

/-- On a host that mirrors a world in memory the shell comes to the same as in memory. -/
theorem run_onHost (shell : Shell) {suffix home : Text} (hprompt : shell.promptSuffix = .text suffix)
    (hsuffix : HasBytes suffix) (hhome : shell.home = .text home) (hhomeBytes : HasBytes home)
    (htimeout : shell.waitTimeout = .int 0) {s : Session} (hline : s.line.Sized)
    {m : InMemory} {h : OsWorld} (hmirror : Mirror m h) {input : Bytes}
    (hinput : h.sources.lookup standardInput = some ⟨input, 0⟩) (hcwd : s.cwd = m.pwd)
    (hdir : m.dirs.contains m.pwd = true) (hpwd : HasBytes m.pwd) {rounds : Nat}
    (hrounds : m.longestSource < rounds) (spare : Nat) (scripts : List Text) :
    let o := (shell.run rounds scripts).run InMemory.answer s m
    let o' := (Host.onHost spare (shell.run rounds scripts)).run OsWorld.answer s h
    (forkReplies o.events).length ≤ m.forks.length → Agree o o' := by
  intro o o' hforks
  let l : memory.Moment := ⟨[], s, m⟩
  let r : (host spare).Moment := ⟨[], s, h⟩
  have hfits : shell.Fits HasBytes := by
    refine ⟨fun text htext => ?_, fun text htext => ?_, ?_⟩
    · rw [hprompt] at htext
      cases htext
      exact hsuffix
    · rw [hhome] at htext
      cases htext
      exact hhomeBytes
    · rw [hhome]
      exact hhomeBytes
  have habreast : Abreast spare m.forks False .between l r :=
    ⟨hmirror, ⟨rfl, rfl⟩, ⟨⟨input, hinput⟩, nofun, nofun⟩, rfl, False.elim⟩
  have hlockstep : Lockstep memory (host spare) (Exhausted m.forks) (Abreast spare m.forks True) shell
      s.line HasBytes := lockstep_host hline hfits htimeout
  have hrun := hlockstep.relates_run rounds scripts (relates_publishCwd (hcwd ▸ hpwd)) l r
    ⟨hcwd ▸ hdir, ⟨rfl, rfl⟩, habreast⟩
  have hl : memory.run (shell.run rounds scripts) l = o := Machine.run_memory _ l
  have hr : (host spare).run (shell.run rounds scripts) r = o' := rfl
  unfold Machine.ending Machine.after at hrun
  rw [hl, hr] at hrun
  have hended : o.ending ≠ .outOfRounds := by
    refine run_ne_outOfRounds shell s ?_ scripts
    rw [hmirror.quiet]
    exact hrounds
  -- what the two have come to once they ended alike
  have hagree : ∀ {place}, Together (Abreast spare m.forks True) s.line HasBytes place
      ⟨[] ++ o.events, o.state, o.world⟩ ⟨[] ++ o'.events, o'.state, o'.world⟩ →
      o'.ending = o.ending → Agree o o' := fun htogether hending => {
    ending := hending
    ended := hended
    output := htogether.inner.same.output
    deeds := htogether.inner.same.deeds
    cwd := htogether.cwd
    pwd := htogether.inner.mirror.cwd
    published := htogether.inner.environment trivial }
  rcases hrun with hexhausted | hboth
  · exact absurd hexhausted (Nat.not_lt.mpr hforks)
  · cases hend : o.ending <;> cases hend' : o'.ending <;> rw [hend, hend'] at hboth
    case returned.returned =>
      obtain ⟨rfl, place, htogether⟩ := hboth
      exact hagree htogether (hend'.trans hend.symm)
    case failed.failed =>
      obtain ⟨rfl, place, htogether⟩ := hboth
      exact hagree htogether (hend'.trans hend.symm)
    case outOfRounds.outOfRounds => exact absurd hend hended
    all_goals exact hboth.elim

/-- A world with a script that leaves the directory, and a command on standard input. -/
def errand : InMemory :=
  .create [("/bin/leave", [0x63, 0x64, 0x0A])] [] "/" "/bin" [0x6C, 0x73, 0x0A] [7] [] false false []

/-- Its host has standard input on a pipe, takes two bytes with a write, and its child ends with a
status. -/
def errandHost : OsWorld := errand.asHost true (some 2) [.status 7 0x100]

theorem mirror_errand : Mirror errand errandHost := by
  refine InMemory.mirror_asHost rfl (by decide) (by decide) rfl rfl (by decide) ?_
  intro e he
  obtain rfl := List.mem_singleton.mp he
  exact ⟨7, 0x100, rfl, rfl, by decide⟩

/-- The prompt takes several writes on the host, and the child is made and waited for on both. -/
theorem run_onHost_of_errand :
    let o := (Shell.default.run 8 ["leave"]).run InMemory.answer (.default "/") errand
    let o' := (Host.onHost 0 (Shell.default.run 8 ["leave"])).run OsWorld.answer (.default "/")
      errandHost
    Agree o o' ∧ View.system.deeds o'.events = [.forked 7, .awaited 7] := by
  intro o o'
  have hline : (Session.default "/").line.Sized := ⟨rfl, by decide⟩
  have hsuffix : HasBytes "$ " := rfl
  have hhome : HasBytes "/home" := rfl
  have hinput : errandHost.sources.lookup standardInput = some ⟨[0x6C, 0x73, 0x0A], 0⟩ := rfl
  have hdir : errand.dirs.contains errand.pwd = true := rfl
  have hpwd : HasBytes errand.pwd := rfl
  have hrounds : errand.longestSource < 8 := by decide
  have hforks : (forkReplies o.events).length ≤ errand.forks.length := by decide
  have hagree := run_onHost Shell.default rfl hsuffix rfl hhome rfl hline mirror_errand hinput rfl hdir
    hpwd hrounds 0 ["leave"] hforks
  refine ⟨hagree, ?_⟩
  rw [hagree.deeds]
  rfl

/-- A world in a directory whose name has no bytes. -/
def nameless : InMemory := .create [] [] [0xD800] "/bin" [] [] [] false false []

/-- In a directory whose name has no bytes the prompt cannot be written on a host, while in memory it
can: all that `run_onHost` asks for holds but that, and the two runs end differently. -/
theorem run_apart_of_nameless :
    let s : Session := .default nameless.pwd
    let h := nameless.asHost false none []
    let o := (Shell.default.run 8 []).run InMemory.answer s nameless
    let o' := (Host.onHost 0 (Shell.default.run 8 [])).run OsWorld.answer s h
    Shell.default.promptSuffix = .text "$ " ∧ HasBytes "$ " ∧ Shell.default.home = .text "/home" ∧
      HasBytes "/home" ∧ Shell.default.waitTimeout = .int 0 ∧ s.line.Sized ∧ Mirror nameless h ∧
      h.sources.lookup standardInput = some ⟨[], 0⟩ ∧ s.cwd = nameless.pwd ∧
      nameless.dirs.contains nameless.pwd = true ∧ nameless.longestSource < 8 ∧
      (forkReplies o.events).length ≤ nameless.forks.length ∧
      o.ending = .returned 0 ∧ o'.ending = .failed .unencodable := by
  intro s h o o'
  have hline : s.line.Sized := ⟨rfl, by decide⟩
  have hmirror : Mirror nameless h :=
    InMemory.mirror_asHost rfl (by decide) (by decide) rfl rfl nofun nofun
  exact ⟨rfl, rfl, rfl, rfl, rfl, hline, hmirror, rfl, rfl, rfl, by decide, by decide, rfl, rfl⟩

end Shell

end LineShell
