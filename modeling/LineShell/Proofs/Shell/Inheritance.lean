import LineShell.Proofs.Services.Host
import LineShell.Proofs.Services.Mirror
import LineShell.Proofs.Shell.Publication
import LineShell.Proofs.Shell.Start

/-!
# What children inherit

On a host the working directory is in three places: the shell has one, the process has one, and the
environment has a variable with one, which children inherit.  A directory is entered with a single call,
and the variable and the shell follow it.

The three are told by the last directory that was entered (`Host.environmentAfter`, `Inherited`): the
environment is the one of the start with that directory in it, the shell has that directory, and the
process is where that directory leads to.  As long as none was entered all three are those of the start.
The shell `Publishes` this on a host (`publishes`): the only call that changes the process is `chdir`
(`Inherited.entered`), storing the variable never fails (`answer_setVariable`), and what a program is
executed with is read off the environment just before (`maintains_exec`).

The main result is `Shell.run_inherited`.
-/

namespace LineShell

open Program

/-- The directories that were entered. -/
def directoriesEntered (events : List (Event OsCall.Reply)) : List Text :=
  events.filterMap fun
    | .called (.chdir path) (.ok _) => some path
    | _ => none

/-- The directory that was entered last, if any was. -/
def lastEntered (events : List (Event OsCall.Reply)) : Option Text :=
  (directoriesEntered events).getLast?

theorem directoriesEntered_append (events more : List (Event OsCall.Reply)) :
    directoriesEntered (events ++ more) = directoriesEntered events ++ directoriesEntered more :=
  List.filterMap_append

/-- The environment of a process that had one at its start, by what was seen of it since. -/
def Host.environmentAfter (start : Environment) (events : List (Event OsCall.Reply)) : Environment :=
  match lastEntered events with
  | none => start
  | some path => OsWorld.setVariable start Host.pwdVariable path

/-- Events in which something is not called. -/
def Without (name : OsCall.Name) (events : List (Event OsCall.Reply)) : Prop :=
  ∀ c outcome, .called c outcome ∈ events → c.name ≠ name

theorem without_logged (name : OsCall.Name) (entry : Log.Entry) : Without name [.logged entry] :=
  fun _ _ hmem => nomatch List.mem_singleton.mp hmem

/-- A call shows no other one, unless that is the sending of a signal. -/
theorem without_called {name : OsCall.Name} {c : OsCall} (hc : c.name ≠ name) (hname : name ≠ .kill)
    (w : OsWorld) :
    Without name (.called c (OsWorld.answer c w).outcome :: (OsWorld.answer c w).inner) := by
  intro d outcome hmem
  rcases List.mem_cons.mp hmem with hhead | hinner
  · obtain ⟨rfl, -⟩ := Event.called.inj hhead
    exact hc
  · rw [OsWorld.answer_inner_kill c w d outcome hinner]
    exact hname.symm

theorem directoriesEntered_of_without {events : List (Event OsCall.Reply)}
    (h : Without .chdir events) : directoriesEntered events = [] := by
  refine List.filterMap_eq_nil_iff.mpr fun e he => ?_
  cases e with
  | logged entry => rfl
  | called c outcome =>
      have hc := h c outcome he
      cases c with
      | chdir path => exact absurd rfl hc
      | _ => rfl

theorem lastEntered_append {events more : List (Event OsCall.Reply)}
    (h : directoriesEntered more = []) : lastEntered (events ++ more) = lastEntered events := by
  rw [lastEntered, directoriesEntered_append, h, List.append_nil, lastEntered]

theorem lastEntered_cons {events more : List (Event OsCall.Reply)} (path : Text)
    (h : directoriesEntered more = []) :
    lastEntered (events ++ .called (.chdir path) (.ok ()) :: more) = some path := by
  have hlast : directoriesEntered (.called (.chdir path) (.ok ()) :: more) = [path] :=
    congrArg (path :: ·) h
  rw [lastEntered, directoriesEntered_append, hlast, List.getLast?_concat]

namespace Host

variable {start : Environment} {events more : List (Event OsCall.Reply)}

theorem environmentAfter_append (h : directoriesEntered more = []) :
    environmentAfter start (events ++ more) = environmentAfter start events := by
  rw [environmentAfter, lastEntered_append h, environmentAfter]

end Host

/-! ## The three places -/

namespace OsWorld

/-- Storing a variable once more only keeps the last value. -/
theorem setVariable_setVariable (environment : Environment) (name value other : Text) :
    setVariable (setVariable environment name value) name other =
      setVariable environment name other := by
  induction environment with
  | nil => simp [setVariable]
  | cons entry rest ih =>
      obtain ⟨key, old⟩ := entry
      by_cases hkey : key = name
      · simp [setVariable, hkey]
      · simp [setVariable, hkey, ih]

/-- What only entering a directory and storing a variable can change, and what never changes. -/
def place (w : OsWorld) : Environment × Text × Bool × List (Text × Text) :=
  (w.environment, w.cwd, w.cwdGone, w.dirs)

/-- Storing a variable is no call to the operating system, so no fault is about it. -/
def Stores (w : OsWorld) : Prop := ∀ f ∈ w.faults, f.call ≠ .setVariable

theorem serve_place {c : OsCall} (hchdir : c.name ≠ .chdir) (hset : c.name ≠ .setVariable)
    (w : OsWorld) : (w.serve c).2.place = w.place := by
  cases c with
  | chdir path => exact absurd rfl hchdir
  | setVariable name value => exact absurd rfl hset
  | _ =>
      simp only [serve, seek, readBytes, takeStatus, setSource]
      repeat' split
      all_goals rfl

theorem answer_place {c : OsCall} (hchdir : c.name ≠ .chdir) (hset : c.name ≠ .setVariable)
    (w : OsWorld) : (answer c w).world.place = w.place := by
  refine answer_preserves (P := fun v => v.place = w.place) (fun _ _ h => h) (fun _ _ h => h) ?_ rfl
  rintro d v (hd | hd) hv
  · exact (serve_place (hd ▸ hchdir) (hd ▸ hset) v).trans hv
  · exact (serve_place (by rw [hd]; nofun) (by rw [hd]; nofun) v).trans hv

theorem Stores.answer {w : OsWorld} (h : w.Stores) (c : OsCall) : (answer c w).world.Stores := by
  refine answer_preserves (fun _ _ h => h) (fun v call hv f hf => ?_) (fun d v _ hv => ?_) h
  · obtain ⟨g, hg, hcall, -⟩ := Fault.exists_of_mem_advance hf
    rw [← hcall]
    exact hv g hg
  · unfold Stores
    rw [serve_faults]
    exact hv

/-- Entering a directory moves the process there, or it fails and changes nothing. -/
theorem answer_chdir (path : Text) (w : OsWorld) :
    (answer (.chdir path) w).world.environment = w.environment ∧
      (answer (.chdir path) w).world.dirs = w.dirs ∧
      (((answer (.chdir path) w).outcome = .ok () ∧
          w.dirs.lookup path = some (answer (.chdir path) w).world.cwd ∧
          (answer (.chdir path) w).world.cwdGone = false) ∨
        ∃ e, (answer (.chdir path) w).outcome = .error e ∧
          (answer (.chdir path) w).world.place = w.place) := by
  rcases answer_cases (c := .chdir path) nofun w with ⟨f, -, -, hanswer⟩ | hanswer <;> rw [hanswer]
  · exact ⟨rfl, rfl, .inr ⟨f.failure, rfl, rfl⟩⟩
  · simp only [serve, chdir]
    split
    · exact ⟨rfl, rfl, .inr ⟨_, rfl, rfl⟩⟩
    · split
      · exact ⟨rfl, rfl, .inr ⟨_, rfl, rfl⟩⟩
      · cases hentered : (w.ready (.chdir path)).dirs.lookup path with
        | none => exact ⟨rfl, rfl, .inr ⟨_, rfl, rfl⟩⟩
        | some entered => exact ⟨rfl, rfl, .inl ⟨rfl, hentered, rfl⟩⟩

theorem answer_setVariable {w : OsWorld} (h : w.Stores) (name value : Text) :
    answer (.setVariable name value) w =
      ⟨.ok (), { w with environment := setVariable w.environment name value }, []⟩ :=
  answer_of_unhit h nofun

end OsWorld

/-- Where the shell, the process and the environment have come to from where they started, by what was
seen on the way. -/
structure Inherited (s₀ : Session) (w₀ : OsWorld) (past : List (Event OsCall.Reply)) (s : Session)
    (w : OsWorld) : Prop where
  environment : w.environment = Host.environmentAfter w₀.environment past
  unmoved : lastEntered past = none → s.cwd = s₀.cwd ∧ w.cwd = w₀.cwd ∧ w.cwdGone = w₀.cwdGone
  moved : ∀ path, lastEntered past = some path →
    s.cwd = path ∧ w₀.dirs.lookup path = some w.cwd ∧ w.cwdGone = false
  /-- Every program was executed with the environment of its moment. -/
  executed : ∀ before path argv environment outcome after,
    past = before ++ .called (.execve path argv environment) outcome :: after →
      environment = Host.environmentAfter w₀.environment before

namespace Inherited

variable {s₀ s t : Session} {w₀ w v : OsWorld} {past more : List (Event OsCall.Reply)} {path : Text}

theorem start (s : Session) (w : OsWorld) : Inherited s w [] s w where
  environment := rfl
  unmoved _ := ⟨rfl, rfl, rfl⟩
  moved _ h := nomatch h
  executed before _ _ _ _ _ hsplit := by
    cases before <;> cases hsplit

/-- Where no program is executed the ones before were. -/
theorem executed_append (h : Inherited s₀ w₀ past s w) (hmore : Without .execve more) :
    ∀ before path argv environment outcome after,
      past ++ more = before ++ .called (.execve path argv environment) outcome :: after →
        environment = Host.environmentAfter w₀.environment before := by
  intro before path argv environment outcome after hsplit
  rcases List.append_eq_append_iff.mp hsplit with ⟨middle, -, hmiddle⟩ | ⟨middle, hpast, hmiddle⟩
  · have hmem : .called (.execve path argv environment) outcome ∈ more := by
      rw [hmiddle]
      exact List.mem_append_right _ List.mem_cons_self
    exact absurd rfl (hmore _ _ hmem)
  · cases middle with
    | nil =>
        have hmem : .called (.execve path argv environment) outcome ∈ more := by
          rw [List.nil_append] at hmiddle
          rw [← hmiddle]
          exact List.mem_cons_self
        exact absurd rfl (hmore _ _ hmem)
    | cons first rest =>
        rw [List.cons_append, List.cons.injEq] at hmiddle
        rw [← hmiddle.1] at hpast
        exact h.executed before path argv environment outcome rest hpast

/-- Events that enter no directory leave the three places as they are, as long as what was executed had
the environment of its moment. -/
theorem append (h : Inherited s₀ w₀ past s w) (hmore : directoriesEntered more = [])
    (hplace : v.place = w.place)
    (hexecuted : ∀ before path argv environment outcome after,
      past ++ more = before ++ .called (.execve path argv environment) outcome :: after →
        environment = Host.environmentAfter w₀.environment before) :
    Inherited s₀ w₀ (past ++ more) s v := by
  have henvironment : v.environment = w.environment := congrArg Prod.fst hplace
  have hcwd : v.cwd = w.cwd := congrArg (·.2.1) hplace
  have hgone : v.cwdGone = w.cwdGone := congrArg (·.2.2.1) hplace
  constructor
  · rw [henvironment, h.environment, Host.environmentAfter_append hmore]
  · rw [lastEntered_append hmore, hcwd, hgone]
    exact h.unmoved
  · rw [lastEntered_append hmore, hcwd, hgone]
    exact h.moved
  · exact hexecuted

/-- What neither enters a directory nor executes a program changes none of it. -/
theorem quiet (h : Inherited s₀ w₀ past s w) (hmore : directoriesEntered more = [])
    (hexecve : Without .execve more) (hplace : v.place = w.place) :
    Inherited s₀ w₀ (past ++ more) s v := h.append hmore hplace (h.executed_append hexecve)

/-- A program is executed with the environment there is. -/
theorem execute (h : Inherited s₀ w₀ past s w) (path : Text) (argv : List Text)
    (outcome : Except Failure Unit) (hplace : v.place = w.place) :
    Inherited s₀ w₀ (past ++ [.called (.execve path argv w.environment) outcome]) s v := by
  refine h.append rfl hplace ?_
  intro before path' argv' environment outcome' after hsplit
  rcases concat_eq_append_cons hsplit with ⟨-, rfl, heq⟩ | ⟨rest, -, hpast⟩
  · cases heq
    exact h.environment
  · exact h.executed before path' argv' environment outcome' rest hpast

/-- A directory was entered, stored and taken over. -/
theorem entered (h : Inherited s₀ w₀ past s w) (hdirs : w.dirs = w₀.dirs)
    (hpath : w.dirs.lookup path = some v.cwd) (hgone : v.cwdGone = false)
    (henvironment : v.environment = OsWorld.setVariable w.environment Host.pwdVariable path)
    (hmore : directoriesEntered more = []) (hexecve : Without .execve more) :
    Inherited s₀ w₀ (past ++ .called (.chdir path) (.ok ()) :: more) (s.moved path) v := by
  have hlast : lastEntered (past ++ .called (.chdir path) (.ok ()) :: more) = some path :=
    lastEntered_cons path hmore
  constructor
  · rw [henvironment, h.environment]
    unfold Host.environmentAfter
    rw [hlast]
    cases lastEntered past with
    | none => rfl
    | some before => exact OsWorld.setVariable_setVariable _ _ _ _
  · intro hnone
    rw [hlast] at hnone
    cases hnone
  · intro other hother
    rw [hlast] at hother
    cases hother
    rw [← hdirs]
    exact ⟨rfl, hpath, hgone⟩
  · refine h.executed_append fun c outcome hmem => ?_
    rcases List.mem_cons.mp hmem with hhead | hmem
    · cases hhead
      exact nofun
    · exact hexecve c outcome hmem

end Inherited

/-! ## Carrying out the calls of the shell -/

/-- The directory was entered, and storing it is what is done next. -/
def Point.StoresPwd {σ α : Type} (x : Point σ OsWorld OsCall.Reply α) : Prop :=
  ∃ path next, x.rest = .call (.setVariable Host.pwdVariable path) next

/-- A directory that was entered is not stored yet. -/
def Exception.storing : Exception Session OsWorld OsCall.Reply where
  holds _ x := x.StoresPwd
  bind := by
    intro α β past x f ⟨path, next, h⟩
    exact ⟨path, fun reply => (next reply).bind f, by rw [Point.bind, h]; rfl⟩
  attempt := by
    intro α past x ⟨path, next, h⟩
    exact ⟨path, fun reply => (next reply).attempt, by rw [Point.attempt, h]; rfl⟩
  unfinished h := nomatch h

/-- Where a run has come to from where it started, and what is not going to change. -/
def InPlace (s₀ : Session) (w₀ : OsWorld) : Assertion Session OsWorld OsCall.Reply :=
  fun past s w => Inherited s₀ w₀ past s w ∧ w.dirs = w₀.dirs ∧ w.Stores

section Host

open OsWorld (answer)

variable {s₀ : Session} {w₀ : OsWorld} {spare : Nat} {E : Exception Session OsWorld OsCall.Reply}
  {past : List (Event OsCall.Reply)} {s : Session} {w : OsWorld}

theorem InPlace.quiet {c : OsCall} (hchdir : c.name ≠ .chdir) (hset : c.name ≠ .setVariable)
    (hexecve : c.name ≠ .execve) (h : InPlace s₀ w₀ past s w) :
    InPlace s₀ w₀ (past ++ .called c (answer c w).outcome :: (answer c w).inner) s
      (answer c w).world := by
  have hplace := OsWorld.answer_place hchdir hset w
  have hdirs : (answer c w).world.dirs = w.dirs := congrArg (·.2.2.2) hplace
  have hnone := directoriesEntered_of_without (without_called hchdir nofun w)
  refine ⟨h.1.quiet hnone (without_called hexecve nofun w) hplace, ?_, ?_⟩
  · exact hdirs.trans h.2.1
  · exact h.2.2.answer c

theorem InPlace.logged (h : InPlace s₀ w₀ past s w) (entry : Log.Entry) :
    InPlace s₀ w₀ (past ++ [.logged entry]) s w :=
  ⟨h.1.quiet rfl (without_logged _ entry) rfl, h.2⟩

/-- What calls nothing that matters changes none of it. -/
theorem maintains_quiet {α : Type} {p : Program Session OsCall.Reply α} {names : List OsCall.Name}
    {stops : Bool} (hp : p.Footprint (Host.scope names stops))
    (hnames : ∀ name ∈ names, name ≠ .chdir ∧ name ≠ .setVariable ∧ name ≠ .execve) :
    Maintains answer E (InPlace s₀ w₀) p := by
  refine Maintains.of_footprint hp (fun c hc past s w h => ?_) (fun _ _ _ _ hst => hst.elim)
    fun entry _ past s w h => h.logged entry
  obtain ⟨hchdir, hset, hexecve⟩ := hnames c.name (List.contains_iff_mem.mp hc)
  exact h.quiet hchdir hset hexecve

/-- The environment that is read off is the one a program is executed with. -/
theorem maintains_exec (path : Text) (argv : List Text) :
    Maintains answer E (InPlace s₀ w₀) (Host.exec path argv) := by
  intro past s w h
  have hread : Maintains answer E (InPlace s₀ w₀) (OsCall.ask .environment) :=
    Maintains.request fun _ _ _ h => h.quiet nofun nofun nofun
  refine (hread past s w h).bind fun environment before t v hdone => ?_
  have hv := (hread past s w h).returned hdone
  obtain ⟨houtcome, -, -, hworld⟩ := hdone.request_returned
  have henvironment : environment = v.environment := by
    have hserved := OsWorld.serve_of_answer_ok (c := .environment) nofun houtcome
    have hplace := OsWorld.answer_place (c := .environment) nofun nofun w
    rw [hworld, show (answer .environment w).world.environment = w.environment from
      congrArg Prod.fst hplace]
    exact (Except.ok.inj hserved).symm
  -- reading the environment changes nothing, so it is still the one of the moment
  have hexecute : ∀ {past s} {v : OsWorld}, environment = v.environment → InPlace s₀ w₀ past s v →
      Along answer E (InPlace s₀ w₀) past (OsCall.ask (.execve path argv environment)) s v := by
    rintro past s v rfl hv
    have hplace := OsWorld.answer_place (c := .execve path argv v.environment) nofun nofun v
    refine Along.of_next (x := ⟨OsCall.ask (.execve path argv v.environment), s, v⟩) (.inl hv) rfl
      (Maintains.ofExcept _ _ s _ ⟨?_, ?_, hv.2.2.answer _⟩)
    · have hinner : (answer (.execve path argv v.environment) v).inner = [] :=
        OsWorld.answer_inner_of_ne (by exact nofun) v
      simp only [Point.shown, OsCall.ask, request, hinner]
      exact hv.1.execute path argv _ hplace
    · exact (congrArg (·.2.2.2) hplace : _ = v.dirs).trans hv.2.1
  refine (hexecute henvironment hv).attempt.bind_maintains fun outcome => ?_
  have hreport : ∀ message, Maintains answer E (InPlace s₀ w₀) (Host.reportExec path message) :=
    fun message => maintains_quiet (@Host.footprint_reportExec _ [.getpid] path message rfl) (by decide)
  rcases outcome with e | ⟨⟩
  · cases e with
    | os errno text => exact hreport _
    | badValue text => exact hreport _
    | _ => exact Maintains.fail _
  · exact Maintains.done _

/-- Handing over a directory enters it and stores it, or it fails and changes nothing. -/
theorem setPwd_cases {path : Text} {later : List (Event OsCall.Reply)}
    {x : Point Session OsWorld OsCall.Reply Unit} (h : InPlace s₀ w₀ past s w)
    (hx : Passes answer ⟨Host.setPwd path, s, w⟩ later x) :
    x.StoresPwd ∨ (x.rest = .done () ∧ InPlace s₀ w₀ (past ++ later) (s.moved path) x.world) ∨
      ((∀ a, x.rest ≠ .done a) ∧ InPlace s₀ w₀ (past ++ later) s x.world) := by
  obtain ⟨hinherited, hsame, hstores⟩ := h
  have hentered := OsWorld.answer_chdir path w
  have hinner : (answer (.chdir path) w).inner = [] :=
    OsWorld.answer_inner_of_ne (c := .chdir path) nofun w
  have hstill : (answer (.chdir path) w).world.Stores := hstores.answer _
  rcases hx.attempt_request_cases with ⟨rfl, rfl⟩ | ⟨more, rfl, hpass⟩
  · rw [List.append_nil]
    exact .inr (.inr ⟨nofun, hinherited, hsame, hstores⟩)
  rw [hinner]
  generalize answer (.chdir path) w = entering at hentered hstill hpass ⊢
  obtain ⟨outcome, v, inner⟩ := entering
  obtain ⟨henvironment, hdirs, ⟨rfl, hpath, hgone⟩ | ⟨e, rfl, hplace⟩⟩ := hentered
  · -- the directory was entered, and what is left is to store it
    rcases hpass.request_cases with ⟨rfl, rfl⟩ | ⟨rfl, rfl⟩
    · exact .inl ⟨path, _, rfl⟩
    · right
      left
      rw [OsWorld.answer_setVariable hstill]
      refine ⟨rfl, hinherited.entered hsame hpath hgone (by rw [← henvironment]) rfl ?_,
        hdirs.trans hsame, hstill⟩
      intro c outcome hmem
      cases List.mem_singleton.mp hmem
      exact nofun
  · right
    right
    have hkept : InPlace s₀ w₀ (past ++ [.called (.chdir path) (.error e)]) s v := by
      refine ⟨hinherited.quiet rfl (fun c outcome hmem => ?_) hplace, hdirs.trans hsame, hstill⟩
      cases List.mem_singleton.mp hmem
      exact nofun
    cases e <;> obtain ⟨rfl, rfl⟩ := hpass.eq_of_end rfl <;> exact ⟨nofun, hkept⟩

/-- Only two services call anything that matters. -/
theorem callsOf_quiet {service : ServiceCall.Name} (hset : service ≠ .setPwd)
    (hexec : service ≠ .exec) :
    ∀ name ∈ Host.callsOf service, name ≠ .chdir ∧ name ≠ .setVariable ∧ name ≠ .execve := by
  revert hset hexec
  cases service <;> decide

/-- A host keeps the three places together. -/
theorem publishes :
    Publishes answer (Host.carryOut spare) Exception.storing (InPlace s₀ w₀) where
  other c hc := by
    have hcarryOut : (Host.carryOut spare c : Program Session OsCall.Reply c.Reply).Footprint
        (Host.scope (Host.callsOf c.name) (Host.loops c.name)) := Host.footprint_carryOut spare c
    by_cases hexec : c.name = .exec
    · cases c with
      | exec path argv => exact maintains_exec path argv
      | _ => cases hexec
    · exact maintains_quiet hcarryOut (callsOf_quiet hc hexec)
  steady c _ s _ _ hx := hx.state_eq (fun _ _ h => h) (Host.footprint_carryOut spare c s)
  changed _ _ _ _ hcwd h := by
    refine ⟨⟨h.1.environment, ?_, ?_, h.1.executed⟩, h.2⟩
    · rw [hcwd]
      exact h.1.unmoved
    · rw [hcwd]
      exact h.1.moved
  logged _ _ _ entry h := h.logged entry
  sets _ _ _ _ h _ _ hx := setPwd_cases h hx

/-- Handing over a directory that fails leaves everything where it is. -/
theorem run_setPwd_failed {path : Text} {e : Failure} (hstores : w.Stores)
    (h : ((Host.setPwd path).run answer s w).ending = .failed e) :
    ((Host.setPwd path).run answer s w).state = s ∧
      ((Host.setPwd path).run answer s w).world.place = w.place := by
  revert h
  have hentered := OsWorld.answer_chdir path w
  have hstill : (answer (.chdir path) w).world.Stores := hstores.answer _
  unfold Host.setPwd
  rw [bind_eq_bind, run_bind, run_attempt, OsCall.ask, run_request]
  generalize answer (.chdir path) w = entering at hentered hstill
  obtain ⟨outcome, v, inner⟩ := entering
  obtain ⟨-, -, ⟨rfl, -, -⟩ | ⟨e, rfl, hplace⟩⟩ := hentered
  · -- a directory that was entered is stored, and that does not fail
    intro h
    simp only [Outcome.andThen, endingOf, Ending.attempt, OsCall.ask, run_request,
      OsWorld.answer_setVariable hstill] at h
    cases h
  · intro _
    cases e <;> exact ⟨rfl, hplace⟩

end Host

/-- At a point of a run from `s₀` and `w₀` the three places are together.  Only while a directory is
handed over they are not: when it was entered and is about to be stored, and when it was stored and the
shell is about to take it over. -/
def Point.Inherits {α : Type} (s₀ : Session) (w₀ : OsWorld) (past : List (Event OsCall.Reply))
    (x : Point Session OsWorld OsCall.Reply α) : Prop :=
  Inherited s₀ w₀ past x.state x.world ∨ x.StoresPwd ∨
    ∃ path, x.Assigns (Session.moved path) ∧ Inherited s₀ w₀ past (x.state.moved path) x.world

namespace Shell

open OsWorld (answer)

/-- On every host the environment is the one of the start with the last directory that was entered in
it, the shell has that directory, and the process is where it leads to: whenever anything is called but
the storing of a directory, at the end, and at every point in between that is not part of handing over a
directory.  Programs are executed with this environment.  Handing over a directory that fails changes
nothing. -/
theorem run_inherited (shell : Shell) (spare rounds : Nat) (scripts : List Text) (s : Session)
    {w : OsWorld} (hstores : w.Stores) :
    let p := Host.onHost spare (shell.run rounds scripts)
    let o := p.run answer s w
    (∀ past c next t v, Passes answer ⟨p, s, w⟩ past ⟨.call c next, t, v⟩ →
        c.name ≠ .setVariable → Inherited s w past t v) ∧
      Inherited s w o.events o.state o.world ∧
      (∀ past x, Passes answer ⟨p, s, w⟩ past x → x.Inherits s w past) ∧
      ∀ (path : Text) (t : Session) (v : OsWorld) (e : Failure), v.Stores →
        let refused := (Host.carryOut spare (.setPwd path)).run answer t v
        refused.ending = .failed e → refused.state = t ∧
          refused.world.environment = v.environment ∧ refused.world.cwd = v.cwd ∧
          refused.world.cwdGone = v.cwdGone := by
  intro p o
  have hrun : Along answer (.handingOver .storing (InPlace s w)) (InPlace s w) [] p s w :=
    publishes.run shell rounds scripts [] s w ⟨Inherited.start s w, rfl, hstores⟩
  have hpoints : ∀ past x, Passes answer ⟨p, s, w⟩ past x → x.Inherits s w past := by
    intro past x hx
    rcases hrun past x hx with hkept | hstoring | ⟨path, hassigns, hkept⟩
    · exact .inl hkept.1
    · exact .inr (.inl hstoring)
    · exact .inr (.inr ⟨path, hassigns, hkept.1⟩)
  refine ⟨?_, ?_, hpoints, ?_⟩
  · intro past c next t v hx hc
    rcases hpoints past _ hx with hkept | ⟨path, next, hcall⟩ | ⟨path, hassigns, -⟩
    · exact hkept
    · cases hcall
      exact absurd rfl hc
    · exact absurd rfl (hassigns.rest_ne_call c next)
  · rcases hpoints _ _ (passes_run answer p s w) with hkept | ⟨path, next, hcall⟩ | ⟨path, hassigns, -⟩
    · exact hkept
    -- at the end nothing is done any more
    · revert hcall
      cases (p.run answer s w).ending <;> exact nofun
    · revert hassigns
      cases (p.run answer s w).ending <;> exact nofun
  · intro path t v e hv refused hfailed
    obtain ⟨hstate, hplace⟩ := run_setPwd_failed hv hfailed
    exact ⟨hstate, congrArg Prod.fst hplace, congrArg (·.2.1) hplace, congrArg (·.2.2.1) hplace⟩

/-- A host that refuses the directory of the start, and where another one leads somewhere else. -/
def linkedHost : OsWorld :=
  { (InMemory.create [] [] "/start" "/bin" [0x63, 0x64, 0x20, 0x2F, 0x6C, 0x0A, 0x6C, 0x73, 0x0A] [0]
      [] false false []).asHost false none [] with
    dirs := [("/start", "/start"), ("/l", "/real")]
    environment := [("PWD", "/before"), ("PATH", "/bin")]
    faults := [⟨.chdir, 1, .os (some 13) "Permission denied"⟩] }

/-- The start is not published, the directory `/l` is, and the child is given it, though the process is
somewhere else. -/
theorem run_inherited_of_link :
    let p := Host.onHost 4 (Shell.default.run 8 [])
    let o := p.run answer (.default "/start") linkedHost
    lastEntered o.events = some "/l" ∧ o.world.cwd = "/real" ∧
      o.events.filterMap (fun
        | .called (.execve _ _ environment) _ => some environment
        | _ => none) = ([[("PWD", "/l"), ("PATH", "/bin")]] : List Environment) ∧
      Inherited (.default "/start") linkedHost o.events o.state o.world ∧
      ∀ past x, Passes answer ⟨p, .default "/start", linkedHost⟩ past x →
        x.Inherits (.default "/start") linkedHost past := by
  intro p o
  have hstores : linkedHost.Stores := by
    intro f hf
    rw [List.mem_singleton.mp hf]
    exact nofun
  obtain ⟨-, hend, hpoints, -⟩ := run_inherited Shell.default 4 8 [] (.default "/start") hstores
  exact ⟨rfl, rfl, rfl, hend, hpoints⟩

end Shell

end LineShell
