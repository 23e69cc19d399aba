import LineShell.Proofs.Shell.Completion
import LineShell.Proofs.Shell.Lookup
import LineShell.Proofs.Shell.Seen
import LineShell.Proofs.Shell.Start
import LineShell.Proofs.Shell.WorkingDirectory

/-!
# Scripts and commands of one name

A script is looked up from the working directory of the shell, a command from that of the services.
Where the two are the same the path that a script is opened by is the one that a command of the same
name is executed by (`LookupsAgree`), and they are the same at each point of all that a shell is ever
asked to do.

`Lived` gathers the states a shell comes to, operation by operation, however each of them ends.  The
main result is `lived_inStep`.
-/

namespace LineShell

open Program LineShell.Action

/-- The path of a name in a world. -/
def InMemory.pathOf (w : InMemory) (name : Text) : Text :=
  Lookup.pathWhere (fun path => (w.files.lookup path).isSome) name w.pwd w.path

/-- The services that a lookup asks. -/
def lookupServices : List ServiceCall.Name := [.getPwd, .getPath, .fileExists]

/-- No fault is to hit a lookup. -/
def InMemory.LooksUp (w : InMemory) : Prop := ∀ f ∈ w.faults, f.call ∉ lookupServices

/-- A script and a command of one name come to the same path: only that is opened and only that is
executed, and unless a fault hits the lookup it is. -/
structure LookupsAgree (shell : Shell) (name : Text) (s : Session) (w : InMemory) : Prop where
  script : ∀ rounds, ∀ path ∈ openings ((shell.runScript rounds name).run InMemory.answer s w).events,
    path = w.pathOf name
  command : ∀ arguments, ∀ path ∈
    execs ((Child.replaceProgram (name :: arguments) .search).run InMemory.answer s w).events,
      path = w.pathOf name
  resolved : ∀ path, ((Child.resolveProgram name .search).run InMemory.answer s w).ending =
    .returned path → path = w.pathOf name
  found : w.LooksUp →
    ((Child.resolveProgram name .search).run InMemory.answer s w).ending = .returned (w.pathOf name) ∧
    ∀ rounds, openings ((shell.runScript rounds name).run InMemory.answer s w).events =
      [w.pathOf name]

/-! ## Looking up -/

/-- What holds while a name is looked up in a world. -/
structure Looking (start : InMemory) (past : List (Event ServiceCall.Reply)) (s : Session)
    (w : InMemory) : Prop where
  files : w.files = start.files
  searchPath : w.path = start.path
  pwd : w.pwd = start.pwd
  cwd : s.cwd = start.pwd
  faults : start.LooksUp → w.LooksUp
  opened : openings past = []
  executed : execs past = []

/-- The lookup was cut short by a fault. -/
def CutShort (start : InMemory) (past : List (Event ServiceCall.Reply)) (_ : Session)
    (_ : InMemory) : Prop :=
  ¬start.LooksUp ∧ openings past = [] ∧ execs past = []

variable {start : InMemory}

theorem InMemory.looksUp_ready {w : InMemory} (h : w.LooksUp) (call : ServiceCall.Name) :
    (w.ready call).LooksUp := by
  intro f hf
  obtain ⟨g, hg, hmap⟩ := List.mem_filterMap.mp hf
  have hcall : f.call = g.call := by
    split at hmap
    · split at hmap
      · cases hmap
      · cases hmap
        rfl
    · cases hmap
      rfl
  rw [hcall]
  exact h g hg

theorem InMemory.hit?_of_looksUp {w : InMemory} (h : w.LooksUp) {call : ServiceCall.Name}
    (hcall : call ∈ lookupServices) : Fault.hit? w.faults call = none := by
  rw [Fault.hit?, Option.map_eq_none_iff, List.find?_eq_none]
  intro f hf hhit
  rw [Bool.and_eq_true, decide_eq_true_eq] at hhit
  exact h f hf (hhit.1 ▸ hcall)

/-- A call that a lookup makes changes nothing that the lookup depends on. -/
theorem Looking.called {past : List (Event ServiceCall.Reply)} {s : Session} {w v : InMemory}
    {c : ServiceCall} {outcome : Except Failure c.Reply} (hopen : c.name ≠ .openReadOnly)
    (hexec : c.name ≠ .exec) (hv : v = w.ready c.name) (h : Looking start past s w) :
    Looking start (past ++ [.called c outcome]) s v := by
  subst hv
  refine ⟨h.files, h.searchPath, h.pwd, h.cwd, fun hfaults =>
    InMemory.looksUp_ready (h.faults hfaults) c.name, ?_, ?_⟩
  · rw [openings_append, h.opened, openings_of_name_ne hopen]
    rfl
  · rw [execs_append, h.executed, execs_of_name_ne hexec]
    rfl

/-- What a lookup asks is answered from the world it started in, or by a fault. -/
theorem ensures_lookup {c : ServiceCall} {reply : c.Reply} (hc : lookupServices.contains c.name)
    (hserve : ∀ v : InMemory, v.files = start.files → v.path = start.path → v.pwd = start.pwd →
      v.serve c = (.ok reply, v)) :
    Ensures InMemory.answer (Looking start) (ask c)
      (fun found past s w => found = reply ∧ Looking start past s w) (fun _ => CutShort start)
      Never := by
  have hname : c.name ≠ .openReadOnly ∧ c.name ≠ .exec :=
    ⟨Shell.name_ne_of_mem hc rfl, Shell.name_ne_of_mem hc rfl⟩
  refine Ensures.request_alone (InMemory.answer_inner _) (fun past s w found h hfound => ?_)
    fun past s w e h he => ?_
  · cases hhit : Fault.hit? w.faults c.name with
    | some e =>
        rw [InMemory.answer_hit hhit] at hfound
        cases hfound
    | none =>
        have hreply := hserve (w.ready c.name) h.files h.searchPath h.pwd
        rw [InMemory.answer_miss hhit, hreply] at hfound ⊢
        cases hfound
        exact ⟨rfl, h.called hname.1 hname.2 rfl⟩
  · cases hhit : Fault.hit? w.faults c.name with
    | some e' =>
        -- a fault hit one of the services that a lookup asks
        have hlooks : ¬start.LooksUp := fun hlooks => by
          rw [InMemory.hit?_of_looksUp (h.faults hlooks) (List.contains_iff_mem.mp hc)] at hhit
          cases hhit
        have hcalled : Looking start (past ++ [.called c (.error e)]) s (w.ready c.name) :=
          h.called hname.1 hname.2 rfl
        exact ⟨hlooks, hcalled.opened, hcalled.executed⟩
    | none =>
        have hreply := hserve (w.ready c.name) h.files h.searchPath h.pwd
        rw [InMemory.answer_miss hhit, hreply] at he
        cases he

theorem ensures_isFile (path : Text) :
    Ensures InMemory.answer (Looking start) (Child.isFile path)
      (fun found past s w => found = (start.files.lookup path).isSome ∧ Looking start past s w)
      (fun _ => CutShort start) Never :=
  ensures_lookup (c := .fileExists path) rfl fun v hfiles _ _ => by
    simp only [InMemory.serve, hfiles]

theorem ensures_getPath :
    Ensures InMemory.answer (Looking start) (ask .getPath)
      (fun path past s w => path = start.path ∧ Looking start past s w) (fun _ => CutShort start)
      Never :=
  ensures_lookup (c := .getPath) rfl fun v _ hpath _ => by simp only [InMemory.serve, hpath]

theorem ensures_getPwd :
    Ensures InMemory.answer (Looking start) (ask .getPwd)
      (fun pwd past s w => pwd = start.pwd ∧ Looking start past s w) (fun _ => CutShort start)
      Never :=
  ensures_lookup (c := .getPwd) rfl fun v _ _ hpwd => by simp only [InMemory.serve, hpwd]

/-- A command comes to the path of its name. -/
theorem ensures_resolveProgram (name : Text) :
    Ensures InMemory.answer (Looking start) (Child.resolveProgram name .search)
      (fun path past s w => path = start.pathOf name ∧ Looking start past s w)
      (fun _ => CutShort start) Never := by
  refine Ensures.bind ensures_getPwd fun pwd => Ensures.and_pre fun hpwd => ?_
  refine Ensures.bind ensures_getPath fun path => Ensures.and_pre fun hpath => ?_
  rw [hpwd, hpath]
  exact Lookup.ensures_resolve ensures_isFile name start.pwd start.path

/-! ## What is done with the path -/

/-- What opens nothing adds no opening. -/
theorem ensures_openings {α : Type} {p : Action α} {names : List ServiceCall.Name}
    {parts : List Session.Part} {stops : Bool} (hp : p.Footprint (Shell.scope names parts stops))
    (hnames : names.contains .openReadOnly = false) (paths : List Text) :
    Ensures InMemory.answer (fun past _ _ => openings past = paths) p
      (fun _ past _ _ => openings past = paths) (fun _ past _ _ => openings past = paths)
      fun past _ _ => openings past = paths := by
  refine hp.ensures (fun c hc past s w h => ?_) (fun _ _ _ _ _ h => h) (fun entry _ past s w h => ?_)
    fun _ _ _ _ h => h
  · rw [InMemory.answer_inner, openings_append,
      openings_of_name_ne (Shell.name_ne_of_mem hc hnames), List.append_nil]
    exact h
  · rw [openings_append]
    exact (List.append_nil _).trans h

/-- A script is opened by the path of its name, once, unless its lookup is cut short. -/
theorem ensures_runScript (shell : Shell) (rounds : Nat) (name : Text) :
    Ensures InMemory.answer (Looking start) (shell.runScript rounds name)
      (fun _ past _ _ => openings past = [start.pathOf name])
      (fun _ past s w => openings past = [start.pathOf name] ∨ CutShort start past s w)
      fun past _ _ => openings past = [start.pathOf name] := by
  have hkept : ∀ {α : Type} {p : Action α} {names : List ServiceCall.Name}
      {parts : List Session.Part} {stops : Bool}, p.Footprint (Shell.scope names parts stops) →
      names.contains .openReadOnly = false →
      Ensures InMemory.answer (fun past _ _ => openings past = [start.pathOf name]) p
        (fun _ past _ _ => openings past = [start.pathOf name])
        (fun _ past s w => openings past = [start.pathOf name] ∨ CutShort start past s w)
        fun past _ _ => openings past = [start.pathOf name] := fun hp hnames =>
    (ensures_openings hp hnames _).mono_fails fun _ _ _ _ h => .inl h
  refine Ensures.state_bind fun s => ?_
  rintro past t w ⟨rfl, hlooking⟩
  have hcwd := hlooking.cwd
  refine Ensures.bind (ensures_getPath.part fun _ _ _ _ h => .inr h) (fun searchPath => ?_) past t w
    hlooking
  refine Ensures.and_pre fun hsearchPath => ?_
  rw [hsearchPath, hcwd]
  refine Ensures.bind ((Lookup.ensures_resolve ensures_isFile name start.pwd start.path).part
    fun _ _ _ _ h => .inr h) fun path => Ensures.and_pre fun hpath => ?_
  -- the path that is asked for is the one the lookup came to, and it is asked for once
  have hopen : Ensures InMemory.answer (Looking start) (ask (.openReadOnly path))
      (fun _ past _ _ => openings past = [start.pathOf name])
      (fun _ past _ _ => openings past = [start.pathOf name])
      fun past _ _ => openings past = [start.pathOf name] := by
    have hopened : ∀ {past s w} {outcome : Except Failure Int}, Looking start past s w →
        openings (past ++ [.called (.openReadOnly path) outcome]) = [start.pathOf name] := by
      intro past s w outcome h
      rw [openings_append, h.opened, hpath]
      rfl
    exact Ensures.request_alone (InMemory.answer_inner _) (fun _ _ _ _ h _ => hopened h)
      fun _ _ _ _ h _ => hopened h
  refine Ensures.bind (m := fun _ past _ _ => openings past = [start.pathOf name]) ?_ fun opened => ?_
  · refine Ensures.bind hopen.attempt fun outcome => ?_
    cases outcome with
    | ok fd => exact Ensures.done fun _ _ _ h => h
    | error e =>
        dsimp only
        cases e.reportOf? .fileNotFound with
        | none => exact Ensures.fail fun _ _ _ h => .inl h
        | some report =>
            exact Ensures.bind (hkept (@footprint_say [] [] false _ _ _) rfl) fun _ =>
              Ensures.done fun _ _ _ h => h
  · cases opened with
    | none => exact Ensures.done fun _ _ _ h => h
    | some fd =>
        refine Ensures.bind (hkept (@footprint_say [] [] false _ _ _) rfl) fun _ => ?_
        have hclose := @footprint_ask [.close] [] false (.close fd) rfl
        refine Ensures.andFinally
          (ensures_openings (shell.footprint_runSource rounds fd false) rfl [start.pathOf name])
          (fun goOn => hkept hclose rfl) fun e => ?_
        exact (ensures_openings hclose rfl _).mono (fun _ _ _ h => h) (fun _ _ _ _ h => .inl h)
          (fun _ _ _ _ h => .inl h) fun _ _ _ h => h

/-- Nothing but one path was executed. -/
def OnlyExecs (path : Text) (past : List (Event ServiceCall.Reply)) : Prop :=
  ∀ other ∈ execs past, other = path

theorem onlyExecs_of_nil {path : Text} {past : List (Event ServiceCall.Reply)} (h : execs past = []) :
    OnlyExecs path past := by
  rw [OnlyExecs, h]
  exact nofun

theorem OnlyExecs.concat {path : Text} {past : List (Event ServiceCall.Reply)}
    {e : Event ServiceCall.Reply} (h : OnlyExecs path past) (he : OnlyExecs path [e]) :
    OnlyExecs path (past ++ [e]) := by
  intro other hother
  rw [execs_append] at hother
  exact (List.mem_append.mp hother).elim (h other) (he other)

theorem ensures_childSay {path : Text} {level : Log.Level} {message : Text} {pid : Option Int}
    {context : Fields} :
    Ensures InMemory.answer (fun past _ _ => OnlyExecs path past)
      (Child.say level message pid context) (fun _ past _ _ => OnlyExecs path past)
      (fun _ past _ _ => OnlyExecs path past) Never :=
  Ensures.log fun _ _ _ h => h.concat (onlyExecs_of_nil rfl)

/-- A command is executed by the path of its name, if at all. -/
theorem ensures_replaceProgram (name : Text) (arguments : List Text) :
    Ensures InMemory.answer (Looking start) (Child.replaceProgram (name :: arguments) .search)
      (fun _ => Never) (fun _ past _ _ => OnlyExecs (start.pathOf name) past) Never := by
  have hgetPid : Ensures InMemory.answer (Looking start) (ask .getPid) (fun _ => Looking start)
      (fun _ past _ _ => OnlyExecs (start.pathOf name) past) Never := by
    refine Ensures.request_alone (InMemory.answer_inner _) (fun past s w pid h _ => ?_)
      fun past s w e h _ => ?_
    · have hworld : (InMemory.answer .getPid w).world = w.ready .getPid := by
        rcases InMemory.answer_cases .getPid w with ⟨e, hc⟩ | hc <;> rw [hc] <;> rfl
      exact h.called nofun nofun hworld
    · exact (onlyExecs_of_nil h.executed).concat (onlyExecs_of_nil rfl)
  refine Ensures.bind hgetPid fun pid => ?_
  refine Ensures.bind (m := fun path past _ _ => path = start.pathOf name ∧ OnlyExecs path past)
    ((ensures_resolveProgram name).mono (fun _ _ _ h => h)
      (fun _ _ _ _ h => ⟨h.1, onlyExecs_of_nil h.2.executed⟩)
      (fun _ _ _ _ h => onlyExecs_of_nil h.2.2) fun _ _ _ h => h)
    fun path => Ensures.and_pre fun hpath => ?_
  rw [← hpath]
  -- the program that is tried is the one the lookup came to
  have hexecuted : ∀ outcome, OnlyExecs path [.called (.exec path (name :: arguments)) outcome] :=
    fun outcome other hother => List.mem_singleton.mp hother
  have hexec : Ensures InMemory.answer (fun past _ _ => OnlyExecs path past)
      (ask (.exec path (name :: arguments))) (fun _ past _ _ => OnlyExecs path past)
      (fun _ past _ _ => OnlyExecs path past) Never :=
    Ensures.request_alone (InMemory.answer_inner _) (fun _ _ _ _ h _ => h.concat (hexecuted _))
      fun _ _ _ _ h _ => h.concat (hexecuted _)
  refine Ensures.bind ensures_childSay fun _ => ?_
  refine Ensures.bind (m := fun _ past _ _ => OnlyExecs path past) (hexec.orElse fun e => ?_)
    fun _ => Ensures.fail fun _ _ _ h => h
  cases e.reportOf? .execFailed with
  | none => exact Ensures.fail fun _ _ _ h => h
  | some report => exact Ensures.bind ensures_childSay fun _ => Ensures.fail fun _ _ _ h => h

/-- From where the two working directories are the same, scripts and commands come to the same paths. -/
theorem lookupsAgree (shell : Shell) (name : Text) {s : Session} {w : InMemory}
    (h : s.cwd = w.pwd) : LookupsAgree shell name s w := by
  have hlooking : Looking w [] s w := ⟨rfl, rfl, rfl, h, fun hlooks => hlooks, rfl, rfl⟩
  have hscript : ∀ rounds, openings ((shell.runScript rounds name).run InMemory.answer s w).events =
        [w.pathOf name] ∨
      ¬w.LooksUp ∧ openings ((shell.runScript rounds name).run InMemory.answer s w).events = [] := by
    intro rounds
    refine Ensures.always (A := fun past _ _ => openings past = [w.pathOf name] ∨
      ¬w.LooksUp ∧ openings past = []) (ensures_runScript shell rounds name) ?_ ?_ ?_ hlooking
    · exact fun _ _ _ _ h => .inl h
    · exact fun _ _ _ _ h => h.imp_right fun hcut => ⟨hcut.1, hcut.2.1⟩
    · exact fun _ _ _ h => .inl h
  have hresolve := ensures_resolveProgram name [] s w hlooking
  constructor
  · intro rounds path hpath
    rcases hscript rounds with hopened | ⟨-, hnone⟩
    · rw [hopened] at hpath
      exact List.mem_singleton.mp hpath
    · rw [hnone] at hpath
      cases hpath
  · intro arguments
    exact (ensures_replaceProgram name arguments).always (fun _ _ _ _ h => h.elim)
      (fun _ _ _ _ h => h) (fun _ _ _ h => h.elim) hlooking
  · intro path hend
    rw [hend] at hresolve
    exact hresolve.1
  · intro hlooks
    constructor
    · cases hend : ((Child.resolveProgram name .search).run InMemory.answer s w).ending with
      | returned path =>
          rw [hend] at hresolve
          rw [hresolve.1]
      | failed e =>
          rw [hend] at hresolve
          exact absurd hlooks hresolve.1
      | outOfRounds =>
          rw [hend] at hresolve
          exact hresolve.elim
    · intro rounds
      exact (hscript rounds).resolve_right fun hnone => hnone.1 hlooks

/-! ## The life of a shell -/

/-- What a shell is asked to do; each loop has the rounds it is given. -/
inductive Operation where
  | run (rounds : Nat) (scripts : List Text)
  | runScript (rounds : Nat) (script : Text)
  | runSource (rounds : Nat) (fd : Int) (interactive : Bool)
  | dispatch (tokens : List Text)
  | dispatchLine (line : Bytes)

namespace Operation

/-- What an operation returns. -/
@[reducible] def Result : Operation → Type
  | run .. => Int
  | runScript .. | runSource .. => Bool
  | dispatch .. | dispatchLine .. => Builtin.Verdict

/-- What a shell does for an operation. -/
def action (shell : Shell) : (op : Operation) → Action op.Result
  | run rounds scripts => shell.run rounds scripts
  | runScript rounds script => shell.runScript rounds script
  | runSource rounds fd interactive => shell.runSource rounds fd interactive
  | dispatch tokens => Builtin.dispatch shell.home tokens
  | dispatchLine line => shell.dispatchLine line

theorem keepsInStep (shell : Shell) (op : Operation) : KeepsInStep (op.action shell) := by
  cases op with
  | run rounds scripts => exact shell.keepsInStep_run rounds scripts
  | runScript rounds script => exact shell.keepsInStep_runScript rounds script
  | runSource rounds fd interactive => exact shell.keepsInStep_runFrom fd interactive rounds 0
  | dispatch tokens => exact keepsInStep_dispatch shell.home tokens
  | dispatchLine line => exact shell.keepsInStep_dispatchLine line

end Operation

/-- What a shell comes to that was started in a world and asked to do one thing after another; each
of them may have ended in any way. -/
inductive Lived (memory : Nat) (settings : Config.ShellSettings) (process : Config.ProcessSettings)
    (start : InMemory) (shell : Shell) : Session → InMemory → Prop
  | started (s : Session)
      (h : ((Shell.start memory settings process).run InMemory.answer s start).ending = .returned shell) :
      Lived memory settings process start shell
        ((Shell.start memory settings process).run InMemory.answer s start).state
        ((Shell.start memory settings process).run InMemory.answer s start).world
  | after {s : Session} {w : InMemory} (h : Lived memory settings process start shell s w) (op : Operation) :
      Lived memory settings process start shell ((op.action shell).run InMemory.answer s w).state
        ((op.action shell).run InMemory.answer s w).world

variable {memory : Nat} {settings : Config.ShellSettings} {process : Config.ProcessSettings}
  {shell : Shell} {s : Session} {w : InMemory}

theorem Lived.cwd_eq_pwd (h : Lived memory settings process start shell s w) : s.cwd = w.pwd := by
  induction h with
  | started s h =>
      obtain ⟨line, -, -, hrun⟩ := Shell.run_start h
      rw [hrun]
      rfl
  | after h op ih =>
      rename_i s w
      rcases op.keepsInStep shell s w ih _ (reaches_run InMemory.answer (op.action shell) s w) with
        hstep | htakes
      · exact hstep
      · -- at its end a run takes over nothing any more
        cases hend : ((op.action shell).run InMemory.answer s w).ending <;> rw [hend] at htakes <;>
          cases htakes

/-- Whenever a shell has nothing to do, and at each point of all that it does, its working directory is
that of the services, or it is about to take that over; and then a script and a command of any name
come to the same path. -/
theorem lived_inStep (h : Lived memory settings process start shell s w) :
    (s.cwd = w.pwd ∧ ∀ name, LookupsAgree shell name s w) ∧
    ∀ (op : Operation) (x : ShellPoint op.Result),
      Reaches InMemory.answer ⟨op.action shell, s, w⟩ x →
        (x.InStep ∧ ∀ name, LookupsAgree shell name x.state x.world) ∨ x.TakesOver := by
  have hcwd := h.cwd_eq_pwd
  refine ⟨⟨hcwd, fun name => lookupsAgree shell name hcwd⟩, fun op x hx => ?_⟩
  rcases op.keepsInStep shell s w hcwd x hx with hstep | htakes
  · exact .inl ⟨hstep, fun name => lookupsAgree shell name hstep⟩
  · exact .inr htakes

/-- After a script that goes home the shell is where the services are. -/
theorem lived_inStep_of_script :
    let o := (Shell.default.runScript 8 "go").run InMemory.answer (.default "/") Shell.twoScripts
    o.state.cwd = "/home" ∧ o.world.pwd = "/home" ∧ LookupsAgree Shell.default "go" o.state o.world := by
  intro o
  have hrun := @Shell.run_start_default 1024 (by decide) .unstarted Shell.twoScripts rfl
  have hstarted : Lived 1024 {} {} Shell.twoScripts .default (.default "/") Shell.twoScripts := by
    have hlived := @Lived.started 1024 {} {} Shell.twoScripts .default .unstarted (by rw [hrun])
    rwa [hrun] at hlived
  have hend : o.ending = .returned true := rfl
  rcases (lived_inStep hstarted).2 (.runScript 8 "go") _
    (reaches_run InMemory.answer (Shell.default.runScript 8 "go") _ _) with hstep | htakes
  · exact ⟨rfl, rfl, hstep.2 "go"⟩
  · change Point.TakesOver ⟨o.ending.program, o.state, o.world⟩ at htakes
    rw [hend] at htakes
    cases htakes

end LineShell
