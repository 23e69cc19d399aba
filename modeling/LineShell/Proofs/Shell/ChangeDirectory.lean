import LineShell.Proofs.Shell.Blocks

/-!
# Changing the working directory

`cd` takes three steps: it asks whether its target is a directory, hands the target over to the services
and takes it over itself.  Any of them but the last may fail, and then nothing was changed: either both
working directories are the target, or both are what they were.

The steps are `visit` and `enter`, and each way to end them has a run of its own.  The main result,
`dispatch_cd`, adds what is said about a failure: the line is done with after one message, if that can
be written.
-/

namespace LineShell

open Program LineShell.Action

namespace Builtin

variable {home path : Text} {arguments : List Text} {s : Session} {w : InMemory} {e : Failure}

/-! ## The target -/

/-- Where a change of directory leads to: without an argument to the home directory, and else to the
first one, which is taken relative to the working directory unless it starts with a slash. -/
def destination (home cwd : Text) : List Text → Text
  | [] => home
  | path :: _ => if path.head? = some 0x2F then path else cwd ++ "/" ++ path

theorem target_eq (home cwd : Text) (arguments : List Text) :
    target (.text home) cwd arguments = .text (destination home cwd arguments) := by
  rcases arguments with _ | ⟨_ | ⟨first, path⟩, more⟩
  · rfl
  · simp [target, destination, Lookup.absolute, Lookup.isAbsolute, Lookup.join, Lookup.separator]
    rfl
  · by_cases hslash : first = 0x2F
    · simp [target, destination, Lookup.absolute, Lookup.isAbsolute, Lookup.separator, hslash]
    · simp [target, destination, Lookup.absolute, Lookup.isAbsolute, Lookup.separator, Lookup.join,
        hslash]
      rfl

/-- Only the first argument counts. -/
theorem dispatch_cd_cons (home : Value) (path : Text) (more : List Text) :
    dispatch home (cd.name :: path :: more) = dispatch home [cd.name, path] := rfl

/-! ## The steps -/

/-- Hands a directory over to the services and takes it over. -/
def enter (path : Text) : Action Verdict :=
  (ask (.setPwd path)).bind fun _ =>
    (update fun s => { s with cwd := path }).bind fun _ =>
      (Action.log .debug "shell" (("Working directory is now " : Text) ++ path)).bind fun _ =>
        done .handled

/-- Enters a directory if it is one. -/
def visit (path : Text) : Action Verdict :=
  (ask (.isDir (.text path))).bind fun isDirectory =>
    if isDirectory then enter path else fail (.notADirectory (.text path) [])

/-- Where home is text, every target is. -/
theorem changeDirectory_eq (home : Text) (arguments : List Text) :
    changeDirectory (.text home) arguments =
      state.bind fun s => visit (destination home s.cwd arguments) := by
  unfold changeDirectory
  simp only [bind_eq_bind]
  congr 1
  funext s
  rw [target_eq, visit]
  congr 1
  funext isDirectory
  cases isDirectory <;> rfl

theorem run_changeDirectory (home : Text) (arguments : List Text) (s : Session) (w : InMemory) :
    (changeDirectory (.text home) arguments).run InMemory.answer s w =
      (visit (destination home s.cwd arguments)).run InMemory.answer s w := by
  rw [changeDirectory_eq]
  rfl

theorem run_ask (c : ServiceCall) (s : Session) (w : InMemory) :
    (ask c).run InMemory.answer s w =
      ⟨endingOf (InMemory.answer c w).outcome, s, (InMemory.answer c w).world,
        [.called c (InMemory.answer c w).outcome]⟩ := by
  rw [ask, run_request, InMemory.answer_inner]

theorem run_enter_of_ok (h : (InMemory.answer (.setPwd path) w).outcome = .ok ()) :
    (enter path).run InMemory.answer s w =
      ⟨.returned .handled, { s with cwd := path }, (InMemory.answer (.setPwd path) w).world,
        [.called (.setPwd path) (.ok ()),
          .logged ⟨.debug, "shell", "Working directory is now " ++ path, none, []⟩]⟩ := by
  rw [enter, run_bind, run_ask, h]
  rfl

theorem run_enter_of_error (h : (InMemory.answer (.setPwd path) w).outcome = .error e) :
    (enter path).run InMemory.answer s w =
      ⟨.failed e, s, (InMemory.answer (.setPwd path) w).world, [.called (.setPwd path) (.error e)]⟩ := by
  rw [enter, run_bind, run_ask, h]
  rfl

theorem run_visit_of_error (h : (InMemory.answer (.isDir (.text path)) w).outcome = .error e) :
    (visit path).run InMemory.answer s w =
      ⟨.failed e, s, (InMemory.answer (.isDir (.text path)) w).world,
        [.called (.isDir (.text path)) (.error e)]⟩ := by
  rw [visit, run_bind, run_ask, h]
  rfl

theorem run_visit_of_false (h : (InMemory.answer (.isDir (.text path)) w).outcome = .ok false) :
    (visit path).run InMemory.answer s w =
      ⟨.failed (.notADirectory (.text path) []), s, (InMemory.answer (.isDir (.text path)) w).world,
        [.called (.isDir (.text path)) (.ok false)]⟩ := by
  rw [visit, run_bind, run_ask, h]
  rfl

theorem run_visit_of_true (h : (InMemory.answer (.isDir (.text path)) w).outcome = .ok true) :
    (visit path).run InMemory.answer s w =
      let o := (enter path).run InMemory.answer s (InMemory.answer (.isDir (.text path)) w).world
      { o with events := .called (.isDir (.text path)) (.ok true) :: o.events } := by
  rw [visit, run_bind, run_ask, h]
  rfl

/-! ## What is said about a failure -/

/-- Tells the user of a failure, with which the line is done. -/
def tell (r : ErrorReport) : Action Verdict :=
  (Action.log .debug "shell" (cd.name ++ ": " ++ r.render)).bind fun _ =>
    (ask (.write standardOutput (r.message.render ++ "\n"))).bind fun _ => done .handled

theorem dispatch_cd_eq (home : Value) (arguments : List Text) :
    dispatch home (cd.name :: arguments) =
      (changeDirectory home arguments).orElse fun e =>
        match e.fileReport? with
        | none => fail e
        | some r => tell r := rfl

theorem run_tell (r : ErrorReport) (s : Session) (w : InMemory) :
    let written := InMemory.answer (.write standardOutput (r.message.render ++ "\n")) w
    (tell r).run InMemory.answer s w =
      ⟨endingOf (written.outcome.map fun _ => .handled), s, written.world,
        [.logged ⟨.debug, "shell", cd.name ++ ": " ++ r.render, none, []⟩,
          .called (.write standardOutput (r.message.render ++ "\n")) written.outcome]⟩ := by
  dsimp only
  rw [tell, run_bind, Action.log, run_log]
  simp only [Outcome.andThen]
  rw [run_bind, run_ask]
  cases (InMemory.answer (.write standardOutput (r.message.render ++ "\n")) w).outcome <;> rfl

/-- After some calls that came to nothing, the user is told why in one write.  The line is done with,
unless that write fails. -/
structure Told (message : Text) (made : List (Event ServiceCall.Reply)) (s : Session) (pwd : Text)
    (before : InMemory) (o : Outcome Session InMemory ServiceCall.Reply Verdict) : Prop where
  state : o.state = s
  pwd : o.world.pwd = pwd
  calls : calls o.events = made ++ [.called (.write standardOutput (message ++ "\n"))
    (InMemory.answer (.write standardOutput (message ++ "\n")) before).outcome]
  ending : o.ending = endingOf
    ((InMemory.answer (.write standardOutput (message ++ "\n")) before).outcome.map fun _ => .handled)

variable {v : InMemory} {made : List (Event ServiceCall.Reply)} {r : ErrorReport}

/-- A failure of the file family is told. -/
theorem told_of_failed
    (hvisit : (visit (destination home s.cwd arguments)).run InMemory.answer s w = ⟨.failed e, s, v, made⟩)
    (hreport : e.fileReport? = some r) :
    Told r.message.render (calls made) s v.pwd v
      ((dispatch (.text home) (cd.name :: arguments)).run InMemory.answer s w) := by
  rw [← run_changeDirectory] at hvisit
  rw [dispatch_cd_eq, run_orElse_of_failed InMemory.answer hvisit, hreport]
  simp only [run_tell]
  constructor
  · rfl
  · exact InMemory.answer_pwd (by simp [ServiceCall.name]) v
  · rw [calls_append]
    rfl
  · rfl

/-- Any other failure ends the line as it is. -/
theorem run_dispatch_cd_of_failed
    (hvisit : (visit (destination home s.cwd arguments)).run InMemory.answer s w = ⟨.failed e, s, v, made⟩)
    (hreport : e.fileReport? = none) :
    (dispatch (.text home) (cd.name :: arguments)).run InMemory.answer s w = ⟨.failed e, s, v, made⟩ := by
  rw [← run_changeDirectory] at hvisit
  rw [dispatch_cd_eq, run_orElse_of_failed InMemory.answer hvisit, hreport]
  simp

/-- Whatever a change of directory fails with, it changed nothing. -/
theorem unchanged_of_failed
    (hvisit : (visit (destination home s.cwd arguments)).run InMemory.answer s w = ⟨.failed e, s, v, made⟩)
    (hpwd : v.pwd = w.pwd) :
    let o := (dispatch (.text home) (cd.name :: arguments)).run InMemory.answer s w
    o.state = s ∧ o.world.pwd = w.pwd ∧ (e.fileReport? = none → o.ending = .failed e) := by
  intro o
  cases hreport : e.fileReport? with
  | none =>
      have hrun : o = ⟨.failed e, s, v, made⟩ := run_dispatch_cd_of_failed hvisit hreport
      rw [hrun]
      exact ⟨rfl, hpwd, fun _ => rfl⟩
  | some r =>
      have htold := told_of_failed hvisit hreport
      exact ⟨htold.state, htold.pwd.trans hpwd, nofun⟩

/-! ## All or nothing -/

/-- The calls that are made are among those of the footprint. -/
theorem name_of_called {α : Type} {p : Action α} {names : List ServiceCall.Name}
    {parts : List Session.Part} {stops : Bool} (hp : p.Footprint (Shell.scope names parts stops))
    (s : Session) (w : InMemory) {c : ServiceCall} {outcome : Except Failure c.Reply}
    (hcalled : .called c outcome ∈ (p.run InMemory.answer s w).events) : c.name ∈ names := by
  let inside : Assertion Session InMemory ServiceCall.Reply := fun past _ _ =>
    ∀ c outcome, Event.called c outcome ∈ past → c.name ∈ names
  have hkept : Ensures InMemory.answer inside p (fun _ => inside) (fun _ => inside) inside := by
    refine hp.ensures ?_ (fun _ _ _ _ _ h => h) ?_ fun _ _ _ _ h => h
    · intro c hc past s w h other outcome hmem
      rw [InMemory.answer_inner] at hmem
      rcases List.mem_append.mp hmem with hpast | hlast
      · exact h other outcome hpast
      · cases List.mem_singleton.mp hlast
        exact List.contains_iff_mem.mp hc
    · intro entry _ past s w h other outcome hmem
      rcases List.mem_append.mp hmem with hpast | hlast
      · exact h other outcome hpast
      · cases List.mem_singleton.mp hlast
  have hstart : inside [] s w := fun _ _ hmem => absurd hmem List.not_mem_nil
  exact hkept.always (fun _ _ _ _ h => h) (fun _ _ _ _ h => h) (fun _ _ _ h => h) hstart c outcome
    hcalled

/-- A change of directory does all of its work or none, however its calls are answered. -/
theorem dispatch_cd (home : Text) (arguments : List Text) (s : Session) (w : InMemory) :
    let path := destination home s.cwd arguments
    let asked := InMemory.answer (.isDir (.text path)) w
    let entered := InMemory.answer (.setPwd path) asked.world
    let o := (dispatch (.text home) (cd.name :: arguments)).run InMemory.answer s w
    (asked.outcome = .ok true → entered.outcome = .ok () →
      o.ending = .returned .handled ∧ o.state = { s with cwd := path } ∧ o.world.pwd = path ∧
        calls o.events = [.called (.isDir (.text path)) (.ok true), .called (.setPwd path) (.ok ())]) ∧
    (asked.outcome = .ok false →
      Told ("no such directory: " ++ path) [.called (.isDir (.text path)) (.ok false)] s w.pwd
        asked.world o) ∧
    (asked.outcome = .ok true → ∀ r, r.kind = .notADirectory → entered.outcome = .error (.report r) →
      Told r.message.render [.called (.isDir (.text path)) (.ok true),
        .called (.setPwd path) (.error (.report r))] s w.pwd entered.world o) ∧
    (∀ e, asked.outcome = .error e ∨ asked.outcome = .ok true ∧ entered.outcome = .error e →
      o.state = s ∧ o.world.pwd = w.pwd ∧ (e.fileReport? = none → o.ending = .failed e)) ∧
    (∀ c outcome, .called c outcome ∈ o.events → c.name ∈ [.isDir, .setPwd, .write]) ∧
    ∀ first more, arguments = first :: more →
      dispatch (.text home) (cd.name :: arguments) = dispatch (.text home) [cd.name, first] := by
  intro path asked entered o
  have hasked : asked.world.pwd = w.pwd :=
    InMemory.answer_pwd (by simp [ServiceCall.name]) w
  have hunentered : ∀ e, entered.outcome = .error e → entered.world.pwd = w.pwd := by
    intro e he
    rcases InMemory.answer_setPwd path asked.world with ⟨hok, -⟩ | ⟨-, -, hkept⟩
    · cases he.symm.trans hok
    · exact hkept.trans hasked
  -- a directory that cannot be entered leaves nothing behind but the two questions
  have hrefused : ∀ e, asked.outcome = .ok true → entered.outcome = .error e →
      (visit path).run InMemory.answer s w = ⟨.failed e, s, entered.world,
        [.called (.isDir (.text path)) (.ok true), .called (.setPwd path) (.error e)]⟩ := by
    intro e htrue he
    rw [run_visit_of_true htrue, run_enter_of_error he]
  refine ⟨?_, ?_, ?_, ?_, ?_, ?_⟩
  · intro htrue hok
    have hvisit : (visit path).run InMemory.answer s w = _ := run_visit_of_true htrue
    rw [run_enter_of_ok hok, ← run_changeDirectory] at hvisit
    have hrun : o = _ := run_orElse_of_returned InMemory.answer hvisit
    rw [hrun]
    rcases InMemory.answer_setPwd path asked.world with ⟨-, hmoved⟩ | ⟨e, he, -⟩
    · exact ⟨rfl, rfl, hmoved, rfl⟩
    · cases he.symm.trans hok
  · intro hfalse
    have htold := told_of_failed (run_visit_of_false hfalse) rfl
    rwa [hasked] at htold
  · intro htrue r hkind he
    have hfamily : (Failure.report r).fileReport? = some r := by
      rw [Failure.fileReport?, hkind]
      rfl
    have htold := told_of_failed (hrefused _ htrue he) hfamily
    rwa [hunentered _ he] at htold
  · rintro e (he | ⟨htrue, he⟩)
    · exact unchanged_of_failed (run_visit_of_error he) hasked
    · exact unchanged_of_failed (hrefused e htrue he) (hunentered e he)
  · intro c outcome hcalled
    exact name_of_called (footprint_dispatch (.text home) _) s w hcalled
  · rintro first more rfl
    exact dispatch_cd_cons (.text home) first more

/-- A shell at home. -/
def atHome : Session := ⟨"/home", none, LineBuffer.empty 256⟩

/-- A world with a directory in it, and with faults. -/
def withUser (faults : List (Fault ServiceCall.Name)) : InMemory :=
  .create [] ["/home/user"] "/home" "/bin" [] [] [] false false faults

/-- A directory is entered, and a second argument does not matter. -/
theorem dispatch_cd_of_user :
    let o := (dispatch (.text "/") [cd.name, "user", "more"]).run InMemory.answer atHome (withUser [])
    o.ending = .returned .handled ∧ o.state.cwd = "/home/user" ∧ o.world.pwd = "/home/user" ∧
      calls o.events = [.called (.isDir (.text "/home/user")) (.ok true),
        .called (.setPwd "/home/user") (.ok ())] := by
  obtain ⟨hending, hstate, hpwd, hcalls⟩ :=
    (dispatch_cd "/" ["user", "more"] atHome (withUser [])).1 rfl rfl
  exact ⟨hending, congrArg Session.cwd hstate, hpwd, hcalls⟩

/-- The message about a directory that is missing may fail to be written, and then the line is not done
with. -/
theorem dispatch_cd_unwritten :
    let w := withUser [⟨.write, 1, .os (some 5) "Input/output error"⟩]
    let o := (dispatch (.text "/") [cd.name, "/missing"]).run InMemory.answer atHome w
    (InMemory.answer (.isDir (.text "/missing")) w).outcome = .ok false ∧
      o.ending = .failed (.os (some 5) "Input/output error") ∧ o.ending ≠ .returned .handled := by
  refine ⟨rfl, rfl, nofun⟩

end Builtin

end LineShell
