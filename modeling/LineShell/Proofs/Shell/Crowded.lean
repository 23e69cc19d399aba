import LineShell.Proofs.Os.World
import LineShell.Proofs.Shell.Exit
import LineShell.Proofs.Shell.Lookup
import LineShell.Proofs.Shell.Rounds
import LineShell.Proofs.Shell.Start
import LineShell.Proofs.Shell.Unmade

/-!
# Runs in which children cannot always be made

In a world that is `Crowded` nothing goes wrong but that at times no child can be made.  Each call but
that one is carried out, so what `sequel_unmade` says is left of a run can be followed to the next calls,
and the run comes to its end with the status of success (`AtWork.ensures_run`).

The main result is `Shell.run_unmade`.
-/

namespace LineShell

open Program LineShell.Action

/-! ## Worlds in which children cannot always be made -/

namespace InMemory

/-- Nothing goes wrong in a world but that at times no child can be made, and the world is never the one
of a child. -/
structure Crowded (w : InMemory) : Prop where
  faults : ∀ f ∈ w.faults, f.call = .fork ∧ ∃ r, f.failure.reportOf? .forkFailed = some r
  parents : (0 : Int) ∉ w.forks

namespace Crowded

variable {w : InMemory} {c : ServiceCall}

theorem ready (h : w.Crowded) (call : ServiceCall.Name) : (w.ready call).Crowded where
  faults f hf := by
    obtain ⟨g, hg, hcall, hfailure⟩ := Fault.exists_of_mem_advance hf
    rw [← hcall, ← hfailure]
    exact h.faults g hg
  parents := h.parents

theorem serve (h : w.Crowded) (c : ServiceCall) : (w.serve c).2.Crowded where
  faults := by
    rw [serve_faults]
    exact h.faults
  parents hmem := by
    refine h.parents ?_
    cases c with
    | fork => exact List.mem_of_mem_tail hmem
    | _ =>
        revert hmem
        simp only [InMemory.serve]
        repeat' split
        all_goals exact id

theorem answer (h : w.Crowded) (c : ServiceCall) : (answer c w).world.Crowded :=
  answer_keeps (fun _ hv => hv.serve c) (fun hw => hw.ready c.name) h

/-- Any other call is carried out. -/
theorem answer_other (h : w.Crowded) (hc : c.name ≠ .fork) :
    InMemory.answer c w = ⟨(w.serve c).1, (w.serve c).2, []⟩ := by
  have hunhit : ∀ f ∈ w.faults, f.call ≠ c.name := by
    intro f hf heq
    rw [(h.faults f hf).1] at heq
    exact hc heq.symm
  have hready : w.ready c.name = w := by
    unfold InMemory.ready
    rw [Fault.advance_of_forall_ne hunhit]
  rw [answer_miss (Fault.hit?_of_forall_ne hunhit), hready]

/-- A child is made, or it is reported that none can be made. -/
theorem answer_fork (h : w.Crowded) :
    (∃ e r, e.reportOf? .forkFailed = some r ∧
      InMemory.answer .fork w = ⟨.error e, w.ready .fork, []⟩) ∨
    ∃ pid, pid ≠ 0 ∧ (InMemory.answer .fork w).outcome = .ok pid := by
  cases hhit : Fault.hit? w.faults .fork with
  | some e =>
      obtain ⟨f, hf, -, rfl⟩ := Fault.exists_of_hit? hhit
      obtain ⟨-, r, hr⟩ := h.faults f hf
      exact .inl ⟨f.failure, r, hr, answer_hit (c := .fork) hhit⟩
  | none =>
      refine .inr ⟨w.forks.headD (100 + (w.forked + 1)), fun hzero => ?_, ?_⟩
      · cases hforks : w.forks with
        | nil =>
            rw [hforks] at hzero
            have hmade : (100 : Int) + (w.forked + 1) = 0 := hzero
            omega
        | cons pid rest =>
            rw [hforks, List.headD_cons] at hzero
            have hnone := h.parents
            rw [hforks, hzero] at hnone
            exact hnone List.mem_cons_self
      · rw [answer_miss (c := .fork) hhit]
        rfl

/-- Where no child could be made this was reported, and nothing else happened. -/
theorem answer_fork_error (h : w.Crowded) {e : Failure} (he : (InMemory.answer .fork w).outcome = .error e) :
    ∃ r, e.reportOf? .forkFailed = some r ∧ InMemory.answer .fork w = ⟨.error e, w.ready .fork, []⟩ := by
  rcases h.answer_fork with ⟨e', r, hr, hunmade⟩ | ⟨pid, -, hmade⟩
  · rw [hunmade] at he
    cases he
    exact ⟨r, hr, hunmade⟩
  · rw [hmade] at he
    cases he

end Crowded

end InMemory

/-! ## Runs -/

section Work

/-- Between two steps of a run in a world in which children cannot always be made. -/
structure AtWork (buffer : LineBuffer) (files : List (Text × Bytes))
    (past : List (Event ServiceCall.Reply)) (s : Session) (w : InMemory) : Prop where
  buffer : buffer.SameSize s.line
  files : w.files = files
  crowded : w.Crowded

namespace AtWork

variable {buffer : LineBuffer} {files : List (Text × Bytes)} {past more : List (Event ServiceCall.Reply)}
  {s t : Session} {w : InMemory} {shell : Shell}

theorem answer (h : AtWork buffer files past s w) (c : ServiceCall) :
    AtWork buffer files more s (InMemory.answer c w).world :=
  ⟨h.buffer, (InMemory.answer_files c w).trans h.files, h.crowded.answer c⟩

/-- A call other than that for a child comes to what it is in itself. -/
theorem ensures_ask {c : ServiceCall} (hc : c.name ≠ .fork) :
    Ensures InMemory.answer (AtWork buffer files) (ask c)
      (fun reply past s w => (∃ v : InMemory, v.files = files ∧ (v.serve c).1 = .ok reply) ∧
        AtWork buffer files past s w)
      (fun e past s w => (∃ v : InMemory, v.files = files ∧ (v.serve c).1 = .error e) ∧
        AtWork buffer files past s w) Never := by
  refine Ensures.request_alone (InMemory.answer_inner _) (fun past s w reply h hreply => ?_)
    fun past s w e h he => ?_
  · refine ⟨⟨w, h.files, ?_⟩, h.answer c⟩
    rwa [h.crowded.answer_other hc] at hreply
  · refine ⟨⟨w, h.files, ?_⟩, h.answer c⟩
    rwa [h.crowded.answer_other hc] at he

/-- A call that is always carried out. -/
theorem ensures_served {c : ServiceCall} (hc : c.name ≠ .fork)
    (hserve : ∀ (w : InMemory) e, (w.serve c).1 ≠ .error e) :
    Ensures InMemory.answer (AtWork buffer files) (ask c) (fun _ => AtWork buffer files)
      (fun _ => Never) Never :=
  (ensures_ask hc).mono (fun _ _ _ h => h) (fun _ _ _ _ h => h.2)
    (fun e _ _ _ ⟨⟨v, _, hv⟩, _⟩ => hserve v e hv) fun _ _ _ h => h

theorem ensures_log (entry : Log.Entry) :
    Ensures InMemory.answer (AtWork buffer files) (Program.log entry) (fun _ => AtWork buffer files)
      (fun _ => Never) Never :=
  Ensures.log fun _ _ _ h => ⟨h.buffer, h.files, h.crowded⟩

theorem ensures_print (text : Text) :
    Ensures InMemory.answer (AtWork buffer files) (Shell.print text) (fun _ => AtWork buffer files)
      (fun _ => Never) Never :=
  ensures_served nofun fun _ _ => nofun

theorem ensures_isDir (path : Text) :
    Ensures InMemory.answer (AtWork buffer files) (ask (.isDir (.text path)))
      (fun _ => AtWork buffer files) (fun _ => Never) Never :=
  ensures_served nofun fun _ _ h => by cases h

theorem ensures_isFile (path : Text) :
    Ensures InMemory.answer (AtWork buffer files) (Child.isFile path)
      (fun found past s w => found = (files.lookup path).isSome ∧ AtWork buffer files past s w)
      (fun _ => Never) Never := by
  refine (ensures_ask (c := .fileExists path) nofun).mono (fun _ _ _ h => h) ?_ ?_ fun _ _ _ h => h
  · rintro found past s w ⟨⟨v, rfl, hv⟩, h⟩
    exact ⟨(Except.ok.inj hv).symm, h⟩
  · rintro e past s w ⟨⟨v, -, hv⟩, -⟩
    cases hv

theorem ensures_getPath :
    Ensures InMemory.answer (AtWork buffer files) (ask .getPath) (fun _ => AtWork buffer files)
      (fun _ => Never) Never :=
  ensures_served nofun fun _ _ => nofun

theorem ensures_openReadOnly (path : Text) :
    Ensures InMemory.answer (AtWork buffer files) (ask (.openReadOnly path)) (fun _ => AtWork buffer files)
      (fun e past s w => e = .fileNotFound path [] ∧ AtWork buffer files past s w) Never := by
  refine (ensures_ask (c := .openReadOnly path) nofun).mono (fun _ _ _ h => h) (fun _ _ _ _ h => h.2) ?_
    fun _ _ _ h => h
  rintro e past s w ⟨⟨v, -, hv⟩, h⟩
  simp only [InMemory.serve] at hv
  split at hv
  · cases hv
  · exact ⟨(Except.error.inj hv).symm, h⟩

theorem ensures_close (fd : Int) :
    Ensures InMemory.answer (AtWork buffer files) (ask (.close fd)) (fun _ => AtWork buffer files)
      (fun _ => Never) Never :=
  ensures_served nofun fun _ _ => nofun

theorem ensures_waitpid (pid : Int) (timeout : Value) :
    Ensures InMemory.answer (AtWork buffer files) (ask (.waitpid pid timeout))
      (fun _ => AtWork buffer files) (fun _ => Never) Never :=
  ensures_served nofun fun _ _ => nofun

/-- Reading a line fails only where there is no source. -/
theorem ensures_askLine (hbuffer : buffer.Sized) (fd offset : Int) (s : Session) :
    Ensures InMemory.answer (fun past t w => t = s ∧ AtWork buffer files past t w)
      (ask (.readLine fd offset s.line.size))
      (fun (line : Bytes) past t w => line.length ≤ buffer.capacity ∧ AtWork buffer files past t w)
      (fun e past t w => (∃ errno text, e = .os errno text) ∧ AtWork buffer files past t w) Never := by
  refine Ensures.request_alone (InMemory.answer_inner _) ?_ ?_
  · rintro past t w line ⟨rfl, h⟩ hline
    refine ⟨?_, h.answer _⟩
    have hsize : t.line.size.toInt? = some (buffer.capacity : Int) := by
      rw [h.buffer.size, hbuffer.size]
    exact InMemory.length_le_of_answer_readLine hsize hline
  · rintro past t w e ⟨rfl, h⟩ he
    refine ⟨?_, h.answer _⟩
    have hsize : t.line.size.toInt? = some (buffer.capacity : Int) := by
      rw [h.buffer.size, hbuffer.size]
    rw [h.crowded.answer_other (c := .readLine fd offset t.line.size) nofun] at he
    simp only [InMemory.serve, hsize] at he
    cases hsource : w.sources.lookup fd with
    | some source =>
        rw [hsource] at he
        cases he
    | none =>
        rw [hsource] at he
        cases he
        exact ⟨_, _, rfl⟩

theorem ensures_setPwd (path : Text) :
    Ensures InMemory.answer (AtWork buffer files) (ask (.setPwd path)) (fun _ => AtWork buffer files)
      (fun e past s w => e = .notADirectory (.text path) [] ∧ AtWork buffer files past s w) Never := by
  refine (ensures_ask (c := .setPwd path) nofun).mono (fun _ _ _ h => h) (fun _ _ _ _ h => h.2) ?_
    fun _ _ _ h => h
  rintro e past s w ⟨⟨v, -, hv⟩, h⟩
  simp only [InMemory.serve] at hv
  split at hv
  · cases hv
  · exact ⟨(Except.error.inj hv).symm, h⟩

theorem ensures_publishCwd :
    Ensures InMemory.answer (AtWork buffer files) Shell.publishCwd (fun _ => AtWork buffer files)
      (fun _ => Never) Never := by
  refine Ensures.state_bind fun s => Ensures.weaken ?_ fun _ _ _ h => h.2
  refine Ensures.orElse (ensures_setPwd s.cwd) fun e => Ensures.and_pre fun he => ?_
  subst he
  exact ensures_log _

/-- A change of directory is reported when it cannot be made. -/
theorem ensures_dispatch {home : Value} (hhome : ∃ path, home = .text path) (tokens : List Text) :
    Ensures InMemory.answer (AtWork buffer files) (Builtin.dispatch home tokens)
      (fun _ => AtWork buffer files) (fun _ => Never) Never := by
  simp only [Builtin.dispatch]
  cases Builtin.ofName? (tokens.headD []) with
  | none => exact Ensures.done fun _ _ _ h => h
  | some command =>
      refine Ensures.orElse (m := fun e past s w => (∃ target, e = .notADirectory target []) ∧
        AtWork buffer files past s w) ?_ fun e => Ensures.and_pre fun he => ?_
      · cases command with
        | exit => exact Ensures.done fun _ _ _ h => h
        | cd =>
            refine Ensures.state_bind fun s => Ensures.weaken ?_ fun _ _ _ h => h.2
            -- with a home that is text the target always is
            obtain ⟨path, htarget⟩ : ∃ path, Builtin.target home s.cwd tokens.tail = .text path := by
              cases tokens.tail with
              | nil => exact hhome
              | cons argument rest => exact ⟨_, rfl⟩
            rw [htarget]
            refine Ensures.bind ((ensures_isDir path).mono_fails fun _ _ _ _ h => h.elim)
              fun isDirectory => ?_
            cases isDirectory with
            | false => exact Ensures.fail fun _ _ _ h => ⟨⟨_, rfl⟩, h⟩
            | true =>
                refine Ensures.bind ((ensures_setPwd path).mono_fails fun _ _ _ _ h =>
                  ⟨⟨_, h.1⟩, h.2⟩) fun _ => ?_
                refine Ensures.bind (m := fun _ => AtWork buffer files)
                  (Ensures.update fun _ _ _ h => ⟨h.buffer, h.files, h.crowded⟩) fun _ => ?_
                refine Ensures.bind ((ensures_log _).mono_fails fun _ _ _ _ h => h.elim) fun _ => ?_
                exact Ensures.done fun _ _ _ h => h
      · obtain ⟨target, rfl⟩ := he
        refine Ensures.bind (ensures_log _) fun _ => ?_
        refine Ensures.bind (ensures_print _) fun _ => ?_
        exact Ensures.done fun _ _ _ h => h

theorem indifferent : Child.Indifferent (AtWork buffer files) where
  foreground _ _ _ _ h := ⟨h.buffer, h.files, h.crowded⟩
  logged _ _ _ _ _ h := ⟨h.buffer, h.files, h.crowded⟩

/-- A child is made, of which this is not the run, or there is none. -/
theorem ensures_spawnOrReport :
    Ensures InMemory.answer (AtWork buffer files) Shell.spawnOrReport
      (fun child past s w => child ≠ some 0 ∧ AtWork buffer files past s w) (fun _ => Never) Never := by
  have hfork : Ensures InMemory.answer (AtWork buffer files) (ask .fork)
      (fun (pid : Int) past s w => pid ≠ 0 ∧ AtWork buffer files past s w)
      (fun e past s w => (∃ r, e.reportOf? .forkFailed = some r) ∧ AtWork buffer files past s w)
      Never := by
    refine Ensures.request_alone (InMemory.answer_inner _) (fun past s w pid h hpid => ⟨?_, h.answer _⟩)
      fun past s w e h he => ⟨?_, h.answer _⟩
    -- a fork that answers zero is not among the answers of this world
    · rcases h.crowded.answer_fork with ⟨e, r, -, hunmade⟩ | ⟨pid', hne, hmade⟩
      · rw [hunmade] at hpid
        cases hpid
      · rw [hmade] at hpid
        cases hpid
        exact hne
    · obtain ⟨r, hr, -⟩ := h.crowded.answer_fork_error he
      exact ⟨r, hr⟩
  rw [Shell.spawnOrReport_eq]
  refine Ensures.bind hfork.attempt fun outcome => ?_
  cases outcome with
  | ok pid =>
      refine Ensures.and_pre fun hpid => ?_
      have hmade : Ensures InMemory.answer (AtWork buffer files) ((Child.made pid).bind fun _ => done pid)
          (fun made past s w => made = pid ∧ AtWork buffer files past s w) (fun _ => Never) Never :=
        Ensures.bind (indifferent.ensures_made pid) fun _ => Ensures.done fun _ _ _ h => ⟨rfl, h⟩
      refine Ensures.bind hmade.attempt fun made => ?_
      cases made with
      | ok made =>
          refine Ensures.done fun _ _ _ h => ⟨fun hzero => ?_, h.2⟩
          exact hpid (h.1.symm.trans (Option.some.inj hzero))
      | error e => exact fun _ _ _ h => h.elim
  | error e =>
      refine Ensures.and_pre fun ⟨r, hr⟩ => ?_
      intro past s w h
      have hwrite : InMemory.answer (.write standardOutput "could not fork\n") w = ⟨.ok (), w, []⟩ :=
        h.crowded.answer_other nofun
      rw [Shell.run_spawned_error hr hwrite]
      exact ⟨nofun, h.buffer, h.files, h.crowded⟩

theorem ensures_runInChild (tokens : List Text) :
    Ensures InMemory.answer (AtWork buffer files) (shell.runInChild tokens)
      (fun _ => AtWork buffer files) (fun _ => Never) Never := by
  refine Ensures.bind ensures_spawnOrReport fun child => Ensures.and_pre fun hchild => ?_
  cases child with
  | none => exact Ensures.done fun _ _ _ h => h
  | some pid =>
      have hpid : pid ≠ 0 := fun hzero => hchild (congrArg some hzero)
      simp only [if_neg hpid, bind_eq_bind, pure_eq_done]
      have hwait : Ensures InMemory.answer (AtWork buffer files) (Child.wait pid shell.waitTimeout)
          (fun _ => AtWork buffer files) (fun _ => Never) Never := by
        rw [Child.wait_eq]
        exact Ensures.bind (ensures_waitpid pid shell.waitTimeout) fun outcome =>
          indifferent.ensures_awaited pid outcome
      exact Ensures.bind hwait fun _ => Ensures.done fun _ _ _ h => h

/-- How a run fails: the marker is no byte, so the first line is refused. -/
def Refused (shell : Shell) (buffer : LineBuffer) (files : List (Text × Bytes)) (e : Failure) :
    Assertion Session InMemory ServiceCall.Reply :=
  fun past s w => (¬shell.marker.val < 256 ∧ e = Shell.refusal) ∧ AtWork buffer files past s w

theorem ensures_tokenize {chunk : Bytes} (hfit : chunk.length ≤ buffer.capacity) :
    Ensures InMemory.answer (AtWork buffer files) (shell.tokenize chunk)
      (fun _ => AtWork buffer files) (Refused shell buffer files) Never := by
  have hline : ∀ {past s w}, AtWork buffer files past s w → chunk.length ≤ s.line.capacity := fun h => by
    rw [h.buffer.capacity]
    exact hfit
  by_cases hsplit : shell.marker.val < 256
  · refine (Shell.ensures_tokens hsplit (fun _ _ _ h => hline h) fun past s w loaded h hsame => ?_).mono
      (fun _ _ _ h => h) (fun _ _ _ _ h => h.2) (fun _ _ _ _ h => h.elim) fun _ _ _ h => h
    exact ⟨h.buffer.trans hsame, h.files, h.crowded⟩
  · intro past s w h
    obtain ⟨loaded, hsame, hrun⟩ := Shell.run_tokenize_refused hsplit (hline h) w
    rw [hrun]
    exact ⟨⟨hsplit, rfl⟩, h.buffer.trans hsame, h.files, h.crowded⟩

theorem ensures_runLine (hhome : ∃ path, shell.home = .text path) (interactive : Bool) {chunk : Bytes}
    (hfit : chunk.length ≤ buffer.capacity) :
    Ensures InMemory.answer (AtWork buffer files)
      (shell.runLine (Builtin.dispatch shell.home) interactive chunk)
      (fun _ => AtWork buffer files) (Refused shell buffer files) Never := by
  refine Ensures.bind (ensures_tokenize hfit) fun tokens => ?_
  refine Ensures.bind ((ensures_dispatch hhome tokens).mono_fails fun _ _ _ _ h => h.elim)
    fun verdict => ?_
  cases verdict with
  | exit => exact Ensures.done fun _ _ _ h => h
  | handled => exact Ensures.done fun _ _ _ h => h
  | notBuiltin =>
      refine Ensures.bind ((ensures_runInChild tokens).mono_fails fun _ _ _ _ h => h.elim) fun made => ?_
      cases made <;> exact Ensures.done fun _ _ _ h => h

/-- A line that is read fits, and reading one never fails. -/
theorem ensures_readLine (hbuffer : buffer.Sized) (interactive : Bool) (fd offset : Int) :
    Ensures InMemory.answer (AtWork buffer files) (Shell.readLine interactive fd offset)
      (fun reading past s w => (∀ chunk, reading = .line chunk → chunk.length ≤ buffer.capacity) ∧
        AtWork buffer files past s w) (fun _ => Never) Never := by
  rw [Shell.readLine_eq]
  refine Ensures.state_bind fun s => ?_
  refine Ensures.bind (ensures_askLine hbuffer fd offset s).attempt fun outcome => ?_
  cases outcome with
  | ok line =>
      refine Ensures.and_pre fun hfit => ?_
      cases line with
      | nil => exact Ensures.done fun _ _ _ h => ⟨nofun, h⟩
      | cons byte rest => exact Ensures.done fun _ _ _ h => ⟨fun _ hchunk => by cases hchunk; exact hfit, h⟩
  | error e =>
      refine Ensures.and_pre fun ⟨errno, text, he⟩ => ?_
      subst he
      refine Ensures.bind (ensures_log _) fun _ => ?_
      exact Ensures.done fun _ _ _ h => ⟨nofun, h⟩

/-- A source is gone through, unless its first line is refused. -/
theorem ensures_runFrom (hbuffer : buffer.Sized) (hprompt : ∃ suffix, shell.promptSuffix = .text suffix)
    (hhome : ∃ path, shell.home = .text path) (fd : Int) (interactive : Bool) (rounds : Nat)
    (offset : Int) :
    Ensures InMemory.answer (AtWork buffer files)
      (shell.runFrom (Builtin.dispatch shell.home) fd interactive rounds offset)
      (fun _ => AtWork buffer files) (Refused shell buffer files) fun _ _ _ => True := by
  induction rounds generalizing offset with
  | zero => exact Ensures.outOfRounds fun _ _ _ _ => trivial
  | succ rounds ih =>
      have hannounce : Ensures InMemory.answer (AtWork buffer files) (shell.announce interactive)
          (fun _ => AtWork buffer files) (fun _ => Never) Never := by
        cases interactive with
        | false => exact Ensures.done fun _ _ _ h => h
        | true =>
            obtain ⟨suffix, hsuffix⟩ := hprompt
            refine Ensures.state_bind fun s => Ensures.weaken ?_ fun _ _ _ h => h.2
            rw [hsuffix]
            exact ensures_print _
      refine Ensures.bind (hannounce.part fun _ _ _ _ h => h.elim) fun _ => ?_
      refine Ensures.bind ((ensures_readLine hbuffer interactive fd offset).part
        fun _ _ _ _ h => h.elim) fun reading => Ensures.and_pre fun hfit => ?_
      cases reading with
      | exhausted => exact Ensures.done fun _ _ _ h => h
      | interrupted => exact ih offset
      | line chunk =>
          refine Ensures.bind ((ensures_runLine hhome interactive (hfit chunk rfl)).part
            fun _ _ _ _ h => h) fun next => ?_
          cases next with
          | leaveAll => exact Ensures.done fun _ _ _ h => h
          | leaveSource => exact Ensures.done fun _ _ _ h => h
          | goOn => exact ih _

theorem ensures_openScript (path : Text) :
    Ensures InMemory.answer (AtWork buffer files) (Shell.openScript path)
      (fun _ => AtWork buffer files) (fun _ => Never) Never := by
  refine Ensures.bind (ensures_openReadOnly path).attempt fun outcome => ?_
  cases outcome with
  | ok fd => exact Ensures.done fun _ _ _ h => h
  | error e =>
      refine Ensures.and_pre fun he => ?_
      subst he
      exact Ensures.bind (ensures_log _) fun _ => Ensures.done fun _ _ _ h => h

theorem ensures_runScript (hbuffer : buffer.Sized)
    (hprompt : ∃ suffix, shell.promptSuffix = .text suffix) (hhome : ∃ path, shell.home = .text path)
    (rounds : Nat) (script : Text) :
    Ensures InMemory.answer (AtWork buffer files) (shell.runScript rounds script)
      (fun _ => AtWork buffer files) (Refused shell buffer files) fun _ _ _ => True := by
  refine Ensures.state_bind fun s => Ensures.weaken ?_ fun _ _ _ h => h.2
  refine Ensures.bind (ensures_getPath.part fun _ _ _ _ h => h.elim) fun searchPath => ?_
  refine Ensures.bind ((Lookup.ensures_resolve ensures_isFile script s.cwd searchPath).part
    fun _ _ _ _ h => h.elim) fun path => Ensures.and_pre fun _ => ?_
  refine Ensures.bind ((ensures_openScript path).part fun _ _ _ _ h => h.elim) fun opened => ?_
  cases opened with
  | none => exact Ensures.done fun _ _ _ h => h
  | some fd =>
      refine Ensures.bind ((ensures_log _).part fun _ _ _ _ h => h.elim) fun _ => ?_
      refine Ensures.andFinally (ensures_runFrom hbuffer hprompt hhome fd false rounds 0)
        (fun _ => (ensures_close fd).part fun _ _ _ _ h => h.elim) fun e => Ensures.and_pre fun hrefused => ?_
      exact ((ensures_close fd).part fun _ _ _ _ h => h.elim).mono_returns fun _ _ _ _ h => ⟨hrefused, h⟩

/-- Without other faults a run comes to its end, unless its first line is refused. -/
theorem ensures_run (hbuffer : buffer.Sized) (hprompt : ∃ suffix, shell.promptSuffix = .text suffix)
    (hhome : ∃ path, shell.home = .text path) (rounds : Nat) (scripts : List Text) :
    Ensures InMemory.answer (AtWork buffer files) (shell.run rounds scripts)
      (fun status _ _ _ => status = 0) (Refused shell buffer files) fun _ _ _ => True := by
  have hscripts : Ensures InMemory.answer (AtWork buffer files) (shell.runScripts rounds scripts)
      (fun _ => AtWork buffer files) (Refused shell buffer files) fun _ _ _ => True := by
    induction scripts with
    | nil => exact Ensures.done fun _ _ _ h => h
    | cons script rest ih =>
        refine Ensures.bind (ensures_runScript hbuffer hprompt hhome rounds script) fun goOn => ?_
        cases goOn with
        | true => exact ih
        | false => exact Ensures.done fun _ _ _ h => h
  rw [Shell.run_eq_work]
  refine Ensures.bind (ensures_publishCwd.part fun _ _ _ _ h => h.elim) fun _ => ?_
  refine Ensures.orElse (m := Refused shell buffer files) (Ensures.bind hscripts fun goOn => ?_)
    fun e => Ensures.and_pre fun hrefused => ?_
  · cases goOn with
    | false => exact Ensures.done fun _ _ _ _ => rfl
    | true =>
        exact Ensures.bind (ensures_runFrom hbuffer hprompt hhome standardInput true rounds 0) fun _ =>
          Ensures.done fun _ _ _ _ => rfl
  · obtain ⟨hmarker, rfl⟩ := hrefused
    exact Ensures.fail fun _ _ _ h => ⟨⟨hmarker, rfl⟩, h⟩

end AtWork

end Work

/-! ## What comes next -/

section Next

variable {t : Session} {u : InMemory}

/-- A run that goes on, behind what was seen by then, as another program runs from there. -/
def Outcome.GoesOn (o : Outcome Session InMemory ServiceCall.Reply Int)
    (past : List (Event ServiceCall.Reply)) (p : Action Int) (t : Session) (u : InMemory) : Prop :=
  o = { p.run InMemory.answer t u with events := past ++ (p.run InMemory.answer t u).events }

/-- In standard input the prompt is shown and the next line is read. -/
theorem InMemory.Crowded.passes_runFrom (h : u.Crowded) {shell : Shell} {suffix : Text}
    (hsuffix : shell.promptSuffix = .text suffix) (rounds : Nat) (offset : Int) :
    ∃ outcome y, Passes InMemory.answer
      ⟨shell.runFrom (Builtin.dispatch shell.home) standardInput true (rounds + 1) offset, t, u⟩
      [.called (.write standardOutput (t.cwd ++ suffix)) (.ok ()),
        .called (.readLine standardInput offset t.line.size) outcome] y := by
  have hprompt : (shell.announce true).run InMemory.answer t u = ⟨.returned (), t, u,
      [.called (.write standardOutput (t.cwd ++ suffix)) (.ok ())]⟩ := by
    have hshows : shell.announce true = state.bind fun s => Shell.print (s.cwd ++ suffix) := by
      simp only [Shell.announce, Shell.prompt, hsuffix]
      rfl
    have hwrite : InMemory.answer (.write standardOutput (t.cwd ++ suffix)) u = ⟨.ok (), u, []⟩ :=
      h.answer_other nofun
    rw [hshows, run_bind]
    simp only [run_state, Outcome.andThen, Shell.print, ask, run_request, hwrite]
    rfl
  have hshown := passes_run InMemory.answer (shell.announce true) t u
  rw [hprompt] at hshown
  -- what is left of the round begins with the line
  have hread : ∃ y, Passes InMemory.answer ⟨Shell.readLine true standardInput offset, t, u⟩
      [.called (.readLine standardInput offset t.line.size)
        (InMemory.answer (.readLine standardInput offset t.line.size) u).outcome] y := by
    rw [Shell.readLine_eq]
    exact ⟨_, (Passes.start.next_silent rfl rfl).trans (Passes.asked (InMemory.answer_inner _ _))⟩
  obtain ⟨y, hread⟩ := hread
  exact ⟨_, _, (hshown.bind _).trans (hread.bind _)⟩

end Next

namespace Shell

/-- What was opened as a script is not standard input. -/
theorem ne_standardInput_of_opened {shell : Shell} {rounds : Nat} {scripts : List Text} {s : Session}
    {w : InMemory} (hfd : standardInput < w.nextFd) {past : List (Event ServiceCall.Reply)}
    {x : Point Session InMemory ServiceCall.Reply Int}
    (hpass : Passes InMemory.answer ⟨shell.run rounds scripts, s, w⟩ past x) {path : Text} {fd : Int}
    (hopened : .called (.openReadOnly path) (.ok fd) ∈ past) : fd ≠ standardInput := by
  rintro rfl
  refine (Descriptors.run_fresh shell rounds scripts s hfd).2 ?_
  rw [hpass.run_eq]
  exact List.mem_filterMap.mpr ⟨_, List.mem_append_left _ hopened, rfl⟩

/-- The run comes to its end with the status of success, unless its first line is refused. -/
theorem ending_of_crowded (shell : Shell) {suffix home : Text} (hsuffix : shell.promptSuffix = .text suffix)
    (hhome : shell.home = .text home) {memory : Nat} {size : Value} {buffer : LineBuffer}
    (hsize : LineBuffer.ofSetting memory size = .ok buffer) {s : Session} (hs : buffer.SameSize s.line)
    {w : InMemory} (hcrowded : w.Crowded) {rounds : Nat}
    (hrounds : w.longestSource + w.faults.length < rounds) (scripts : List Text) :
    let o := (shell.run rounds scripts).run InMemory.answer s w
    o.ending = .returned 0 ∨ ¬shell.marker.val < 256 ∧ o.ending = .failed refusal := by
  intro o
  have hrun := AtWork.ensures_run (LineBuffer.sized_of_setting hsize) ⟨suffix, hsuffix⟩ ⟨home, hhome⟩
    rounds scripts [] s w ⟨hs, rfl, hcrowded⟩
  change o.ending.choose _ _ _ o.events o.state o.world at hrun
  cases hend : o.ending with
  | returned status =>
      rw [hend] at hrun
      exact .inl (congrArg Ending.returned hrun)
  | failed e =>
      rw [hend] at hrun
      exact .inr ⟨hrun.1.1, congrArg Ending.failed hrun.1.2⟩
  | outOfRounds => exact absurd hend (run_ne_outOfRounds shell s hrounds scripts)

/-- Each child that cannot be made is told once, and the session stays as it was.  The script that the line
came from is closed and the run goes on with the scripts that had no turn yet; in standard input the next
line is awaited.  So the run comes to its end with the status of success, unless the marker is no byte: then
the first line ends it. -/
theorem run_unmade (shell : Shell) {suffix home : Text} (hsuffix : shell.promptSuffix = .text suffix)
    (hhome : shell.home = .text home) {memory : Nat} {size : Value} {buffer : LineBuffer}
    (hsize : LineBuffer.ofSetting memory size = .ok buffer) {s : Session} (hs : buffer.SameSize s.line)
    {w : InMemory} (hcrowded : w.Crowded) (hfd : standardInput < w.nextFd) {rounds : Nat}
    (hrounds : w.longestSource + w.faults.length < rounds) (scripts : List Text) :
    let o := (shell.run rounds scripts).run InMemory.answer s w
    (o.ending = .returned 0 ∨ ¬shell.marker.val < 256 ∧ o.ending = .failed refusal) ∧
    ∀ past e after, o.events = past ++ .called .fork (.error e) :: after →
      ∃ next t v r before fd offset capacity line,
        Passes InMemory.answer ⟨shell.run rounds scripts, s, w⟩ past ⟨.call .fork next, t, v⟩ ∧
        e.reportOf? .forkFailed = some r ∧
        past = before ++ [.called (.readLine fd offset capacity) (.ok line)] ∧
        let told := past ++ .called .fork (.error e) :: unmadeEvents r
        let u := v.ready .fork
        if fd = standardInput then
          ∃ left outcome later,
            o.GoesOn told (((shell.runFrom (Builtin.dispatch shell.home) standardInput true left
              (offset + line.length)).bind fun _ => done 0).orElse lastWords) t u ∧
            o.events = told ++ .called (.write standardOutput (t.cwd ++ suffix)) (.ok ()) ::
              .called (.readLine standardInput (offset + line.length) t.line.size) outcome :: later
        else
          o.GoesOn (told ++ [.called (.close fd) (.ok ())])
            ((shell.work rounds (scripts.drop (openings past).length)).orElse lastWords) t
            (u.serve (.close fd)).2 := by
  intro o
  have hends : o.ending ≠ .outOfRounds := run_ne_outOfRounds shell s hrounds scripts
  constructor
  · exact ending_of_crowded shell hsuffix hhome hsize hs hcrowded hrounds scripts
  · intro past e after hevents
    obtain ⟨next, t, v, hpass, he⟩ := Passes.exists_call (fun c => InMemory.answer_inner c) hevents
    -- nothing but that call may fail on the way
    have hv : v.Crowded := hpass.kept (P := fun _ w => w.Crowded) (fun c _ _ h => h.answer c)
      (fun _ _ _ h => h) hcrowded
    obtain ⟨r, hr, hunmade⟩ := hv.answer_fork_error he
    have hu : (v.ready .fork).Crowded := hv.ready .fork
    obtain ⟨k, ⟨rest, rfl, hleft⟩, hleaves⟩ := shell.sequel_unmade InMemory.answer_inner rounds scripts past
      .fork next t v hpass rfl
    have htold := hleaves e r (v.ready .fork) hr (hu.answer_other nofun)
    have hfork : Passes InMemory.answer ⟨.call .fork next, t, v⟩ [.called .fork (.error e)]
        ⟨next (.error e), t, v.ready .fork⟩ := Passes.answered hunmade
    have hgone := hpass.trans (hfork.trans htold)
    rcases hleft with ⟨_, ⟨before, offset, capacity, line, left, hpast, rfl⟩, rfl⟩ |
      ⟨earlier, path, fd, _, hpast, -, ⟨middle, offset, capacity, line, rfl⟩, rfl⟩
    · refine ⟨next, t, v, r, before, standardInput, offset, capacity, line, hpass, hr, hpast, ?_⟩
      dsimp only
      rw [if_pos rfl]
      cases left with
      | zero => exact absurd (congrArg Outcome.ending hgone.run_eq) hends
      | succ left =>
          obtain ⟨outcome, y, hnext⟩ :=
            hu.passes_runFrom (t := t) hsuffix left (offset + line.length)
          have hlater := hgone.trans ((hnext.bind fun _ => done 0).attempt.bind _)
          have hall := congrArg Outcome.events hlater.run_eq
          exact ⟨left + 1, outcome, _, hgone.run_eq, hall.trans (List.append_assoc _ _ _)⟩
    · have hscript : fd ≠ standardInput :=
        ne_standardInput_of_opened hfd hpass (hpast ▸ List.mem_append_right _ List.mem_cons_self)
      refine ⟨next, t, v, r, earlier ++ .called (.openReadOnly path) (.ok fd) :: middle, fd, offset,
        capacity, line, hpass, hr, ?_, ?_⟩
      · rw [hpast, List.append_assoc, List.cons_append]
      dsimp only
      rw [if_neg hscript]
      have hclose : Passes InMemory.answer ⟨(closingThen fd
            (shell.work rounds (scripts.drop (openings past).length))).orElse lastWords, t, v.ready .fork⟩
          [.called (.close fd) (.ok ())] ⟨(shell.work rounds (scripts.drop (openings past).length)).orElse
            lastWords, t, ((v.ready .fork).serve (.close fd)).2⟩ :=
        Passes.answered (hu.answer_other (c := .close fd) nofun)
      exact (hgone.trans hclose).run_eq

/-- What is reported when there are too many processes. -/
def tooMany : ErrorReport :=
  .forkFailed (.text "Resource temporarily unavailable") (.int 1) (.int 11) .null

/-- A world with a script of two commands and one more on standard input, in which no child is made. -/
def noChildren : InMemory :=
  .create [("/go", [0x6C, 0x73, 0x0A, 0x6C, 0x73, 0x0A])] [] "/" "" [0x6C, 0x73, 0x0A] [] [] false false
    [⟨.fork, 1, .report tooMany⟩, ⟨.fork, 2, .report tooMany⟩]

/-- The second line of the script is not read, and standard input is gone through. -/
theorem run_unmade_of_noChildren :
    let o := (Shell.default.run 12 ["/go"]).run InMemory.answer (.default "/") noChildren
    let past : List (Event ServiceCall.Reply) := [.called (.setPwd "/") (.ok ()),
      .called .getPath (.ok ""), .called (.openReadOnly "/go") (.ok (3 : Int)),
      .logged ⟨.debug, "shell", "Running script /go", none, [("fd", .int 3)]⟩,
      .called (.readLine 3 0 (.int 256)) (.ok [0x6C, 0x73, 0x0A])]
    o.ending = .returned 0 ∧ ∃ later,
      o.events = past ++ .called .fork (.error (.report tooMany)) :: unmadeEvents tooMany ++
        [.called (.close 3) (.ok ())] ++ later ∧
      chunks later = [[0x6C, 0x73, 0x0A]] := by
  intro o past
  have hsize : LineBuffer.ofSetting 1024 (.int 256) = .ok (.empty 256) := rfl
  have hcrowded : noChildren.Crowded := by
    refine ⟨fun f hf => ?_, by decide⟩
    have hfault : f = ⟨.fork, 1, .report tooMany⟩ ∨ f = ⟨.fork, 2, .report tooMany⟩ := by
      simpa [noChildren, InMemory.create] using hf
    rcases hfault with rfl | rfl <;> exact ⟨rfl, tooMany, rfl⟩
  have hsuffix : Shell.default.promptSuffix = .text "$ " := rfl
  have hhome : Shell.default.home = .text "/home" := rfl
  have hsame : (LineBuffer.empty 256).SameSize (Session.default "/").line := .refl _
  have hrounds : noChildren.longestSource + noChildren.faults.length < 12 := by decide
  have hunmade := run_unmade Shell.default hsuffix hhome hsize hsame hcrowded (by decide) hrounds ["/go"]
  have hsplit : o.events = past ++ .called .fork (.error (.report tooMany)) :: o.events.drop 6 := rfl
  obtain ⟨next, t, v, r, before, fd, offset, capacity, line, -, hr, hpast, hrest⟩ :=
    hunmade.2 _ _ _ hsplit
  cases hr
  -- the line was read from the script, which has the first descriptor that is given out
  let read : Event ServiceCall.Reply := .called (.readLine 3 0 (.int 256)) (.ok [0x6C, 0x73, 0x0A])
  have hlast : some read = _ := congrArg List.getLast? hpast
  rw [List.getLast?_concat] at hlast
  obtain ⟨hcall, -⟩ := Event.called.inj (Option.some.inj hlast)
  cases hcall
  have hscript : (3 : Int) ≠ standardInput := by decide
  dsimp only at hrest
  rw [if_neg hscript] at hrest
  have hevents := congrArg Outcome.events hrest
  have hlater : o.events.drop 9 = _ := congrArg (List.drop 9) hevents
  refine ⟨hunmade.1.resolve_right fun hrefused => hrefused.1 (by decide), _, hevents, ?_⟩
  exact (congrArg chunks hlater).symm.trans rfl

end Shell

end LineShell
