import LineShell.Proofs.Shell.Exit
import LineShell.Proofs.Shell.Lookup
import LineShell.Proofs.Shell.Seen

/-!
# Steps of a run without faults

`Calm` is what holds between two steps of a run without faults that was not cut short: where the shell
is, whose turn among the scripts it is, and how far the source was read.  `Astray` says that a last
line was read or that the run goes on in a child, and then nothing more is asked for.

Without faults a call is refused only by what it is asked for, so each step that is not a read keeps
`Calm`, and a change of directory moves it.
-/

namespace LineShell

open Program LineShell.Action

/-! ## Quiet events -/

/-- The services that neither open nor close a source, nor read from one, nor publish a directory. -/
def quietServices : List ServiceCall.Name :=
  [.write, .fileExists, .isDir, .getPwd, .getPath, .getPid, .fork, .exec, .waitpid, .exit]

/-- An event that concerns neither the sources nor the working directory. -/
def Event.Quiet : Event ServiceCall.Reply → Prop
  | .called c _ => quietServices.contains c.name
  | .logged _ => True

theorem lastPwd_of_quiet {e : Event ServiceCall.Reply} (h : e.Quiet) (pwd : Text) :
    lastPwd pwd [e] = pwd := by
  cases e with
  | called c outcome =>
      cases c with
      | setPwd path => cases h
      | _ => rfl
  | logged entry => rfl

theorem openings_of_quiet {e : Event ServiceCall.Reply} (h : e.Quiet) : openings [e] = [] := by
  cases e with
  | called c outcome =>
      cases c with
      | openReadOnly path => cases h
      | _ => rfl
  | logged entry => rfl

theorem bytesRead_of_quiet {e : Event ServiceCall.Reply} (h : e.Quiet) (fd : Int) :
    bytesRead fd [e] = [] := by
  cases e with
  | called c outcome =>
      cases c with
      | readLine source offset size => cases h
      | _ => rfl
  | logged entry => rfl

/-! ## Between two steps -/

/-- What a run starts from. -/
structure Tour where
  buffer : LineBuffer
  cwd : Text
  scripts : List Text
  files : List (Text × Bytes)
  searchPath : Text
  input : Bytes

namespace Tour

/-- Whether a path names a file. -/
def isFile (r : Tour) (path : Text) : Bool := (r.files.lookup path).isSome

/-- Each opening was that of the script whose turn it was, looked up from where the shell was by then,
and it went well just when there was such a file. -/
def OpenedInTurn (r : Tour) (past : List (Event ServiceCall.Reply)) : Prop :=
  ∀ before path outcome after, past = before ++ .called (.openReadOnly path) outcome :: after →
    ∃ script, r.scripts[(openings before).length]? = some script ∧
      path = Lookup.pathWhere r.isFile script (lastPwd r.cwd before) r.searchPath ∧
      ((∃ fd, outcome = .ok fd) ↔ r.isFile path = true)

/-- What holds between two steps of a run without faults: where the shell is, how many scripts had
their turn, and how far the source was read. -/
structure Calm (r : Tour) (cwd : Text) (count : Nat) (fd : Int) (content : Bytes) (offset : Nat)
    (past : List (Event ServiceCall.Reply)) (s : Session) (w : InMemory) : Prop where
  buffer : r.buffer.SameSize s.line
  nextFd : standardInput < w.nextFd
  faults : w.faults = []
  files : w.files = r.files
  searchPath : w.path = r.searchPath
  input : w.sources.lookup standardInput = some r.input
  source : w.sources.lookup fd = some content
  place : s.cwd = cwd
  published : lastPwd r.cwd past = cwd
  turns : (openings past).length = count
  opened : r.OpenedInTurn past
  read : bytesRead standardInput past = if fd = standardInput then r.input.take offset else []

variable {r : Tour} {cwd : Text} {count offset : Nat} {fd : Int} {content : Bytes}
  {past : List (Event ServiceCall.Reply)} {s t : Session} {w v : InMemory}

theorem OpenedInTurn.concat {e : Event ServiceCall.Reply} (hopen : openings [e] = [])
    (h : r.OpenedInTurn past) : r.OpenedInTurn (past ++ [e]) := by
  intro before path outcome after hsplit
  rcases concat_eq_append_cons hsplit with ⟨-, -, rfl⟩ | ⟨rest, -, hpast⟩
  · cases hopen
  · exact h before path outcome rest hpast

section Concat
variable {e : Event ServiceCall.Reply} (h : r.Calm cwd count fd content offset past s w)
include h

theorem Calm.published_concat (hpwd : lastPwd cwd [e] = cwd) :
    lastPwd r.cwd (past ++ [e]) = cwd := by
  rw [lastPwd_append, h.published]
  exact hpwd

theorem Calm.turns_concat (hopen : openings [e] = []) : (openings (past ++ [e])).length = count := by
  rw [openings_append, hopen, List.append_nil]
  exact h.turns

theorem Calm.read_concat (hread : bytesRead standardInput [e] = []) :
    bytesRead standardInput (past ++ [e]) =
      if fd = standardInput then r.input.take offset else [] := by
  rw [bytesRead_append, hread, List.append_nil]
  exact h.read

/-- An event that publishes no other directory, opens no source and brings no bytes. -/
theorem Calm.concat (hpwd : lastPwd cwd [e] = cwd) (hopen : openings [e] = [])
    (hread : bytesRead standardInput [e] = []) :
    r.Calm cwd count fd content offset (past ++ [e]) s w :=
  { h with
    published := h.published_concat hpwd
    turns := h.turns_concat hopen
    opened := h.opened.concat hopen
    read := h.read_concat hread }

/-- A quiet event, with a change that concerns neither the buffer nor where the shell is. -/
theorem Calm.quiet (he : e.Quiet) (hbuffer : s.line.SameSize t.line) (hcwd : t.cwd = s.cwd) :
    r.Calm cwd count fd content offset (past ++ [e]) t w :=
  { h.concat (lastPwd_of_quiet he cwd) (openings_of_quiet he) (bytesRead_of_quiet he _) with
    buffer := h.buffer.trans hbuffer
    place := hcwd.trans h.place }

end Concat

/-- A call that was carried out and concerns no source. -/
theorem Calm.serve {c : ServiceCall} (hopen : c.name ≠ .openReadOnly) (hclose : c.name ≠ .close)
    (h : r.Calm cwd count fd content offset past s w) :
    r.Calm cwd count fd content offset past s (w.serve c).2 where
  buffer := h.buffer
  nextFd := Int.lt_of_lt_of_le h.nextFd (InMemory.nextFd_le_serve c w)
  faults := (InMemory.serve_faults c w).trans h.faults
  files := (InMemory.serve_files c w).trans h.files
  searchPath := (InMemory.serve_path c w).trans h.searchPath
  input := by rw [InMemory.serve_sources hopen hclose]; exact h.input
  source := by rw [InMemory.serve_sources hopen hclose]; exact h.source
  place := h.place
  published := h.published
  turns := h.turns
  opened := h.opened
  read := h.read

/-- A call in a world without faults. -/
theorem ensures_request {c : ServiceCall}
    {returns : c.Reply → Assertion Session InMemory ServiceCall.Reply}
    {fails : Failure → Assertion Session InMemory ServiceCall.Reply}
    (hok : ∀ past s w reply, r.Calm cwd count fd content offset past s w →
      (w.serve c).1 = .ok reply → returns reply (past ++ [.called c (.ok reply)]) s (w.serve c).2)
    (herror : ∀ past s w e, r.Calm cwd count fd content offset past s w →
      (w.serve c).1 = .error e → fails e (past ++ [.called c (.error e)]) s (w.serve c).2) :
    Ensures InMemory.answer (r.Calm cwd count fd content offset) (ask c) returns fails Never := by
  refine Ensures.request_alone (InMemory.answer_inner _) (fun past s w reply h hreply => ?_)
    fun past s w e h he => ?_
  · rw [InMemory.answer_of_faults_nil h.faults] at hreply ⊢
    exact hok past s w reply h hreply
  · rw [InMemory.answer_of_faults_nil h.faults] at he ⊢
    exact herror past s w e h he

/-- A quiet call that is always carried out, with what is known of its reply. -/
theorem ensures_ask {c : ServiceCall} {R : c.Reply → Prop} (hquiet : quietServices.contains c.name)
    (hserve : ∀ w : InMemory, w.files = r.files → w.path = r.searchPath →
      ∃ reply, (w.serve c).1 = .ok reply ∧ R reply) :
    Ensures InMemory.answer (r.Calm cwd count fd content offset) (ask c)
      (fun reply past s w => (R reply ∧ .called c (.ok reply) ∈ past) ∧
        r.Calm cwd count fd content offset past s w) (fun _ => Never) Never := by
  -- neither of the two calls that concern the sources is quiet
  have hname : c.name ≠ .openReadOnly ∧ c.name ≠ .close :=
    ⟨Shell.name_ne_of_mem hquiet rfl, Shell.name_ne_of_mem hquiet rfl⟩
  refine ensures_request (fun past s w reply h hreply => ?_) fun past s w e h he => ?_
  · obtain ⟨reply', hreply', hR⟩ := hserve w h.files h.searchPath
    rw [hreply] at hreply'
    cases hreply'
    refine ⟨⟨hR, by simp⟩, ?_⟩
    exact (h.serve hname.1 hname.2).quiet hquiet (LineBuffer.SameSize.refl _) rfl
  · obtain ⟨reply, hreply, -⟩ := hserve w h.files h.searchPath
    rw [he] at hreply
    cases hreply

/-- The shell knows where it is. -/
theorem ensures_state_bind {α : Type} {f : Session → Action α}
    {returns : α → Assertion Session InMemory ServiceCall.Reply}
    {fails : Failure → Assertion Session InMemory ServiceCall.Reply}
    {stops : Assertion Session InMemory ServiceCall.Reply}
    (hf : ∀ s : Session, s.cwd = cwd →
      Ensures InMemory.answer (r.Calm cwd count fd content offset) (f s) returns fails stops) :
    Ensures InMemory.answer (r.Calm cwd count fd content offset) (state.bind f) returns fails
      stops := by
  refine Ensures.state_bind fun s => ?_
  rintro past t w ⟨rfl, h⟩
  exact hf t h.place past t w h

theorem ensures_log (entry : Log.Entry) :
    Ensures InMemory.answer (r.Calm cwd count fd content offset) (Program.log entry)
      (fun _ => r.Calm cwd count fd content offset) (fun _ => Never) Never :=
  Ensures.log fun _ _ _ h => h.quiet trivial (LineBuffer.SameSize.refl _) rfl

theorem ensures_print (text : Text) :
    Ensures InMemory.answer (r.Calm cwd count fd content offset) (Shell.print text)
      (fun _ => r.Calm cwd count fd content offset) (fun _ => Never) Never :=
  (ensures_ask (c := .write standardOutput text) (R := fun _ => True) rfl
    fun _ _ _ => ⟨(), rfl, trivial⟩).mono_returns fun _ _ _ _ h => h.2

/-! ## The working directory -/

/-- Publishing a directory that is none is refused. -/
theorem ensures_setPwd (path : Text) :
    Ensures InMemory.answer (r.Calm cwd count fd content offset) (ask (.setPwd path))
      (fun _ past s w => s.cwd = cwd ∧
        r.Calm path count fd content offset past { s with cwd := path } w)
      (fun e past s w => e = .notADirectory (.text path) [] ∧
        r.Calm cwd count fd content offset past s w) Never := by
  refine ensures_request (fun past s w _ h hreply => ?_) fun past s w e h he => ?_
  · have hserve := h.serve (c := .setPwd path) nofun nofun
    have hpwd : lastPwd r.cwd (past ++ [.called (.setPwd path) (.ok ())]) = path := by
      rw [lastPwd_append]
      rfl
    exact ⟨h.place, { hserve with
      place := rfl
      published := hpwd
      turns := h.turns_concat rfl
      opened := h.opened.concat rfl
      read := h.read_concat rfl }⟩
  · have hserve := h.serve (c := .setPwd path) nofun nofun
    refine ⟨?_, hserve.concat rfl rfl rfl⟩
    simp only [InMemory.serve] at he
    split at he
    · cases he
    · exact (Except.error.inj he).symm

theorem ensures_publishCwd :
    Ensures InMemory.answer (r.Calm cwd count fd content offset) Shell.publishCwd
      (fun _ => r.Calm cwd count fd content offset) (fun _ => Never) Never := by
  refine ensures_state_bind fun s hcwd => ?_
  rw [hcwd]
  refine Ensures.orElse ((ensures_setPwd cwd).mono_returns fun _ past s w h => ?_) fun e =>
    Ensures.and_pre fun he => ?_
  · obtain ⟨rfl, hcalm⟩ := h
    exact hcalm
  · subst he
    exact ensures_log _

/-- A change of directory is reported when it cannot be made, so it never fails. -/
theorem ensures_dispatch {home : Value} (hhome : ∃ path, home = .text path) {tokens : List Text}
    (h : Builtin.ofName? (tokens.headD []) ≠ some .exit) :
    Ensures InMemory.answer (r.Calm cwd count fd content offset) (Builtin.dispatch home tokens)
      (fun verdict past s w => verdict ≠ .exit ∧
        ∃ cwd, r.Calm cwd count fd content offset past s w) (fun _ => Never) Never := by
  simp only [Builtin.dispatch]
  cases hcommand : Builtin.ofName? (tokens.headD []) with
  | none => exact Ensures.done fun _ _ _ h => ⟨by decide, cwd, h⟩
  | some command =>
      cases command with
      | exit => exact absurd hcommand h
      | cd =>
          -- with a home that is text nothing fails but a target that is no directory
          refine Ensures.orElse (m := fun e past s w => (∃ target, e = .notADirectory target []) ∧
            r.Calm cwd count fd content offset past s w) ?_ fun e => Ensures.and_pre fun he => ?_
          · refine Ensures.state_bind fun s => Ensures.weaken ?_ fun _ _ _ h => h.2
            obtain ⟨path, htarget⟩ : ∃ path, Builtin.target home s.cwd tokens.tail = .text path := by
              cases tokens.tail with
              | nil => exact hhome
              | cons argument rest => exact ⟨_, rfl⟩
            rw [htarget]
            refine Ensures.bind ((ensures_ask (R := fun _ => True) (c := .isDir (.text path)) rfl
              fun _ _ _ => ⟨_, rfl, trivial⟩).mono_fails fun _ _ _ _ h => h.elim) fun isDirectory =>
                Ensures.weaken ?_ fun _ _ _ h => h.2
            cases isDirectory with
            | false => exact Ensures.fail fun _ _ _ h => ⟨⟨_, rfl⟩, h⟩
            | true =>
                refine Ensures.bind ((ensures_setPwd path).mono_fails fun _ _ _ _ h =>
                  ⟨⟨_, h.1⟩, h.2⟩) fun _ => ?_
                refine Ensures.bind (m := fun _ => r.Calm path count fd content offset)
                  (Ensures.update fun _ _ _ h => h.2) fun _ => ?_
                refine Ensures.bind ((ensures_log _).mono_fails fun _ _ _ _ h => h.elim) fun _ => ?_
                exact Ensures.done fun _ _ _ h => ⟨by decide, path, h⟩
          · obtain ⟨target, rfl⟩ := he
            refine Ensures.bind (ensures_log _) fun _ => ?_
            refine Ensures.bind (ensures_print _) fun _ => ?_
            exact Ensures.done fun _ _ _ h => ⟨by decide, cwd, h⟩

/-! ## Children -/

/-- A last line was read, or this is a child. -/
def Astray (shell : Shell) (past : List (Event ServiceCall.Reply)) : Prop :=
  ∃ e ∈ past, shell.ReadsLast e ∨ e = .called .fork (.ok (0 : Int))

theorem lasting_astray (shell : Shell) : Lasting (Astray shell) := lasting_exists_mem _

theorem indifferent_calm : Child.Indifferent (r.Calm cwd count fd content offset) where
  foreground _ _ _ _ h := { h with }
  logged _ _ _ _ _ h := h.quiet trivial (LineBuffer.SameSize.refl _) rfl

/-- Without faults a child is always made. -/
theorem ensures_spawnOrReport (shell : Shell) :
    Ensures InMemory.answer (r.Calm cwd count fd content offset) Shell.spawnOrReport
      (fun child past s w => ∃ pid, child = some pid ∧ (pid = 0 → Astray shell past) ∧
        r.Calm cwd count fd content offset past s w) (fun _ => Never) Never := by
  have hfork : Ensures InMemory.answer (r.Calm cwd count fd content offset) (ask .fork)
      (fun (pid : Int) past s w => (pid = 0 → Astray shell past) ∧
        r.Calm cwd count fd content offset past s w) (fun _ => Never) Never := by
    refine (ensures_ask (c := .fork) (R := fun _ => True) rfl fun _ _ _ =>
      ⟨_, rfl, trivial⟩).mono_returns fun pid past s w h => ⟨fun hpid => ?_, h.2⟩
    exact ⟨_, h.1.2, .inr (by rw [hpid])⟩
  have hspawn : Ensures InMemory.answer (r.Calm cwd count fd content offset) Child.spawn
      (fun pid past s w => (pid = 0 → Astray shell past) ∧
        r.Calm cwd count fd content offset past s w) (fun _ => Never) Never := by
    rw [Child.spawn_eq]
    refine Ensures.bind (hfork.orElse fun e past s w h => h.elim) fun pid => ?_
    have hlasting : Lasting fun past => pid = 0 → Astray shell past :=
      fun _ _ h hpid => lasting_astray shell _ _ (h hpid)
    exact Ensures.bind ((indifferent_calm.and_lasting hlasting).ensures_made pid) fun _ =>
      Ensures.done fun _ _ _ h => h
  refine Ensures.bind hspawn.attempt fun outcome => ?_
  cases outcome with
  | ok pid => exact Ensures.done fun _ _ _ h => ⟨pid, rfl, h⟩
  | error e => exact fun past s w h => h.elim

theorem ensures_wait (pid : Int) (timeout : Value) :
    Ensures InMemory.answer (r.Calm cwd count fd content offset) (Child.wait pid timeout)
      (fun _ => r.Calm cwd count fd content offset) (fun _ => Never) Never := by
  rw [Child.wait_eq]
  refine Ensures.bind (ensures_ask (c := .waitpid pid timeout) (R := fun _ => True) rfl
    fun _ _ _ => ⟨_, rfl, trivial⟩) fun outcome => ?_
  exact (indifferent_calm.ensures_awaited pid outcome).weaken fun _ _ _ h => h.2

/-- A command is run in a child, unless this is the child. -/
theorem ensures_runInChild (shell : Shell) (tokens : List Text) :
    EnsuresUnless InMemory.answer (Astray shell) (r.Calm cwd count fd content offset)
      (shell.runInChild tokens)
      (fun made past s w => made = true ∧ r.Calm cwd count fd content offset past s w)
      (fun _ => Never) Never := by
  refine EnsuresUnless.bind (lasting_astray shell) (.of_ensures (ensures_spawnOrReport shell))
    fun child => Ensures.exists_pre fun pid => Ensures.and_pre fun hchild => ?_
  subst hchild
  by_cases hpid : pid = 0
  · -- the run goes on in the child, which is one of the two things that keep it from its input
    refine Ensures.weaken (EnsuresUnless.seen (lasting_astray shell)) fun past s w h => h.1 hpid
  · simp only [if_neg hpid, bind_eq_bind, pure_eq_done]
    refine Ensures.weaken (EnsuresUnless.of_ensures ?_) fun _ _ _ h => h.2
    refine Ensures.bind (ensures_wait pid shell.waitTimeout) fun _ => ?_
    exact Ensures.done fun _ _ _ h => ⟨rfl, h⟩

end Tour

end LineShell
