import LineShell.Proofs.Shell.AsWritten

/-!
# Directories that are refused

Of a directory that `cd` cannot go to the user is told in one line, which names it byte for byte
(`Builtin.complaint`), and otherwise nothing is written.  A directory is `Refused` where the operating
system says that there is none, or does not let the process enter it.

Up to the line that tells of it nothing is written at all, so the proof follows two states: nothing was
refused so far (`Unrefused`), or something was and is still to be told (`Untold`).  The main result is
`Shell.run_cd`.
-/

namespace LineShell

open Program LineShell.Action
open OsWorld (answer)
open Text.Utf8 (encode? decode)
open Lookup (separatorByte)

/-! ## The line that tells of it -/

namespace Builtin

/-- The bytes of the command `cd`. -/
def cdBytes : Bytes := [0x63, 0x64]

/-- The bytes of the directory that `cd` goes to: of the home directory without arguments, and else of
the first one, behind the working directory and a slash unless it starts at the root. -/
def targetBytes? (home : Value) (cwd : Text) : List Bytes → Option Bytes
  | [] =>
    match home with
    | .text path => encode? path
    | _ => none
  | name :: _ =>
    if name.head? = some separatorByte then some name
    else (encode? cwd).map (· ++ separatorByte :: name)

/-- What the user is told of a directory that was refused. -/
def complaint (target : Bytes) : Bytes :=
  ("no such directory: " : Text).map (fun c => UInt8.ofNat c.val) ++ target ++ [0x0A]

theorem exists_target {home : Value} {cwd : Text} {arguments : List Bytes} {bytes : Bytes}
    (h : targetBytes? home cwd arguments = some bytes) :
    ∃ path, target home cwd (arguments.map decode) = .text path ∧ encode? path = some bytes := by
  cases arguments with
  | nil =>
      cases home with
      | text path => exact ⟨path, rfl, h⟩
      | _ => cases h
  | cons name rest =>
      refine ⟨_, rfl, ?_⟩
      unfold Lookup.absolute
      dsimp only [targetBytes?] at h
      by_cases habsolute : name.head? = some separatorByte
      · rw [if_pos habsolute] at h
        rw [if_pos (Lookup.isAbsolute_decode.mpr habsolute), Text.Utf8.encode?_decode, h]
      · rw [if_neg habsolute] at h
        rw [if_neg fun hname => habsolute (Lookup.isAbsolute_decode.mp hname),
          Lookup.encode?_join _ (Text.Utf8.encode?_decode name), h]

/-- The report of a refused directory is written as the bytes of the directory. -/
theorem encode?_report {path : Text} {bytes : Bytes} (h : encode? path = some bytes) :
    encode? (("no such directory: " : Text) ++ path ++ "\n") = some (complaint bytes) := by
  have hascii : ("no such directory: " : Text).all (·.val < 0x80) = true := rfl
  have hnewline : encode? ("\n" : Text) = some [0x0A] := rfl
  rw [Text.Utf8.encode?_append_of_some _ hnewline, Text.Utf8.encode?_append_of_some _ h,
    Text.Utf8.encode?_ascii (by simpa using hascii)]
  rfl

end Builtin

/-! ## Refusals -/

/-- The operating system says that a path names no directory, or does not let it be entered. -/
def Event.Refuses : Event OsCall.Reply → Prop
  | .called (.isDir _) (.ok found) => found = false
  | .called (.chdir _) (.error (.os ..)) => True
  | _ => False

/-- A directory was refused. -/
def Refused (events : List (Event OsCall.Reply)) : Prop := ∃ event ∈ events, event.Refuses

/-- Writing goes through, and the failures to come are those of an operating system, which knows nothing
of reports. -/
structure OsWorld.Tells (w : OsWorld) : Prop where
  accepts : w.Accepts
  plain : ∀ f ∈ w.faults, f.failure.fileReport? = none

theorem OsWorld.Tells.answer {w : OsWorld} (h : w.Tells) {c : OsCall} (hc : c.name ≠ .waitpid) :
    (OsWorld.answer c w).world.Tells := by
  have hready : (w.ready c).Tells := by
    refine ⟨⟨fun f hf => ?_, h.accepts.takes⟩, fun f hf => ?_⟩
    · obtain ⟨g, hg, hcall, -⟩ := Fault.exists_of_mem_advance hf
      rw [← hcall]
      exact h.accepts.unhit g hg
    · obtain ⟨g, hg, -, hfailure⟩ := Fault.exists_of_mem_advance hf
      rw [← hfailure]
      exact h.plain g hg
  have hserved : ((w.ready c).serve c).2.Tells := by
    refine ⟨⟨?_, ?_⟩, ?_⟩
    · rw [OsWorld.serve_faults]
      exact hready.accepts.unhit
    · rw [OsWorld.serve_writeMax]
      exact hready.accepts.takes
    · rw [OsWorld.serve_faults]
      exact hready.plain
  rcases OsWorld.answer_cases hc w with ⟨f, -, -, hanswer⟩ | hanswer
  · rw [hanswer]
    exact hready
  · rw [hanswer]
    exact hserved

theorem OsWorld.Tells.fileReport?_eq_none {w : OsWorld} (h : w.Tells) {c : OsCall}
    (hwait : c.name ≠ .waitpid) (hexecve : c.name ≠ .execve) {e : Failure}
    (he : (OsWorld.answer c w).outcome = .error e) : e.fileReport? = none := by
  rcases OsWorld.answer_cases hwait w with ⟨f, hf, -, hanswer⟩ | hanswer
  · rw [hanswer] at he
    rw [← Except.error.inj he]
    exact h.plain f hf
  · rw [hanswer] at he
    exact OsWorld.fileReport?_of_serve_error hexecve he

/-- Nothing was refused and nothing was written. -/
def Unrefused : Assertion Session OsWorld OsCall.Reply := fun past _ w =>
  ¬Refused past ∧ delivered standardOutput past = [] ∧ w.Tells

/-- Something was refused, and nothing was written. -/
def Untold : Assertion Session OsWorld OsCall.Reply := fun past _ w =>
  Refused past ∧ delivered standardOutput past = [] ∧ w.Tells

variable {past : List (Event OsCall.Reply)} {s : Session} {w v : OsWorld} {event : Event OsCall.Reply}

theorem Unrefused.concat (h : Unrefused past s w) (hevent : ¬event.Refuses)
    (hnothing : delivered standardOutput [event] = []) (hv : v.Tells) :
    Unrefused (past ++ [event]) s v := by
  refine ⟨?_, ?_, hv⟩
  · rintro ⟨other, hmem, hrefuses⟩
    rcases List.mem_append.mp hmem with hpast | hlast
    · exact h.1 ⟨other, hpast, hrefuses⟩
    · exact hevent (List.mem_singleton.mp hlast ▸ hrefuses)
  · rw [delivered_append, h.2.1, hnothing]
    rfl

theorem Unrefused.refused (h : Unrefused past s w) (hevent : event.Refuses)
    (hnothing : delivered standardOutput [event] = []) (hv : v.Tells) :
    Untold (past ++ [event]) s v := by
  refine ⟨⟨event, List.mem_concat_self, hevent⟩, ?_, hv⟩
  rw [delivered_append, h.2.1, hnothing]
  rfl

theorem Unrefused.logged (h : Unrefused past s w) (entry : Log.Entry) :
    Unrefused (past ++ [.logged entry]) s w := h.concat id rfl h.2.2

theorem Untold.logged (h : Untold past s w) (entry : Log.Entry) :
    Untold (past ++ [.logged entry]) s w := by
  refine ⟨lasting_exists_mem _ _ _ h.1, ?_, h.2.2⟩
  rw [delivered_append, h.2.1]
  rfl

/-- A failure that is no report, where nothing was refused. -/
def Unreported (e : Failure) : Assertion Session OsWorld OsCall.Reply := fun past s w =>
  e.fileReport? = none ∧ Unrefused past s w

/-- The report that a directory was refused. -/
def Reported (path : Text) (e : Failure) : Assertion Session OsWorld OsCall.Reply := fun past s w =>
  (∃ given, e = .notADirectory (.text path) given) ∧ Untold past s w

/-! ## Changing the directory -/

variable {spare : Nat} {path : Text}

theorem ensures_isDir_refused :
    Ensures answer Unrefused (Host.carryOut spare (.isDir (.text path)))
      (fun found past s w => if found then Unrefused past s w else Untold past s w) Unreported Never := by
  have hwait : (OsCall.isDir (.text path)).name ≠ .waitpid := nofun
  refine Ensures.request_alone (OsWorld.answer_inner_of_ne hwait) (fun past s w found h _ => ?_)
    fun past s w e h he => ⟨h.2.2.fileReport?_eq_none hwait nofun he, ?_⟩
  · cases found with
    | true => exact h.concat Bool.noConfusion rfl (h.2.2.answer hwait)
    | false => exact h.refused rfl rfl (h.2.2.answer hwait)
  · exact h.concat id rfl (h.2.2.answer hwait)

theorem ensures_chdir_refused :
    Ensures answer Unrefused (OsCall.ask (.chdir path)) (fun _ => Unrefused)
      (fun
        | .os .. => Untold
        | e => Unreported e) Never := by
  have hwait : (OsCall.chdir path).name ≠ .waitpid := nofun
  refine Ensures.request_alone (OsWorld.answer_inner_of_ne hwait)
    (fun past s w nothing h _ => h.concat id rfl (h.2.2.answer hwait)) fun past s w e h he => ?_
  have hplain := h.2.2.fileReport?_eq_none hwait nofun he
  have hnext := h.2.2.answer hwait
  cases e with
  | os errno text => exact h.refused trivial rfl hnext
  | _ => exact ⟨hplain, h.concat id rfl hnext⟩

theorem ensures_setVariable_refused (name value : Text) :
    Ensures answer Unrefused (OsCall.ask (.setVariable name value)) (fun _ => Unrefused)
      Unreported Never := by
  have hwait : (OsCall.setVariable name value).name ≠ .waitpid := nofun
  refine Ensures.request_alone (OsWorld.answer_inner_of_ne hwait)
    (fun past s w nothing h _ => h.concat id rfl (h.2.2.answer hwait)) fun past s w e h he => ?_
  exact ⟨h.2.2.fileReport?_eq_none hwait nofun he, h.concat id rfl (h.2.2.answer hwait)⟩

theorem ensures_setPwd_refused :
    Ensures answer Unrefused (Host.carryOut spare (.setPwd path)) (fun _ => Unrefused)
      (fun e past s w => Unreported e past s w ∨ Reported path e past s w) Never := by
  refine Ensures.bind (Ensures.attempt ensures_chdir_refused) fun outcome => ?_
  rcases outcome with e | ⟨⟩
  · cases e with
    | os errno text => exact Ensures.fail fun _ _ _ h => .inr ⟨⟨_, rfl⟩, h⟩
    | _ => exact Ensures.fail fun _ _ _ h => .inl h
  · exact (ensures_setVariable_refused _ _).mono_fails fun _ _ _ _ h => .inl h

variable {home : Value} {cwd : Text} {bytes : Bytes}

theorem ensures_changeDirectory_refused {arguments : List Text}
    (htarget : Builtin.target home cwd arguments = .text path) :
    Ensures answer (fun past s w => s.cwd = cwd ∧ Unrefused past s w)
      ((Builtin.changeDirectory home arguments).interpret (Host.carryOut spare))
      (fun verdict past s w => verdict = .handled ∧ Unrefused past s w)
      (fun e past s w => Unreported e past s w ∨ Reported path e past s w) Never := by
  refine Ensures.interpret_bind (m := fun (t : Session) past s w => t.cwd = cwd ∧ Unrefused past s w) ?_
    fun t => Ensures.and_pre fun hcwd => ?_
  · intro past s w h
    rw [interpret_state, run_state, List.append_nil]
    exact h
  have hasked : Ensures answer Unrefused
      (Host.carryOut spare (.isDir (Builtin.target home t.cwd arguments)))
      (fun found past s w => if found then Unrefused past s w else Untold past s w)
      (fun e past s w => Unreported e past s w ∨ Reported path e past s w) Never := by
    rw [hcwd, htarget]
    exact ensures_isDir_refused.mono_fails fun _ _ _ _ h => .inl h
  refine Ensures.interpret_bind (Ensures.interpret_request hasked) fun found => ?_
  simp only [hcwd, htarget]
  cases found with
  | false => exact Ensures.fail fun _ _ _ h => .inr ⟨⟨[], rfl⟩, h⟩
  | true =>
      refine Ensures.interpret_bind (Ensures.interpret_request ensures_setPwd_refused) fun _ => ?_
      refine Ensures.interpret_bind (m := fun _ => Unrefused) (Ensures.update fun _ _ _ h => h) fun _ => ?_
      refine Ensures.interpret_bind (m := fun _ => Unrefused) (Ensures.log fun _ _ _ h => h.logged _)
        fun _ => ?_
      exact Ensures.done fun _ _ _ h => ⟨rfl, h⟩

/-- What a line says of a directory that it may have been refused. -/
def Said (bytes : Bytes) (past : List (Event OsCall.Reply)) : Prop :=
  (Refused past ∧ delivered standardOutput past = Builtin.complaint bytes) ∨
    (¬Refused past ∧ delivered standardOutput past = [])

/-- The report of a directory is written. -/
theorem ensures_write_report (hpath : encode? path = some bytes) :
    Ensures answer Untold (Host.carryOut spare
        (.write standardOutput (("no such directory: " : Text) ++ path ++ "\n")))
      (fun _ past _ _ => Refused past ∧ delivered standardOutput past = Builtin.complaint bytes)
      (fun _ => Never) Never := by
  intro past s w h
  have hdelivers := Host.delivers_of_encode? (Builtin.encode?_report hpath)
  obtain ⟨events, hrun⟩ := hdelivers.returns spare standardOutput s w h.2.2.accepts
  have hexact := hdelivers.exact spare standardOutput s w (by rw [hrun])
  rw [hrun] at hexact
  rw [Host.carryOut, hrun]
  refine ⟨lasting_exists_mem _ _ _ h.1, ?_⟩
  rw [delivered_append, h.2.1, hexact]
  rfl

theorem ensures_dispatch_cd {tokens : List Text} (hcommand : Builtin.ofName? (tokens.headD []) = some .cd)
    (htarget : Builtin.target home cwd tokens.tail = .text path) (hpath : encode? path = some bytes) :
    Ensures answer (fun past s w => s.cwd = cwd ∧ Unrefused past s w)
      ((Builtin.dispatch home tokens).interpret (Host.carryOut spare))
      (fun verdict past _ _ => verdict = .handled ∧ Said bytes past)
      (fun _ past _ _ => ¬Refused past ∧ delivered standardOutput past = []) Never := by
  simp only [Builtin.dispatch, hcommand]
  refine Ensures.interpret_orElse ((ensures_changeDirectory_refused htarget).mono_returns ?_) fun e => ?_
  · exact fun _ _ _ _ h => ⟨h.1, .inr ⟨h.2.1, h.2.2.1⟩⟩
  refine Ensures.or_pre (Ensures.and_pre fun hplain => ?_) (Ensures.and_pre ?_)
  · simp only [hplain]
    exact Ensures.fail fun _ _ _ h => ⟨h.1, h.2.1⟩
  · rintro ⟨given, rfl⟩
    refine Ensures.interpret_bind (m := fun _ => Untold) (Ensures.log fun _ _ _ h => h.logged _)
      fun _ => ?_
    refine Ensures.interpret_bind
      (Ensures.interpret_request ((ensures_write_report hpath).part fun _ _ _ _ h => h.elim)) fun _ => ?_
    exact Ensures.done fun _ _ _ h => ⟨rfl, .inl h⟩

namespace Shell

variable (shell : Shell)

/-- Of a directory that is refused the user is told, and the line is done with; of any other one nothing
is written.  A line that could not be split refuses nothing. -/
theorem run_cd (spare : Nat) {s : Session} {w : OsWorld} (hw : w.Tells) {chunk : Bytes}
    (hcommand : Line.command (UInt8.ofNat shell.marker.val) chunk = Builtin.cdBytes) {target : Bytes}
    (htarget : Builtin.targetBytes? shell.home s.cwd
      (Line.rawTokens (UInt8.ofNat shell.marker.val) chunk).tail = some target) (interactive : Bool) :
    let o := (Host.onHost spare (shell.runLine (Builtin.dispatch shell.home) interactive chunk)).run
      answer s w
    (Refused o.events → o.ending = .returned .goOn ∧
        delivered standardOutput o.events = Builtin.complaint target) ∧
      (¬Refused o.events → delivered standardOutput o.events = []) := by
  obtain ⟨path, hpath, hbytes⟩ := Builtin.exists_target htarget
  have hname : Builtin.ofName? ((Line.tokens (UInt8.ofNat shell.marker.val) chunk).headD []) =
      some .cd := Builtin.ofName?_tokens_eq_some.mpr hcommand
  rw [List.map_tail] at hpath
  -- splitting the line says nothing, so all that is said is about the target
  have hline : Ensures answer (fun past t v => past = [] ∧ t = s ∧ v = w)
      (Host.onHost spare (shell.runLine (Builtin.dispatch shell.home) interactive chunk))
      (fun next past _ _ => next = .goOn ∧ Said target past)
      (fun _ past _ _ => ¬Refused past ∧ delivered standardOutput past = []) Never := by
    refine Ensures.interpret_bind (m := fun found past t v =>
      found = Line.tokens (UInt8.ofNat shell.marker.val) chunk ∧ t.cwd = s.cwd ∧ Unrefused past t v)
      ?_ fun found => Ensures.and_pre ?_
    · rintro past t v ⟨rfl, rfl, rfl⟩
      obtain ⟨ending, line, -, hrun, hends⟩ :=
        run_tokenize_cases answer (Host.carryOut spare) shell chunk t v
      have hstart : Unrefused [] { t with line := line } v :=
        ⟨fun ⟨_, hmem, _⟩ => List.not_mem_nil hmem, rfl, hw⟩
      rw [hrun]
      rcases hends with rfl | ⟨e, rfl, -⟩
      · exact ⟨rfl, rfl, hstart⟩
      · exact ⟨hstart.1, hstart.2.1⟩
    rintro rfl
    refine Ensures.interpret_bind (ensures_dispatch_cd hname hpath hbytes) fun verdict => ?_
    refine Ensures.and_pre ?_
    rintro rfl
    exact Ensures.done fun _ _ _ h => ⟨rfl, h⟩
  intro o
  have hrun : o.ending.choose (fun next past _ _ => next = .goOn ∧ Said target past)
      (fun _ past _ _ => ¬Refused past ∧ delivered standardOutput past = []) Never o.events o.state
      o.world := hline [] s w ⟨rfl, rfl, rfl⟩
  cases hending : o.ending with
  | returned next =>
      rw [hending] at hrun
      obtain ⟨rfl, hsaid⟩ := hrun
      rcases hsaid with ⟨hrefused, htold⟩ | ⟨hunrefused, hnothing⟩
      · exact ⟨fun _ => ⟨rfl, htold⟩, fun hnot => absurd hrefused hnot⟩
      · exact ⟨fun hrefused => absurd hrefused hunrefused, fun _ => hnothing⟩
  | failed e =>
      rw [hending] at hrun
      exact ⟨fun hrefused => absurd hrefused hrun.1, fun _ => hrun.2⟩
  | outOfRounds =>
      rw [hending] at hrun
      exact hrun.elim

end Shell

end LineShell
