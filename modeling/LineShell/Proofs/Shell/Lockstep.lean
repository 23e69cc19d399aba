import LineShell.Proofs.Line.Tokens
import LineShell.Proofs.Program.Relates
import LineShell.Proofs.Shell.Footprint

/-!
# The shell in lockstep

The shell looks at few of the answers that it gets.  How a child ended goes to the log only, a script
that cannot be opened is skipped whatever the reason, and so on.  `ServiceCall.Matches` and
`ServiceCall.Alike` say which replies and which failures of a service lead the shell the same way.

`Lockstep` says that two machines answer each call of the shell alike, as long as the moments on both
are related.  Then the two run the whole shell in lockstep: it ends alike on both, with the same
working directory and the same line, and the moments are related to the end (`Lockstep.relates_run`).
-/

namespace LineShell

open Program LineShell.Action

/-- Where the shell is in its input: between two sources, or at an offset of a script or of standard
input. -/
inductive Place where
  | between
  | script (fd offset : Int)
  | input (offset : Int)

namespace Place

/-- The source that is read and the offset of its next line. -/
def reads? : Place → Option (Int × Int)
  | between => none
  | script fd offset => some (fd, offset)
  | input offset => some (standardInput, offset)

/-- The place behind some bytes. -/
def behind (length : Int) : Place → Place
  | between => between
  | script fd offset => script fd (offset + length)
  | input offset => input (offset + length)

variable {place : Place} {fd offset : Int}

theorem reads?_behind (length : Int) (h : place.reads? = some (fd, offset)) :
    (place.behind length).reads? = some (fd, offset + length) := by
  cases place <;> cases h <;> rfl

theorem behind_behind (first second : Int) :
    (place.behind first).behind second = place.behind (first + second) := by
  cases place <;> simp only [behind, Int.add_assoc]

theorem behind_zero : place.behind 0 = place := by
  cases place <;> simp only [behind, Int.add_zero]

end Place

namespace ServiceCall

/-- Replies that lead the shell the same way. -/
def Matches (c : ServiceCall) (a b : c.Reply) : Prop := c.name = .waitpid ∨ a = b

/-- Failures that lead the shell the same way. -/
inductive Alike : ServiceCall → Failure → Failure → Prop where
  | same {c : ServiceCall} {e : Failure} : Alike c e e
  /-- A script is skipped whatever the reason. -/
  | notOpened {path : Text} {e e' : Failure} {r r' : ErrorReport}
      (he : e.reportOf? .fileNotFound = some r) (he' : e'.reportOf? .fileNotFound = some r') :
      Alike (.openReadOnly path) e e'
  /-- A child ends whatever kept it from becoming the command. -/
  | notExecuted {path : Text} {argv : List Text} {e e' : Failure} {r r' : ErrorReport}
      (he : e.reportOf? .execFailed = some r) (he' : e'.reportOf? .execFailed = some r') :
      Alike (.exec path argv) e e'
  /-- That a directory cannot be entered is told without the details. -/
  | notEntered {path : Text} {given given' : Fields} :
      Alike (.setPwd path) (.notADirectory (.text path) given) (.notADirectory (.text path) given')

/-- Where the shell is after a reply. -/
def lead : (c : ServiceCall) → c.Reply → Place → Place
  | .readLine .., line, place => place.behind (line : Bytes).length
  | .openReadOnly _, fd, _ => .script fd 0
  | .close _, _, _ => .between
  | _, _, place => place

theorem Alike.eq {c : ServiceCall} {e e' : Failure} (h : c.Alike e e')
    (hc : [Name.openReadOnly, .exec, .setPwd].contains c.name = false) : e = e' := by
  cases h with
  | same => rfl
  | notOpened => cases hc
  | notExecuted => cases hc
  | notEntered => cases hc

theorem Matches.eq {c : ServiceCall} {a b : c.Reply} (h : c.Matches a b)
    (hc : (c.name == .waitpid) = false) : a = b :=
  h.resolve_left (beq_eq_false_iff_ne.mp hc)

/-- The calls whose failures the user is told. -/
def tellsFailures : List Name := [.isDir, .setPwd]

/-- Failures that lead the shell the same way, with words that fit where the user is told of them. -/
structure FailsAlike (c : ServiceCall) (fit : Text → Prop) (e e' : Failure) : Prop where
  alike : c.Alike e e'
  told : tellsFailures.contains c.name = true → ∀ report, e.fileReport? = some report →
    fit report.message.render

theorem FailsAlike.of_untold {c : ServiceCall} {fit : Text → Prop} {e e' : Failure} (h : c.Alike e e')
    (hc : tellsFailures.contains c.name = false) : c.FailsAlike fit e e' := by
  refine ⟨h, fun htold => ?_⟩
  rw [hc] at htold
  cases htold

end ServiceCall

/-- Texts that can be put together from what the shell reads and from its own words. -/
structure Fitting (fit : Text → Prop) : Prop where
  append : ∀ {a b}, fit a → fit b → fit (a ++ b)
  ascii : ∀ {text : Text}, text.all (·.val < 0x80) = true → fit text
  decode : ∀ bytes, fit (Text.Utf8.decode bytes)

/-- A call that the shell makes when it is at a place: it reads on in its source, writes what fits,
opens between two sources, and closes the script that it reads. -/
def Shell.Asks (shell : Shell) (buffer : LineBuffer) (fit : Text → Prop) (place : Place) :
    ServiceCall → Prop
  | .readLine fd offset capacity => place.reads? = some (fd, offset) ∧ capacity = buffer.size
  | .write fd text => fd = standardOutput ∧ fit text
  | .openReadOnly _ => place = .between
  | .close fd => ∃ offset, place = .script fd offset
  | .setPwd path => fit path
  | .waitpid _ timeout => timeout = shell.waitTimeout
  | _ => True

/-- The texts of a shell fit. -/
structure Shell.Fits (shell : Shell) (fit : Text → Prop) : Prop where
  suffix : ∀ text, shell.promptSuffix = .text text → fit text
  home : ∀ text, shell.home = .text text → fit text
  complaint : fit shell.home.render

variable {M N : Machine Session ServiceCall.Reply}

/-- A call that two machines answer alike while their moments are related, and where the shell is then.
The state is of no concern to the call. -/
def AnsweredAlike (M N : Machine Session ServiceCall.Reply) (P : List (Event M.InnerReply) → Prop)
    (I : Place → Relation M N) (fit : Text → Prop) (c : ServiceCall) (place : Place) : Prop :=
  ∀ s t : Session, Relates M N P (fun l r => (l.state = s ∧ r.state = t) ∧ I place l r) (ask c) (ask c)
    (fun a b l r => c.Matches a b ∧ (l.state = s ∧ r.state = t) ∧ I (c.lead a place) l r)
    (fun e e' l r => c.FailsAlike fit e e' ∧ (l.state = s ∧ r.state = t) ∧ I place l r)
    fun _ _ => False

/-- Two machines that answer each call of a shell alike while their moments are related.  What is
written to the log and the state of the shell are of no concern to the relation. -/
structure Lockstep (M N : Machine Session ServiceCall.Reply) (P : List (Event M.InnerReply) → Prop)
    (I : Place → Relation M N) (shell : Shell) (buffer : LineBuffer) (fit : Text → Prop) : Prop where
  lasting : Lasting P
  fitting : Fitting fit
  fits : shell.Fits fit
  anyState : ∀ {place l r} (s t : Session), I place l r →
    I place { l with state := s } { r with state := t }
  anyEntry : ∀ {place l r} (entry entry' : Log.Entry), I place l r →
    I place { l with past := l.past ++ [.logged entry] } { r with past := r.past ++ [.logged entry'] }
  input : ∀ {l r}, I .between l r → I (.input 0) l r
  serves : ∀ {c : ServiceCall} {place : Place}, shell.Asks buffer fit place c →
    AnsweredAlike M N P I fit c place

namespace Lockstep

variable {P : List (Event M.InnerReply) → Prop} {I : Place → Relation M N} {shell : Shell}
  {buffer : LineBuffer} {fit : Text → Prop} {place : Place}

/-- Between two steps of the shell the two agree on its working directory and on its line. -/
structure Together (I : Place → Relation M N) (buffer : LineBuffer) (fit : Text → Prop)
    (place : Place) (l : M.Moment) (r : N.Moment) : Prop where
  inner : I place l r
  cwd : r.state.cwd = l.state.cwd
  line : r.state.line = l.state.line
  size : buffer.SameSize l.state.line
  fits : fit l.state.cwd

/-- The two are together wherever the shell is. -/
def Anywhere (I : Place → Relation M N) (buffer : LineBuffer) (fit : Text → Prop) : Relation M N :=
  fun l r => ∃ place, Together I buffer fit place l r

/-- Failures that the user is told in the same words, which fit. -/
structure ToldAlike (fit : Text → Prop) (e e' : Failure) : Prop where
  words : e = e' ∨ ∃ report report', e.fileReport? = some report ∧
    e'.fileReport? = some report' ∧ report.message = report'.message
  fits : ∀ report, e.fileReport? = some report → fit report.message.render

/-- Failures that keep a child from becoming a program, for the same reason or for any reason. -/
def RefusedAlike (e e' : Failure) : Prop :=
  e = e' ∨ ∃ report report', e.reportOf? .execFailed = some report ∧
    e'.reportOf? .execFailed = some report'

/-! ## Single steps -/

section Steps

variable (h : Lockstep M N P I shell buffer fit)

include h

theorem relates_ask {c : ServiceCall} (hc : shell.Asks buffer fit place c) :
    Relates M N P (Together I buffer fit place) (ask c) (ask c)
      (fun a b l r => c.Matches a b ∧ Together I buffer fit (c.lead a place) l r)
      (fun e e' l r => c.FailsAlike fit e e' ∧ Together I buffer fit place l r)
      fun _ _ => False := by
  intro l r htogether
  -- the states are the same afterwards, so what is known of them is known again
  have hkept : ∀ {place' : Place} {l' : M.Moment} {r' : N.Moment},
      (l'.state = l.state ∧ r'.state = r.state) ∧ I place' l' r' →
        Together I buffer fit place' l' r' := by
    rintro place' l' r' ⟨⟨hl, hr⟩, hinner⟩
    refine ⟨hinner, ?_, ?_, ?_, ?_⟩
    · rw [hl, hr]
      exact htogether.cwd
    · rw [hl, hr]
      exact htogether.line
    · rw [hl]
      exact htogether.size
    · rw [hl]
      exact htogether.fits
  refine (h.serves hc l.state r.state).mono (fun _ _ hpre => hpre)
    (fun _ _ _ _ hreply => ⟨hreply.1, hkept hreply.2⟩)
    (fun _ _ _ _ hfailed => ⟨hfailed.1, hkept hfailed.2⟩) (fun _ _ hnever => hnever) l r ?_
  exact ⟨⟨rfl, rfl⟩, htogether.inner⟩

/-- Most calls are answered in the same way on both. -/
theorem agrees_ask {c : ServiceCall} (hc : shell.Asks buffer fit place c)
    (hname : [ServiceCall.Name.readLine, .openReadOnly, .close, .setPwd, .exec, .waitpid].contains
      c.name = false) : Agrees M N P (Together I buffer fit place) (ask c) := by
  refine (h.relates_ask hc).mono (fun _ _ h => h) (fun a b l r hreply => ?_)
    (fun e e' l r hfailed => ?_) fun _ _ h => h.elim
  · have hlead : c.lead a place = place := by
      cases c <;> first | rfl | cases hname
    rw [hlead] at hreply
    refine ⟨hreply.1.resolve_left fun hwait => ?_, hreply.2⟩
    rw [hwait] at hname
    cases hname
  · refine ⟨hfailed.1.alike.eq ?_, hfailed.2⟩
    cases c <;> first | rfl | cases hname

variable {fails : Failure → Failure → Relation M N} {stops : Relation M N}

theorem agrees_log (level : Log.Level) (subsystem message : Text) (pid : Option Int)
    (context : Fields) :
    Relates M N P (Together I buffer fit place) (Action.log level subsystem message pid context)
      (Action.log level subsystem message pid context)
      (fun a b l r => a = b ∧ Together I buffer fit place l r) fails stops :=
  Relates.log fun _ _ htogether => ⟨rfl, { htogether with inner := h.anyEntry _ _ htogether.inner }⟩

theorem relates_log (entry entry' : Log.Entry) :
    Relates M N P (Together I buffer fit place) (Program.log entry) (Program.log entry')
      (fun _ _ => Together I buffer fit place) fails stops :=
  Relates.log fun _ _ htogether => { htogether with inner := h.anyEntry _ _ htogether.inner }

theorem agrees_setForeground (child : Option Int) :
    Relates M N P (Together I buffer fit place) (update fun s => { s with foreground := child })
      (update fun s => { s with foreground := child })
      (fun a b l r => a = b ∧ Together I buffer fit place l r) fails stops :=
  Relates.update fun _ _ htogether => ⟨rfl, { htogether with inner := h.anyState _ _ htogether.inner }⟩

theorem agrees_setCwd {path : Text} (hpath : fit path) :
    Relates M N P (Together I buffer fit place) (update fun s => { s with cwd := path })
      (update fun s => { s with cwd := path })
      (fun a b l r => a = b ∧ Together I buffer fit place l r) fails stops :=
  Relates.update fun _ _ htogether =>
    ⟨rfl, ⟨h.anyState _ _ htogether.inner, rfl, htogether.line, htogether.size, hpath⟩⟩

theorem agrees_setLine {line : LineBuffer} (hline : buffer.SameSize line) :
    Relates M N P (Together I buffer fit place) (update fun s => { s with line := line })
      (update fun s => { s with line := line })
      (fun a b l r => a = b ∧ Together I buffer fit place l r) fails stops :=
  Relates.update fun _ _ htogether =>
    ⟨rfl, ⟨h.anyState _ _ htogether.inner, htogether.cwd, rfl, hline, htogether.fits⟩⟩

/-- What is written fits. -/
theorem agrees_print {text : Text} (htext : fit text) :
    Agrees M N P (Together I buffer fit place) (Shell.print text) :=
  h.agrees_ask (c := .write standardOutput text) ⟨rfl, htext⟩ rfl

omit h in
/-- What goes on with the working directory and the line goes on with the same ones. -/
theorem state_bind {α β : Type} {f : Session → Action α} {g : Session → Action β}
    {returns : α → β → Relation M N} {fails : Failure → Failure → Relation M N}
    {stops : Relation M N}
    (hf : ∀ s t : Session, t.cwd = s.cwd → t.line = s.line → buffer.SameSize s.line → fit s.cwd →
      Relates M N P (Together I buffer fit place) (f s) (g t) returns fails stops) :
    Relates M N P (Together I buffer fit place) (state.bind f) (state.bind g) returns fails stops := by
  refine Relates.state_bind fun s t l r hpre => ?_
  obtain ⟨⟨rfl, rfl⟩, htogether⟩ := hpre
  exact hf _ _ htogether.cwd htogether.line htogether.size htogether.fits l r htogether

end Steps

variable (h : Lockstep M N P I shell buffer fit)

include h

/-! ## Built-in commands -/

theorem fit_target {cwd : Text} (hcwd : fit cwd) {arguments : List Text} {path : Text}
    (harguments : ∀ argument ∈ arguments, fit argument)
    (hpath : Builtin.target shell.home cwd arguments = .text path) : fit path := by
  cases arguments with
  | nil => exact h.fits.home path hpath
  | cons argument rest =>
      have hargument : fit argument := harguments argument List.mem_cons_self
      cases hpath
      unfold Lookup.absolute
      split
      · exact hargument
      · rw [Lookup.join, ← List.singleton_append]
        exact h.fitting.append hcwd (h.fitting.append (h.fitting.ascii rfl) hargument)

/-- That something is no directory fits into a line. -/
theorem fit_complaint {cwd : Text} (hcwd : fit cwd) {arguments : List Text}
    (harguments : ∀ argument ∈ arguments, fit argument) (given : Fields) {report : ErrorReport}
    (hreport : (Failure.notADirectory (Builtin.target shell.home cwd arguments) given).fileReport? =
      some report) : fit report.message.render := by
  cases hreport
  refine h.fitting.append (h.fitting.ascii rfl) ?_
  cases arguments with
  | nil => exact h.fits.complaint
  | cons argument rest => exact h.fit_target hcwd harguments rfl

/-- Changing the directory fails on both with the same words at least. -/
theorem relates_changeDirectory {arguments : List Text}
    (harguments : ∀ argument ∈ arguments, fit argument) :
    Relates M N P (Together I buffer fit place) (Builtin.changeDirectory shell.home arguments)
      (Builtin.changeDirectory shell.home arguments)
      (fun a b l r => a = b ∧ Together I buffer fit place l r)
      (fun e e' l r => ToldAlike fit e e' ∧ Together I buffer fit place l r) fun _ _ => False := by
  refine state_bind fun s t hcwd _ _ hfit => ?_
  rw [hcwd]
  refine Relates.bind h.lasting ((h.relates_ask (c := .isDir _) trivial).mono_fails
    fun e e' l r hfailed => ⟨⟨.inl (hfailed.1.alike.eq rfl), hfailed.1.told rfl⟩, hfailed.2⟩)
    fun found found' => Relates.and_pre fun hfound => ?_
  have hsame : found = found' := hfound.eq rfl
  subst hsame
  -- both sides refuse the same target in the same words
  have hrefused : Relates M N P (Together I buffer fit place)
      (fail (.notADirectory (Builtin.target shell.home s.cwd arguments) []) : Action Builtin.Verdict)
      (fail (.notADirectory (Builtin.target shell.home s.cwd arguments) []))
      (fun a b l r => a = b ∧ Together I buffer fit place l r)
      (fun e e' l r => ToldAlike fit e e' ∧ Together I buffer fit place l r) fun _ _ => False :=
    Relates.fail fun l r htogether =>
      ⟨⟨.inl rfl, fun report => h.fit_complaint hfit harguments []⟩, htogether⟩
  cases found with
  | false => exact hrefused
  | true =>
      cases htarget : Builtin.target shell.home s.cwd arguments with
      | text path =>
          have hpath : fit path := h.fit_target hfit harguments htarget
          refine Relates.bind h.lasting ((h.relates_ask (c := .setPwd path) hpath).mono_fails
            fun e e' l r hfailed => ⟨⟨?_, hfailed.1.told rfl⟩, hfailed.2⟩) fun _ _ =>
            Relates.and_pre fun _ => ?_
          · cases hfailed.1.alike with
            | same => exact .inl rfl
            | notEntered => exact .inr ⟨_, _, rfl, rfl, rfl⟩
          · refine Relates.bind h.lasting (h.agrees_setCwd hpath) fun _ _ => Relates.and_pre fun _ => ?_
            refine Relates.bind h.lasting (h.agrees_log _ _ _ _ _) fun _ _ =>
              Relates.and_pre fun _ => ?_
            exact Relates.done fun _ _ htogether => ⟨rfl, htogether⟩
      | _ =>
          rw [htarget] at hrefused
          exact hrefused

/-- A line is handed to the built-in commands with the same verdict, and with the same words to the
user. -/
theorem agrees_dispatch {tokens : List Text} (htokens : ∀ token ∈ tokens, fit token) :
    Agrees M N P (Together I buffer fit place) (Builtin.dispatch shell.home tokens) := by
  cases hcommand : Builtin.ofName? (tokens.headD []) with
  | none =>
      simp only [Builtin.dispatch, hcommand]
      exact Agrees.done _
  | some command =>
      simp only [Builtin.dispatch, hcommand]
      have harguments : ∀ argument ∈ tokens.tail, fit argument :=
        fun argument hmem => htokens argument (List.mem_of_mem_tail hmem)
      cases command with
      | exit => exact Agrees.done Builtin.Verdict.exit
      | cd =>
          refine Relates.orElse h.lasting ((h.relates_changeDirectory harguments).mono (fun _ _ h => h)
            (fun _ _ _ _ h => h) (fun _ _ _ _ h => h) fun _ _ h => h.elim) fun e e' => ?_
          refine Relates.and_pre fun htold => ?_
          -- both failures are reported to the user in the same words, or neither is
          have hreported : ∀ {report report' : ErrorReport}, fit report.message.render →
              report.message = report'.message → Relates M N P (Together I buffer fit place)
              ((Action.log .debug "shell" (tokens.headD [] ++ ": " ++ report.render)).bind fun _ =>
                (ask (.write standardOutput (report.message.render ++ "\n"))).bind fun _ =>
                  done Builtin.Verdict.handled)
              ((Action.log .debug "shell" (tokens.headD [] ++ ": " ++ report'.render)).bind fun _ =>
                (ask (.write standardOutput (report'.message.render ++ "\n"))).bind fun _ =>
                  done Builtin.Verdict.handled)
              (fun a b l r => a = b ∧ Together I buffer fit place l r)
              (fun e e' l r => e = e' ∧ Together I buffer fit place l r)
              (Together I buffer fit place) := by
            intro report report' hfit hwords
            refine Relates.bind h.lasting (h.relates_log _ _) fun _ _ => ?_
            rw [← hwords]
            exact Agrees.bind h.lasting (h.agrees_print (h.fitting.append hfit (h.fitting.ascii rfl)))
              fun _ => Agrees.done _
          have hfits := htold.fits
          rcases htold.words with rfl | ⟨report, report', hreport, hreport', hwords⟩
          · cases hreport : e.fileReport? with
            | none => exact Agrees.fail e
            | some report => exact hreported (hfits report hreport) rfl
          · rw [hreport, hreport']
            exact hreported (hfits report hreport) hwords

/-! ## Children -/

theorem agrees_spawn : Agrees M N P (Together I buffer fit place) Child.spawn := by
  rw [Child.spawn_eq]
  refine Agrees.bind h.lasting (Agrees.orElse h.lasting (h.agrees_ask (c := .fork) trivial rfl)
    fun e => ?_) fun pid => Agrees.bind h.lasting ?_ fun _ => Agrees.done _
  · unfold Child.unmade
    cases e.reportOf? .forkFailed with
    | none => exact Agrees.fail e
    | some report => exact Agrees.bind h.lasting (h.agrees_log _ _ _ _ _) fun _ => Agrees.fail e
  · unfold Child.made
    split
    · exact Agrees.bind h.lasting (h.agrees_setForeground _) fun _ => h.agrees_log _ _ _ _ _
    · exact Agrees.done _

theorem agrees_spawnOrReport : Agrees M N P (Together I buffer fit place) Shell.spawnOrReport := by
  refine Agrees.bind h.lasting h.agrees_spawn.attempt fun outcome => ?_
  cases outcome with
  | ok pid => exact Agrees.done _
  | error e =>
      dsimp only
      cases e.reportOf? .forkFailed with
      | none => exact Agrees.fail e
      | some report =>
          exact Agrees.bind h.lasting (h.agrees_print (h.fitting.ascii rfl)) fun _ => Agrees.done _

theorem agrees_resolve (name pwd searchPath : Text) : Agrees M N P (Together I buffer fit place)
    (Lookup.resolve Child.isFile name pwd searchPath) := by
  have hfirst : ∀ directories, Agrees M N P (Together I buffer fit place)
      (Lookup.firstFound Child.isFile name directories) := by
    intro directories
    induction directories with
    | nil => exact Agrees.done _
    | cons directory rest ih =>
        refine Agrees.bind h.lasting (h.agrees_ask (c := .fileExists _) trivial rfl) fun found => ?_
        split
        · exact Agrees.done _
        · exact ih
  unfold Lookup.resolve
  split
  · exact Agrees.done _
  · refine Agrees.bind h.lasting (hfirst _) fun found => ?_
    cases found <;> exact Agrees.done _

/-- Becoming a program fails in the same way on both, or on both because it could not be executed. -/
theorem relates_replaceProgram (argv : List Text) :
    Relates M N P (Together I buffer fit place) (Child.replaceProgram argv .search)
      (Child.replaceProgram argv .search) (fun a b l r => a = b ∧ Together I buffer fit place l r)
      (fun e e' l r => RefusedAlike e e' ∧ Together I buffer fit place l r)
      (Together I buffer fit place) := by
  -- whatever both agree on fails in the same way
  have hagrees : ∀ {α : Type} {p : Action α}, Agrees M N P (Together I buffer fit place) p →
      Relates M N P (Together I buffer fit place) p p
        (fun a b l r => a = b ∧ Together I buffer fit place l r)
        (fun e e' l r => RefusedAlike e e' ∧ Together I buffer fit place l r)
        (Together I buffer fit place) := fun hp =>
    Relates.mono_fails hp fun _ _ _ _ hfailed => ⟨.inl hfailed.1, hfailed.2⟩
  refine Relates.bind h.lasting (hagrees (h.agrees_ask (c := .getPid) trivial rfl)) fun pid _ =>
    Relates.and_pre fun hpid => ?_
  subst hpid
  cases argv with
  | nil => exact hagrees (Agrees.fail _)
  | cons name rest =>
      have hpath : Agrees M N P (Together I buffer fit place) (Child.resolveProgram name .search) :=
        Agrees.bind h.lasting (h.agrees_ask (c := .getPwd) trivial rfl) fun pwd =>
          Agrees.bind h.lasting (h.agrees_ask (c := .getPath) trivial rfl) fun path =>
            h.agrees_resolve name pwd path
      refine Relates.bind h.lasting (hagrees hpath) fun path _ => Relates.and_pre fun hsame => ?_
      subst hsame
      refine Relates.bind h.lasting (h.agrees_log _ _ _ _ _) fun _ _ => Relates.and_pre fun _ => ?_
      have hexec : Relates M N P (Together I buffer fit place) (ask (.exec path (name :: rest)))
          (ask (.exec path (name :: rest))) (fun _ _ => Together I buffer fit place)
          (fun e e' l r => (ServiceCall.exec path (name :: rest)).Alike e e' ∧
            Together I buffer fit place l r) (Together I buffer fit place) :=
        (h.relates_ask (c := .exec path (name :: rest)) trivial).mono (fun _ _ h => h)
          (fun _ _ _ _ hreply => hreply.2) (fun _ _ _ _ hfailed => ⟨hfailed.1.alike, hfailed.2⟩)
          fun _ _ h => h.elim
      refine Relates.bind h.lasting (Relates.orElse h.lasting hexec fun e e' =>
        Relates.and_pre fun halike => ?_) fun _ _ => hagrees (Agrees.fail _)
      · cases halike with
        | same =>
            cases hreport : e.reportOf? .execFailed with
            | none => exact hagrees (Agrees.fail _)
            | some report =>
                exact Relates.bind h.lasting (h.agrees_log _ _ _ _ _) fun _ _ =>
                  Relates.and_pre fun _ => hagrees (Agrees.fail _)
        | notExecuted he he' =>
            rw [he, he']
            refine Relates.bind h.lasting (h.relates_log _ _) fun _ _ => ?_
            exact Relates.fail fun _ _ htogether => ⟨.inr ⟨_, _, he, he'⟩, htogether⟩

/-- The child ends in the same way on both. -/
theorem agrees_becomeCommand (tokens : List Text) :
    Agrees M N P (Together I buffer fit place) (shell.becomeCommand tokens) := by
  refine Agrees.andFinally h.lasting ?_ ?_
  · refine Relates.orElse h.lasting (h.relates_replaceProgram tokens) fun e e' =>
      Relates.and_pre fun hlike => ?_
    have hprint : Agrees M N P (Together I buffer fit place) (Shell.print "could not exec\n") :=
      h.agrees_print (h.fitting.ascii rfl)
    rcases hlike with rfl | ⟨report, report', he, he'⟩
    · cases e.reportOf? .execFailed with
      | none => exact Agrees.fail e
      | some report => exact hprint
    · rw [he, he']
      exact hprint
  · refine Agrees.bind h.lasting (h.agrees_ask (c := .getPid) trivial rfl) fun pid => ?_
    exact Agrees.bind h.lasting (h.agrees_log _ _ _ _ _) fun _ =>
      h.agrees_ask (c := .exit _) trivial rfl

omit h in
theorem run_awaited (pid : Int) (outcome : WaitOutcome) (m : M.Moment) :
    ∃ child entry, M.run (Child.awaited pid outcome) m =
      ⟨.returned outcome, { m.state with foreground := child }, m.world, [.logged entry]⟩ := by
  obtain ⟨entry, hrun⟩ := Child.run_awaited M.carryOut M.answer pid outcome m.state m.world
  exact ⟨_, entry, hrun⟩

/-- What is done about children that were awaited leaves the two together, however they ended. -/
theorem relates_awaited (pid : Int) (outcome outcome' : WaitOutcome)
    {fails : Failure → Failure → Relation M N} {stops : Relation M N} :
    Relates M N P (Together I buffer fit place) (Child.awaited pid outcome)
      (Child.awaited pid outcome') (fun _ _ => Together I buffer fit place) fails stops := by
  intro l r htogether
  obtain ⟨child, entry, hl⟩ := run_awaited pid outcome l
  obtain ⟨child', entry', hr⟩ := run_awaited pid outcome' r
  rw [Machine.ending, Machine.ending, Machine.after, Machine.after, hl, hr]
  exact .inr { htogether with inner := h.anyState _ _ (h.anyEntry entry entry' htogether.inner) }

/-- How a child ended is forgotten. -/
theorem agrees_wait (pid : Int) : Agrees M N P (Together I buffer fit place)
    ((Child.wait pid shell.waitTimeout).bind fun _ => done true) := by
  rw [Child.wait_eq, bind_assoc]
  refine Relates.bind h.lasting ((h.relates_ask (c := .waitpid pid shell.waitTimeout) rfl).mono
    (fun _ _ h => h) (fun _ _ _ _ h => h.2) (fun _ _ _ _ hfailed => ⟨hfailed.1.alike.eq rfl, hfailed.2⟩)
    fun _ _ h => h.elim) fun a b => ?_
  exact Relates.bind h.lasting (h.relates_awaited pid a b) fun _ _ => Agrees.done true

/-- A command is run in a child on both or on none. -/
theorem agrees_runInChild (tokens : List Text) :
    Agrees M N P (Together I buffer fit place) (shell.runInChild tokens) := by
  refine Agrees.bind h.lasting h.agrees_spawnOrReport fun child => ?_
  cases child with
  | none => exact Agrees.done _
  | some pid =>
      simp only [bind_eq_bind, pure_eq_done]
      split
      · exact Agrees.bind h.lasting (h.agrees_becomeCommand tokens) fun _ => h.agrees_wait pid
      · exact h.agrees_wait pid

/-! ## The lines of a source -/

theorem agrees_announce (interactive : Bool) :
    Agrees M N P (Together I buffer fit place) (shell.announce interactive) := by
  cases interactive with
  | false => exact Agrees.done _
  | true =>
      refine state_bind fun s t hcwd _ _ hfit => ?_
      rw [hcwd]
      cases hsuffix : shell.promptSuffix with
      | text suffix =>
          exact h.agrees_print (h.fitting.append hfit (h.fits.suffix suffix hsuffix))
      | _ => exact Agrees.fail _

theorem fit_tokens {vector : ArgumentVector} {line : LineBuffer} {tokens : List Text}
    (htokens : vector.tokens line = .ok tokens) : ∀ token ∈ tokens, fit token := by
  intro token hmem
  unfold ArgumentVector.tokens at htokens
  cases hcurrent : vector.checkCurrent line with
  | error e =>
      rw [hcurrent] at htokens
      cases htokens
  | ok _ =>
      rw [hcurrent] at htokens
      cases htokens
      obtain ⟨index, -, rfl⟩ := List.mem_map.mp hmem
      exact h.fitting.decode _

/-- A line is split into the same tokens, and these fit. -/
theorem relates_tokenize (line : Bytes) :
    Relates M N P (Together I buffer fit place) (shell.tokenize line) (shell.tokenize line)
      (fun a b l r => (a = b ∧ ∀ token ∈ a, fit token) ∧ Together I buffer fit place l r)
      (fun e e' l r => e = e' ∧ Together I buffer fit place l r) (Together I buffer fit place) := by
  refine state_bind fun s t _ hline hsize _ => ?_
  rw [hline]
  refine Relates.ofExcept_bind (fun filled hfill => ?_) fun _ _ _ _ htogether => ⟨rfl, htogether⟩
  have hstripped : buffer.SameSize filled.2.stripNewline :=
    hsize.trans ((LineBuffer.sameSize_fill hfill).trans filled.2.sameSize_stripNewline)
  refine Relates.bind h.lasting (h.agrees_setLine hstripped) fun _ _ => Relates.and_pre fun _ => ?_
  refine Relates.ofExcept_bind (fun split htokenize => ?_) fun _ _ _ _ htogether => ⟨rfl, htogether⟩
  have hsplit : buffer.SameSize split.2 := hstripped.trans (LineBuffer.sameSize_tokenize htokenize)
  refine Relates.bind h.lasting (h.agrees_setLine hsplit) fun _ _ => Relates.and_pre fun _ => ?_
  cases htokens : split.1.tokens split.2 with
  | error e => exact Agrees.fail e
  | ok tokens => exact Relates.done fun _ _ htogether => ⟨⟨rfl, h.fit_tokens htokens⟩, htogether⟩

/-- The next line of the source that is read is the same on both. -/
theorem relates_readLine (interactive : Bool) {fd offset : Int}
    (hplace : place.reads? = some (fd, offset)) :
    Relates M N P (Together I buffer fit place) (Shell.readLine interactive fd offset)
      (Shell.readLine interactive fd offset)
      (fun reading reading' l r => reading = reading' ∧
        match reading with
        | .line line => Together I buffer fit (place.behind line.length) l r
        | .interrupted | .exhausted => Together I buffer fit place l r)
      (fun e e' l r => e = e' ∧ Together I buffer fit place l r) (Together I buffer fit place) := by
  rw [Shell.readLine_eq]
  refine state_bind fun s t _ hline hsize _ => ?_
  rw [hline, hsize.size]
  refine Relates.attempt_bind h.lasting
    ((h.relates_ask (c := .readLine fd offset _) ⟨hplace, rfl⟩).mono (fun _ _ h => h)
      (fun _ _ _ _ h => h) (fun _ _ _ _ hfailed => ⟨hfailed.1.alike.eq rfl, hfailed.2⟩)
      fun _ _ h => h.elim) (fun line line' => Relates.and_pre fun hsame => ?_) fun e e' =>
    Relates.and_pre fun hfailed => ?_
  · have hlines : line = line' := hsame.eq rfl
    subst hlines
    cases line with
    | nil =>
        -- reading nothing leaves both sides where they are
        have hhere : (ServiceCall.readLine fd offset buffer.size).lead [] place = place :=
          Place.behind_zero
        rw [hhere]
        exact Relates.done fun _ _ htogether => ⟨rfl, htogether⟩
    | cons byte rest => exact Relates.done fun l r htogether => ⟨rfl, htogether⟩
  · subst hfailed
    cases e with
    | interrupt =>
        cases interactive with
        | false => exact Relates.fail fun _ _ htogether => ⟨rfl, htogether⟩
        | true =>
            refine Relates.bind h.lasting (h.agrees_print (h.fitting.ascii rfl)) fun _ _ =>
              Relates.and_pre fun _ => ?_
            exact Relates.done fun _ _ htogether => ⟨rfl, htogether⟩
    | os errno text =>
        exact Relates.bind h.lasting (h.agrees_log _ _ _ _ _) fun _ _ => Relates.and_pre fun _ =>
          Relates.done fun _ _ htogether => ⟨rfl, htogether⟩
    | _ => exact Relates.fail fun _ _ htogether => ⟨rfl, htogether⟩

theorem agrees_follow (interactive : Bool) (tokens : List Text) (verdict : Builtin.Verdict) :
    Agrees M N P (Together I buffer fit place) (shell.follow interactive tokens verdict) := by
  cases verdict with
  | exit => exact Agrees.done _
  | handled => exact Agrees.done _
  | notBuiltin =>
      refine Agrees.bind h.lasting (h.agrees_runInChild tokens) fun made => ?_
      cases made <;> exact Agrees.done _

theorem agrees_runLine (interactive : Bool) (line : Bytes) :
    Agrees M N P (Together I buffer fit place)
      (shell.runLine (Builtin.dispatch shell.home) interactive line) := by
  refine Relates.bind h.lasting (h.relates_tokenize line) fun tokens _ =>
    Relates.and_pre fun hsame => ?_
  obtain ⟨rfl, htokens⟩ := hsame
  exact Agrees.bind h.lasting (h.agrees_dispatch htokens) fun verdict =>
    h.agrees_follow interactive tokens verdict

/-- The lines of a source are run alike on both, up to some place in it. -/
theorem relates_runFrom (interactive : Bool) (rounds : Nat) {fd offset : Int}
    (hplace : place.reads? = some (fd, offset)) :
    Relates M N P (Together I buffer fit place)
      (shell.runFrom (Builtin.dispatch shell.home) fd interactive rounds offset)
      (shell.runFrom (Builtin.dispatch shell.home) fd interactive rounds offset)
      (fun a b l r => a = b ∧ ∃ length, Together I buffer fit (place.behind length) l r)
      (fun e e' l r => e = e' ∧ ∃ length, Together I buffer fit (place.behind length) l r)
      fun l r => ∃ length, Together I buffer fit (place.behind length) l r := by
  induction rounds generalizing place offset with
  | zero => exact Relates.outOfRounds fun _ _ htogether => ⟨0, by rwa [Place.behind_zero]⟩
  | succ rounds ih =>
      have hhere : ∀ l r, Together I buffer fit place l r →
          ∃ length, Together I buffer fit (place.behind length) l r :=
        fun _ _ htogether => ⟨0, by rwa [Place.behind_zero]⟩
      refine Agrees.bind_relates h.lasting (h.agrees_announce interactive) hhere fun _ => ?_
      refine Relates.bind h.lasting ((h.relates_readLine interactive hplace).mono (fun _ _ h => h)
        (fun _ _ _ _ h => h) (fun _ _ _ _ hfailed => ⟨hfailed.1, hhere _ _ hfailed.2⟩) hhere)
        fun reading _ => Relates.and_pre fun hsame => ?_
      subst hsame
      cases reading with
      | exhausted => exact Relates.done fun _ _ htogether => ⟨rfl, hhere _ _ htogether⟩
      | interrupted => exact ih hplace
      | line line =>
          refine Agrees.bind_relates h.lasting (h.agrees_runLine interactive line)
            (fun _ _ htogether => ⟨_, htogether⟩) fun next => ?_
          cases next with
          | leaveAll => exact Relates.done fun _ _ htogether => ⟨rfl, _, htogether⟩
          | leaveSource => exact Relates.done fun _ _ htogether => ⟨rfl, _, htogether⟩
          | goOn =>
              -- both sides are behind the same line, which is where the next one starts
              have hrest := ih (Place.reads?_behind line.length hplace)
              simp only [Place.behind_behind] at hrest
              exact hrest.mono (fun _ _ h => h) (fun _ _ _ _ ⟨hsame, _, h⟩ => ⟨hsame, _, h⟩)
                (fun _ _ _ _ ⟨hsame, _, h⟩ => ⟨hsame, _, h⟩) fun _ _ ⟨_, h⟩ => ⟨_, h⟩

/-! ## Scripts -/

/-- A script is opened on both, behind the same descriptor, or it is skipped on both. -/
theorem relates_openScript (path : Text) :
    Relates M N P (Together I buffer fit .between) (Shell.openScript path) (Shell.openScript path)
      (fun opened opened' l r => opened = opened' ∧
        Together I buffer fit (opened.elim .between fun fd => .script fd 0) l r)
      (fun e e' l r => e = e' ∧ Anywhere I buffer fit l r) (Anywhere I buffer fit) := by
  refine Relates.attempt_bind h.lasting ((h.relates_ask (c := .openReadOnly path) rfl).mono
    (fun _ _ h => h) (fun _ _ _ _ h => h) (fun _ _ _ _ hfailed => ⟨hfailed.1.alike, hfailed.2⟩)
    fun _ _ h => h.elim) (fun fd fd' => Relates.and_pre fun hsame => ?_) fun e e' =>
    Relates.and_pre fun halike => ?_
  · have hfd : fd = fd' := hsame.eq rfl
    subst hfd
    exact Relates.done fun _ _ htogether => ⟨rfl, htogether⟩
  -- the two worlds may say in different words why a script cannot be opened
  · have hskipped : ∀ report report' : ErrorReport, Relates M N P (Together I buffer fit .between)
        ((Shell.say .debug (("Skipping script: " : Text) ++ report.render)).bind fun _ =>
          done (none : Option Int))
        ((Shell.say .debug (("Skipping script: " : Text) ++ report'.render)).bind fun _ => done none)
        (fun opened opened' l r => opened = opened' ∧
          Together I buffer fit (opened.elim .between fun fd => .script fd 0) l r)
        (fun e e' l r => e = e' ∧ Anywhere I buffer fit l r) (Anywhere I buffer fit) :=
      fun report report' => Relates.bind h.lasting (h.relates_log _ _) fun _ _ =>
        Relates.done fun _ _ htogether => ⟨rfl, htogether⟩
    cases halike with
    | same =>
        dsimp only
        cases e.reportOf? .fileNotFound with
        | none => exact Relates.fail fun _ _ htogether => ⟨rfl, .between, htogether⟩
        | some report => exact hskipped report report
    | notOpened he he' =>
        dsimp only
        rw [he, he']
        exact hskipped _ _

theorem relates_runScript (rounds : Nat) (script : Text) :
    Relates M N P (Together I buffer fit .between) (shell.runScript rounds script)
      (shell.runScript rounds script) (fun a b l r => a = b ∧ Together I buffer fit .between l r)
      (fun e e' l r => e = e' ∧ Anywhere I buffer fit l r) (Anywhere I buffer fit) := by
  refine state_bind fun s t hcwd _ _ _ => ?_
  rw [hcwd]
  have hanywhere : ∀ {place l r}, Together I buffer fit place l r → Anywhere I buffer fit l r :=
    fun htogether => ⟨_, htogether⟩
  refine Agrees.bind_relates h.lasting (h.agrees_ask (c := .getPath) trivial rfl)
    (fun _ _ => hanywhere) fun searchPath => ?_
  refine Agrees.bind_relates h.lasting (h.agrees_resolve script s.cwd searchPath)
    (fun _ _ => hanywhere) fun path => ?_
  refine Relates.bind h.lasting (h.relates_openScript path) fun opened _ =>
    Relates.and_pre fun hsame => ?_
  subst hsame
  cases opened with
  | none => exact Relates.done fun _ _ htogether => ⟨rfl, htogether⟩
  | some fd =>
      refine Relates.bind h.lasting (h.agrees_log _ _ _ _ _) fun _ _ => Relates.and_pre fun _ => ?_
      -- the script is closed at whatever place the run of its lines has come to
      have hclose : ∀ offset, Relates M N P (Together I buffer fit (.script fd offset))
          (ask (.close fd)) (ask (.close fd)) (fun _ _ => Together I buffer fit .between)
          (fun e e' l r => e = e' ∧ Anywhere I buffer fit l r) (Anywhere I buffer fit) :=
        fun offset => (h.relates_ask (c := .close fd) ⟨offset, rfl⟩).mono (fun _ _ h => h)
          (fun _ _ _ _ hreply => hreply.2)
          (fun _ _ _ _ hfailed => ⟨hfailed.1.alike.eq rfl, hanywhere hfailed.2⟩) fun _ _ h => h.elim
      have hstart : (Place.script fd 0).reads? = some (fd, 0) := rfl
      refine Relates.andFinally h.lasting ((h.relates_runFrom false rounds hstart).mono (fun _ _ h => h)
        (fun _ _ _ _ h => h) (fun _ _ _ _ h => h) fun _ _ hran => ?_)
        (fun a b => Relates.and_pre fun hab => Relates.exists_pre fun length => ?_)
        fun e e' => Relates.and_pre fun hee => Relates.exists_pre fun length => ?_
      · obtain ⟨length, htogether⟩ := hran
        exact hanywhere htogether
      · exact (hclose (0 + length)).mono_returns fun _ _ _ _ htogether => ⟨hab, htogether⟩
      · exact (hclose (0 + length)).mono_returns fun _ _ _ _ htogether => ⟨hee, hanywhere htogether⟩

theorem relates_runScripts (rounds : Nat) (scripts : List Text) :
    Relates M N P (Together I buffer fit .between) (shell.runScripts rounds scripts)
      (shell.runScripts rounds scripts) (fun a b l r => a = b ∧ Together I buffer fit .between l r)
      (fun e e' l r => e = e' ∧ Anywhere I buffer fit l r) (Anywhere I buffer fit) := by
  induction scripts with
  | nil => exact Relates.done fun _ _ htogether => ⟨rfl, htogether⟩
  | cons script rest ih =>
      refine Relates.bind h.lasting (h.relates_runScript rounds script) fun goOn _ =>
        Relates.and_pre fun hsame => ?_
      subst hsame
      cases goOn with
      | false => exact Relates.done fun _ _ htogether => ⟨rfl, htogether⟩
      | true => exact ih

/-! ## The whole shell -/

/-- The working directory is published on both, or that it cannot be is logged on both. -/
theorem relates_publishCwd : Relates M N P (Together I buffer fit .between) Shell.publishCwd
    Shell.publishCwd (fun _ _ => Together I buffer fit .between)
    (fun e e' l r => e = e' ∧ Anywhere I buffer fit l r) (Anywhere I buffer fit) := by
  refine state_bind fun s t hcwd _ _ hfit => ?_
  rw [hcwd]
  refine Relates.orElse h.lasting ((h.relates_ask (c := .setPwd s.cwd) hfit).mono (fun _ _ h => h)
    (fun _ _ _ _ hreply => hreply.2) (fun _ _ _ _ hfailed => ⟨hfailed.1.alike, hfailed.2⟩)
    fun _ _ h => h.elim) fun e e' => Relates.and_pre fun halike => ?_
  cases halike with
  | same =>
      cases e.reportOf? .notADirectory with
      | none => exact Relates.fail fun _ _ htogether => ⟨rfl, .between, htogether⟩
      | some report => exact h.relates_log _ _
  | notEntered => exact h.relates_log _ _

/-- Once the working directory was published on both, the shell runs alike on both. -/
theorem relates_run {pre : Relation M N} (rounds : Nat) (scripts : List Text)
    (hpublish : Relates M N P pre Shell.publishCwd Shell.publishCwd
      (fun _ _ => Together I buffer fit .between) (fun e e' l r => e = e' ∧ Anywhere I buffer fit l r)
      (Anywhere I buffer fit)) :
    Relates M N P pre (shell.run rounds scripts) (shell.run rounds scripts)
      (fun a b l r => a = b ∧ Anywhere I buffer fit l r)
      (fun e e' l r => e = e' ∧ Anywhere I buffer fit l r) (Anywhere I buffer fit) := by
  refine Relates.bind h.lasting hpublish fun _ _ => ?_
  refine Relates.orElse h.lasting (n := fun e e' l r => e = e' ∧ Anywhere I buffer fit l r)
    (Relates.bind h.lasting (h.relates_runScripts rounds scripts) fun goOn _ =>
      Relates.and_pre fun hsame => ?_) fun e e' => Relates.and_pre fun hsame => ?_
  · subst hsame
    cases goOn with
    | false => exact Relates.done fun _ _ htogether => ⟨rfl, .between, htogether⟩
    | true =>
        -- between two scripts standard input has not been read
        have hinput : ∀ l r, Together I buffer fit .between l r →
            Together I buffer fit (.input 0) l r :=
          fun _ _ htogether => { htogether with inner := h.input htogether.inner }
        have hstart : (Place.input 0).reads? = some (standardInput, 0) := rfl
        refine Relates.bind h.lasting (((h.relates_runFrom true rounds hstart).weaken hinput).mono
          (fun _ _ h => h) (fun _ _ _ _ hran => hran.2)
          (fun _ _ _ _ ⟨hsame, _, htogether⟩ => ⟨hsame, _, htogether⟩)
          fun _ _ ⟨_, htogether⟩ => ⟨_, htogether⟩) fun _ _ => ?_
        exact Relates.done fun _ _ ⟨_, htogether⟩ => ⟨rfl, _, htogether⟩
  · subst hsame
    refine Relates.exists_pre fun place => ?_
    have hanywhere : ∀ l r, Together I buffer fit place l r → Anywhere I buffer fit l r :=
      fun _ _ htogether => ⟨place, htogether⟩
    cases e with
    | interrupt =>
        refine Agrees.bind_relates h.lasting (h.agrees_log _ _ _ _ _) hanywhere fun _ => ?_
        refine Agrees.bind_relates h.lasting (h.agrees_print (h.fitting.ascii rfl)) hanywhere
          fun _ => ?_
        exact Relates.done fun l r htogether => ⟨rfl, hanywhere l r htogether⟩
    | _ => exact Relates.fail fun l r htogether => ⟨rfl, hanywhere l r htogether⟩

end Lockstep

end LineShell
