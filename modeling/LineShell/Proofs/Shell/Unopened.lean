import LineShell.Proofs.Shell.CutShort
import LineShell.Proofs.Shell.SearchOrder
import LineShell.Proofs.Shell.Sequel

/-!
# Scripts that cannot be opened

A script for which there is no file is looked up, asked for and passed over.  The shell is then where it was
before, and so are the services, so the run is the one in which the script was not named, but for what was
seen of the attempt (`attemptOn`).

Each script that had its turn was asked for once, so the first file that is asked for behind the turns of
some scripts is that of the script after them: `Shell.passes_turn` finds the point at which its turn began.
What comes behind an attempt that failed is what comes behind the scripts before it
(`Shell.passes_attempt`).  The main result is `Shell.run_unopened`.
-/

namespace LineShell

open Program LineShell.Action

/-! ## The first call of a kind -/

namespace Passes

variable {σ Call World : Type} {Reply : Call → Type} {α β : Type}
  {answer : (c : Call) → World → Answer World Reply c} {s t : σ} {w v : World}
  {past : List (Event Reply)} {c : Call} {next : Except Failure (Reply c) → Program σ Reply β}

/-- A call that the first of two programs does not make is made behind it. -/
theorem behind_cases {S : Scope σ Call} {p : Program σ Reply α} {f : α → Program σ Reply β}
    (hp : p.Footprint S) (hc : ¬S.calls c) (h : Passes answer ⟨p.bind f, s, w⟩ past ⟨.call c next, t, v⟩) :
    ∃ a t' v' before after, past = before ++ after ∧ Passes answer ⟨p, s, w⟩ before ⟨.done a, t', v'⟩ ∧
      Passes answer ⟨f a, t', v'⟩ after ⟨.call c next, t, v⟩ := by
  rcases h.bind_call_cases rfl with ⟨next', hfirst, -⟩ | hsecond
  · exact absurd (hfirst.within (hp s)).1 hc
  · exact hsecond

/-- Where the run of the first program is known, the call is made where that ended. -/
theorem behind_run {S : Scope σ Call} {p : Program σ Reply α} {f : α → Program σ Reply β} {a : α} {s' : σ}
    {w' : World} {shown : List (Event Reply)} (hp : p.Footprint S) (hc : ¬S.calls c)
    (hrun : p.run answer s w = ⟨.returned a, s', w', shown⟩)
    (h : Passes answer ⟨p.bind f, s, w⟩ past ⟨.call c next, t, v⟩) :
    ∃ after, past = shown ++ after ∧ Passes answer ⟨f a, s', w'⟩ after ⟨.call c next, t, v⟩ := by
  obtain ⟨a', t', v', before, after, rfl, hfirst, hsecond⟩ := h.behind_cases hp hc
  have hsame := hfirst.run_eq.symm.trans hrun
  rw [run_done, List.append_nil] at hsame
  cases hsame
  exact ⟨after, rfl, hsecond⟩

end Passes

/-! ## Looking up a script -/

/-- The services in memory know which paths name files. -/
def InMemory.isFile (w : InMemory) (path : Text) : Bool := (w.files.lookup path).isSome

theorem InMemory.answeredBy {w : InMemory} (hfaults : w.faults = []) :
    Lookup.AnsweredBy w.isFile InMemory.answer w := fun _ => InMemory.answer_of_faults_nil hfaults _

/-! ## The turn of a script -/

/-- The entry about a script that there is no file for. -/
def skippedEntry (path : Text) : Log.Entry :=
  ⟨.debug, "shell", ("Skipping script: " : Text) ++
    (ErrorReport.fileNotFound (.text path) (.dict [])).render, none, []⟩

/-- What is seen of the lookup of a script: the question for the search path, and which files are there. -/
def lookupOf (w : InMemory) (asked : List Text) : List (Event ServiceCall.Reply) :=
  .called .getPath (.ok w.path) :: asked.map (Lookup.question w.isFile)

/-- What is seen of a script that cannot be opened. -/
def attemptOn (w : InMemory) (asked : List Text) (path : Text) : List (Event ServiceCall.Reply) :=
  lookupOf w asked ++ [.called (.openReadOnly path) (.error (.fileNotFound path [])),
    .logged (skippedEntry path)]

theorem openings_lookupOf (w : InMemory) (asked : List Text) : openings (lookupOf w asked) = [] := by
  refine List.filterMap_eq_nil_iff.mpr fun e he => ?_
  rcases List.mem_cons.mp he with rfl | hquestion
  · rfl
  · obtain ⟨path, -, rfl⟩ := List.mem_map.mp hquestion
    rfl

/-- Where nothing goes wrong a file that is not opened is not there. -/
theorem InMemory.not_isFile_of_error {w : InMemory} {path : Text} {e : Failure} (hfaults : w.faults = [])
    (h : (InMemory.answer (.openReadOnly path) w).outcome = .error e) :
    w.isFile path = false ∧ e = .fileNotFound path [] := by
  rw [InMemory.answer_of_faults_nil hfaults] at h
  simp only [InMemory.serve] at h
  unfold InMemory.isFile
  cases hfile : w.files.lookup path with
  | none =>
      rw [hfile] at h
      exact ⟨rfl, (Except.error.inj h).symm⟩
  | some content =>
      rw [hfile] at h
      cases h

theorem Passes.faults_eq_nil {α : Type} {x y : Point Session InMemory ServiceCall.Reply α}
    {past : List (Event ServiceCall.Reply)} (h : Passes InMemory.answer x past y)
    (hfaults : x.world.faults = []) : y.world.faults = [] := by
  have hfewer := h.length_faults_le
  rw [hfaults] at hfewer
  exact List.eq_nil_of_length_eq_zero (Nat.le_zero.mp hfewer)

/-- On the way of a run it stays the same which files there are, and where they are looked for. -/
theorem Passes.lookup_eq {α : Type} {x y : Point Session InMemory ServiceCall.Reply α}
    {past : List (Event ServiceCall.Reply)} (h : Passes InMemory.answer x past y) :
    y.world.files = x.world.files ∧ y.world.path = x.world.path := by
  let Same (w : InMemory) : Prop := w.files = x.world.files ∧ w.path = x.world.path
  refine h.kept (P := fun _ => Same) (fun c _ w hw => ?_) (fun _ _ _ hw => hw) ⟨rfl, rfl⟩
  exact InMemory.answer_keeps (P := Same) (fun v hv =>
    ⟨(InMemory.serve_files c v).trans hv.1, (InMemory.serve_path c v).trans hv.2⟩) (fun hv => hv) hw

namespace Shell

variable (shell : Shell) {rounds : Nat} {script path : Text} {s t : Session} {w v : InMemory}
  {past : List (Event ServiceCall.Reply)}

/-- What does not ask for files makes no such call. -/
theorem not_opening {names : List ServiceCall.Name} {parts : List Session.Part} {stops : Bool}
    (hnames : names.contains .openReadOnly = false) (path : Text) :
    ¬(scope names parts stops).calls (.openReadOnly path) :=
  fun hcall => Bool.false_ne_true (hnames.symm.trans hcall)

/-- The file that is asked for in the turn of a script is the one that the lookup comes to, and only the lookup
comes before. -/
theorem lookup_of_opening (hfaults : w.faults = []) {next : Except Failure Int → Action Bool}
    (h : Passes InMemory.answer ⟨shell.runScript rounds script, s, w⟩ past
      ⟨.call (.openReadOnly path) next, t, v⟩) :
    ∃ asked, (Lookup.resolve (Lookup.recording w.isFile) script s.cwd w.path).run [] = (path, asked) ∧
      past = lookupOf w asked ∧ v = w := by
  obtain ⟨path', asked, hlookup, -, hresolve⟩ := Lookup.run_resolve w.isFile script s.cwd w.path
  have hstate : (state : Action Session).Footprint (scope [] []) := fun _ => trivial
  have hask : (ask .getPath).Footprint (scope [.getPath] []) := footprint_ask rfl
  have hpath : (ask .getPath).run InMemory.answer s w =
      ⟨.returned w.path, s, w, [.called .getPath (.ok w.path)]⟩ := by
    rw [ask, run_request, InMemory.answer_of_faults_nil hfaults]
    rfl
  rw [runScript_eq] at h
  obtain ⟨_, rfl, hasking⟩ := h.behind_run hstate (not_opening rfl path) (run_state _ s w)
  obtain ⟨_, rfl, hlooking⟩ := hasking.behind_run hask (not_opening rfl path) hpath
  obtain ⟨after, rfl, hopening⟩ := hlooking.behind_run (footprint_resolve script s.cwd w.path)
    (not_opening rfl path) (hresolve _ _ s w (InMemory.answeredBy hfaults))
  rcases hopening.bind_call_cases rfl with ⟨next', hopen, -⟩ | ⟨opened, t', v', before, last, rfl, -, hlast⟩
  · rw [openScript_eq] at hopen
    rcases hopen.attempt_request_cases with ⟨rfl, hstart⟩ | ⟨later, -, hlater⟩
    · cases hstart
      exact ⟨asked, hlookup, by rw [List.append_nil]; rfl, rfl⟩
    · exact absurd (hlater.within (footprint_openedAs _ s)).1 (not_opening rfl path)
  · exact absurd (hlast.within (shell.footprint_afterOpening rounds _ opened t')).1 (not_opening rfl path)

/-- A script for which there is no file leaves everything as it was. -/
theorem run_runScript_unopened (rounds : Nat) (s : Session) (hfaults : w.faults = []) {asked : List Text}
    (hlookup : (Lookup.resolve (Lookup.recording w.isFile) script s.cwd w.path).run [] = (path, asked))
    (hmissing : w.isFile path = false) :
    (shell.runScript rounds script).run InMemory.answer s w =
      ⟨.returned true, s, w, attemptOn w asked path⟩ := by
  obtain ⟨path', asked', hlookup', -, hresolve⟩ := Lookup.run_resolve w.isFile script s.cwd w.path
  cases hlookup.symm.trans hlookup'
  have hopen : InMemory.answer (.openReadOnly path) w = ⟨.error (.fileNotFound path []), w, []⟩ := by
    rw [InMemory.answer_of_faults_nil hfaults]
    simp only [InMemory.isFile, Option.isSome_eq_false_iff, Option.isNone_iff_eq_none] at hmissing
    simp only [InMemory.serve, hmissing]
  have hpath : InMemory.answer .getPath w = ⟨.ok w.path, w, []⟩ := InMemory.answer_of_faults_nil hfaults _
  have hopened : (openScript path).run InMemory.answer s w = ⟨.returned none, s, w,
      [.called (.openReadOnly path) (.error (.fileNotFound path [])), .logged (skippedEntry path)]⟩ := by
    rw [openScript_eq, run_bind, run_attempt, ask, run_request, hopen]
    rfl
  rw [runScript_eq]
  simp only [run_bind, run_state, Outcome.andThen, ask, run_request, hpath, endingOf,
    hresolve _ _ s w (InMemory.answeredBy hfaults), hopened]
  rfl

theorem runScripts_cons (script : Text) (rest : List Text) :
    shell.runScripts rounds (script :: rest) =
      (shell.runScript rounds script).bind fun goOn =>
        if goOn then shell.runScripts rounds rest else done false := rfl

/-- The file that is asked for behind the turns of some scripts is asked for in the turn of the next one.  The
run got there by way of the scripts before it, whichever come behind them. -/
theorem passes_turn {front back : List Text} (hfaults : w.faults = [])
    {next : Except Failure Int → Action Bool}
    (h : Passes InMemory.answer ⟨shell.runScripts rounds (front ++ script :: back), s, w⟩ past
      ⟨.call (.openReadOnly path) next, t, v⟩) (hturn : (openings past).length = front.length) :
    ∃ earlier asked t', past = earlier ++ lookupOf v asked ∧
      (Lookup.resolve (Lookup.recording v.isFile) script t'.cwd v.path).run [] = (path, asked) ∧
      ∀ rest, Passes InMemory.answer ⟨shell.runScripts rounds (front ++ rest), s, w⟩ earlier
        ⟨shell.runScripts rounds rest, t', v⟩ := by
  induction front generalizing s w past with
  | nil =>
      rw [List.nil_append, runScripts_cons] at h
      rcases h.bind_call_cases rfl with ⟨next', hfirst, -⟩ | ⟨goOn, t', v', before, after, rfl, hdone, -⟩
      · obtain ⟨asked, hlookup, rfl, hv⟩ := shell.lookup_of_opening hfaults hfirst
        dsimp only at hv
        subst hv
        exact ⟨[], asked, s, rfl, hlookup, fun rest => .start⟩
      · rw [openings_append, List.length_append, openings_runScript InMemory.answer_inner shell hdone,
          List.length_nil] at hturn
        omega
  -- the script in front has asked for one file by the time its turn is over
  | cons first front ih =>
      rw [List.cons_append, runScripts_cons] at h
      rcases h.bind_call_cases rfl with ⟨next', hfirst, -⟩ | ⟨goOn, t', v', before, after, rfl, hdone, hrest⟩
      · obtain ⟨asked, -, rfl, -⟩ := shell.lookup_of_opening hfaults hfirst
        rw [openings_lookupOf] at hturn
        cases hturn
      · cases goOn with
        | false =>
            obtain ⟨-, hend⟩ := hrest.eq_of_end rfl
            cases hend
        | true =>
            rw [openings_append, List.length_append, openings_runScript InMemory.answer_inner shell hdone,
              List.length_cons, Nat.add_comm, Nat.add_right_cancel_iff] at hturn
            obtain ⟨earlier, asked, t'', rfl, hlookup, hpass⟩  :=
              ih (hdone.faults_eq_nil hfaults) hrest hturn
            refine ⟨before ++ earlier, asked, t'', (List.append_assoc _ _ _).symm, hlookup, fun rest => ?_⟩
            exact (hdone.bind _).trans (hpass rest)

/-- Behind an attempt that failed the run is where it was. -/
theorem passes_attempt (rounds : Nat) (back : List Text) (hfaults : w.faults = []) {asked : List Text}
    (hlookup : (Lookup.resolve (Lookup.recording w.isFile) script s.cwd w.path).run [] = (path, asked))
    (hmissing : w.isFile path = false) :
    Passes InMemory.answer ⟨shell.runScripts rounds (script :: back), s, w⟩ (attemptOn w asked path)
      ⟨shell.runScripts rounds back, s, w⟩ := by
  have hpass := passes_run InMemory.answer (shell.runScript rounds script) s w
  rw [shell.run_runScript_unopened rounds s hfaults hlookup hmissing] at hpass
  exact hpass.bind _

/-! ## The whole run -/

/-- Scripts that are run, and what comes behind them. -/
def finishing (rounds : Nat) (scripts : Action Bool) : Action Int :=
  (scripts.bind fun goOn =>
    if goOn then (shell.runSource rounds standardInput true).bind fun _ => done 0 else done 0).orElse
      lastWords

theorem run_eq_finishing (rounds : Nat) (scripts : List Text) :
    shell.run rounds scripts =
      publishCwd.bind fun _ => shell.finishing rounds (shell.runScripts rounds scripts) := rfl

theorem passes_finishing (rounds : Nat) {scripts rest : Action Bool}
    (h : Passes InMemory.answer ⟨scripts, s, w⟩ past ⟨rest, t, v⟩) :
    Passes InMemory.answer ⟨shell.finishing rounds scripts, s, w⟩ past ⟨shell.finishing rounds rest, t, v⟩ :=
  (h.bind _).attempt.bind _

/-- Only the scripts ask for files. -/
theorem passes_of_finishing {scripts : Action Bool} {next : Except Failure Int → Action Int}
    (h : Passes InMemory.answer ⟨shell.finishing rounds scripts, s, w⟩ past
      ⟨.call (.openReadOnly path) next, t, v⟩) :
    ∃ next', Passes InMemory.answer ⟨scripts, s, w⟩ past ⟨.call (.openReadOnly path) next', t, v⟩ := by
  rcases h.attempt_call_cases rfl with ⟨next₁, hwork, -⟩ | ⟨outcome, t', _, _, _, -, -, hlast⟩
  · rcases hwork.bind_call_cases rfl with ⟨next₂, hscripts, -⟩ | ⟨goOn, t', _, _, _, -, -, hinput⟩
    · exact ⟨next₂, hscripts⟩
    · have hsource : (if goOn then (shell.runSource rounds standardInput true).bind fun _ => done 0
          else done 0 : Action Int).Footprint (scope sourceServices [.cwd, .foreground, .line] true) := by
        split
        · exact Footprint.bind (shell.footprint_runSource rounds standardInput true) fun _ => Footprint.done _
        · exact Footprint.done _
      exact absurd (hinput.within (hsource t')).1 (not_opening rfl path)
  · cases outcome with
    | ok status =>
        obtain ⟨-, hend⟩ := hlast.eq_of_end rfl
        cases hend
    | error e => exact absurd (hlast.within (footprint_lastWords e t')).1 (not_opening rfl path)

/-- A script that cannot be opened is as if it had not been named.  Where nothing goes wrong in the services,
the file of the script whose turn it is is asked for and is not there; then only the search path was asked for
and which files there are, and the run without the script shows the same but for this attempt, and ends in
the same way, with the same state and the same world. -/
theorem run_unopened (rounds : Nat) (front back : List Text) (script : Text) (s : Session) {w : InMemory}
    (hfaults : w.faults = []) {before after : List (Event ServiceCall.Reply)} {path : Text} {e : Failure} :
    let o := (shell.run rounds (front ++ script :: back)).run InMemory.answer s w
    o.events = before ++ .called (.openReadOnly path) (.error e) :: after →
    (openings before).length = front.length →
      let o' := (shell.run rounds (front ++ back)).run InMemory.answer s w
      ∃ earlier later asked cwd,
        before = earlier ++ lookupOf w asked ∧ e = .fileNotFound path [] ∧
        after = .logged (skippedEntry path) :: later ∧
        (Lookup.resolve (Lookup.recording w.isFile) script cwd w.path).run [] = (path, asked) ∧
        o'.events = earlier ++ later ∧ o'.ending = o.ending ∧ o'.state = o.state ∧ o'.world = o.world := by
  intro o hsplit hturn o'
  obtain ⟨next, t, v, hpass, houtcome⟩ := Passes.exists_call (fun c => InMemory.answer_inner c) hsplit
  rw [run_eq_finishing] at hpass
  obtain ⟨_, t₀, v₀, published, turns, rfl, hpublish, hscripts⟩ :=
    hpass.behind_cases footprint_publishCwd (not_opening rfl path)
  obtain ⟨next', hturns⟩ := shell.passes_of_finishing hscripts
  rw [openings_append, openings_of_footprint InMemory.answer_inner footprint_publishCwd rfl hpublish,
    List.nil_append] at hturn
  obtain ⟨earlier, asked, t', rfl, hlookup, hway⟩ :=
    shell.passes_turn (hpublish.faults_eq_nil hfaults) hturns hturn
  have hcalm : v.faults = [] := hpass.faults_eq_nil hfaults
  obtain ⟨hmissing, rfl⟩ := InMemory.not_isFile_of_error hcalm houtcome
  -- both runs come to where the attempt begins, and from where it ends they are one
  have hbehind (rest : List Text) : Passes InMemory.answer ⟨shell.run rounds (front ++ rest), s, w⟩
      (published ++ earlier) ⟨shell.finishing rounds (shell.runScripts rounds rest), t', v⟩ :=
    (hpublish.bind _).trans (shell.passes_finishing rounds (hway rest))
  have hattempt := shell.passes_finishing rounds
    (shell.passes_attempt rounds back hcalm hlookup hmissing)
  have hrun : o = _ := ((hbehind (script :: back)).trans hattempt).run_eq
  have hrun' : o' = _ := (hbehind back).run_eq
  dsimp only at hrun hrun'
  generalize (shell.finishing rounds (shell.runScripts rounds back)).run InMemory.answer t' v = last
    at hrun hrun'
  have hshown := hsplit.symm.trans (congrArg Outcome.events hrun)
  simp only [attemptOn, List.append_assoc, List.append_cancel_left_eq, List.cons_append, List.nil_append,
    List.cons.injEq, true_and] at hshown
  obtain ⟨hfiles, hpath⟩ := hpass.lookup_eq
  have hisFile : v.isFile = w.isFile := by
    funext path
    rw [InMemory.isFile, InMemory.isFile, hfiles]
  have hlooked : lookupOf v asked = lookupOf w asked := by
    rw [lookupOf, lookupOf, hisFile, hpath]
  rw [hisFile, hpath] at hlookup
  refine ⟨published ++ earlier, last.events, asked, t'.cwd, ?_, rfl, hshown, hlookup, ?_⟩
  · rw [hlooked, List.append_assoc]
  · rw [hrun, hrun']
    exact ⟨rfl, rfl, rfl, rfl⟩

/-- A world with two scripts, the second of which is in a directory that the first one goes to. -/
def scriptsElsewhere : InMemory :=
  .create [("/go", [0x63, 0x64, 0x20, 0x2F, 0x68, 0x6F, 0x6D, 0x65, 0x0A]),
    ("/home/stop", [0x65, 0x78, 0x69, 0x74, 0x0A])] [] "/" "/bin" [] [] [] false false []

/-- A script that is neither in the search path nor where the first script went is as if it had not been
named between the two. -/
theorem run_unopened_of_missingScript :
    let o := (Shell.default.run 12 ["/go", "gone", "stop"]).run InMemory.answer (.default "/") scriptsElsewhere
    let o' := (Shell.default.run 12 ["/go", "stop"]).run InMemory.answer (.default "/") scriptsElsewhere
    o.events = o.events.take 10 ++ attemptOn scriptsElsewhere ["/bin/gone"] "/home/gone" ++ o.events.drop 14 ∧
      o'.events = o.events.take 10 ++ o.events.drop 14 ∧ o'.ending = .returned 0 ∧ o'.state.cwd = "/home" ∧
      o'.world.pwd = "/home" := by
  intro o o'
  have hsplit : o.events = o.events.take 12 ++
      .called (.openReadOnly "/home/gone") (.error (.fileNotFound "/home/gone" [])) :: o.events.drop 13 := rfl
  obtain ⟨earlier, later, asked, cwd, hbefore, -, hafter, hlookup, hevents, hending, hstate, hworld⟩ :=
    run_unopened Shell.default 12 ["/go"] ["stop"] "gone" (.default "/") rfl hsplit rfl
  have hasked : [Text.ofString "/bin/gone"] = asked := congrArg Prod.snd hlookup
  subst hasked
  have hlater : o.events.drop 14 = later := congrArg (List.drop 1) hafter
  have hearlier : o.events.take 10 = earlier := List.append_cancel_right hbefore
  rw [hlater, hearlier]
  refine ⟨?_, hevents, hending, congrArg Session.cwd hstate, congrArg InMemory.pwd hworld⟩
  rw [hsplit, hbefore, hafter, attemptOn, List.append_assoc, List.append_assoc, List.append_assoc]
  rfl

end Shell

end LineShell
