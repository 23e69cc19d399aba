import LineShell.Proofs.Services.Delivery
import LineShell.Proofs.Shell.Exit

/-!
# Programs as they are written

The tokens of a line are text as long as the shell has them, and they are bytes again when a child becomes
the program that the line names.  The arguments are then those of the line byte for byte, and so is the
path, but for the directory that the program is looked for in (`OsWorld.AsWritten`).

The directory is one that the world has when the line is run, because nothing is done until then that
changes it: `Preparing` holds up to the moment the program is executed.  From there on nothing else is
executed (`keeps_faithful`).  The main result is `Shell.allAsWritten`.
-/

namespace LineShell

open Program LineShell.Action
open OsWorld (answer)
open Text.Utf8 (encode? decode)

/-! ## Paths as bytes -/

namespace Lookup

/-- The byte between the components of a path. -/
def separatorByte : UInt8 := 0x2F

theorem isAbsolute_decode {name : Bytes} :
    isAbsolute (decode name) = true ↔ name.head? = some separatorByte := by
  have hhead : ∀ text, isAbsolute text = true ↔ text.head? = some separator := by
    intro text
    cases text <;> simp [isAbsolute]
  exact (hhead _).trans (Text.Utf8.head?_decode_eq_iff (by decide))

theorem encode?_join (directory : Text) {name : Text} {bytes : Bytes} (h : encode? name = some bytes) :
    encode? (join directory name) = (encode? directory).map (· ++ separatorByte :: bytes) := by
  have hname : encode? (separator :: name) = some ([separatorByte] ++ bytes) :=
    Text.Utf8.encode?_cons rfl h
  exact Text.Utf8.encode?_append_of_some directory hname

/-- A path that a name may come to: itself if it starts at the root, and else itself in one of some
directories. -/
def Candidate (directories : List Text) (name path : Text) : Prop :=
  if isAbsolute name then path = name else ∃ directory ∈ directories, path = join directory name

end Lookup

open Lookup (separatorByte Candidate)

/-- The directories that a command is looked for in: those of the search path, and the working
directory, or the one that the environment has in its place. -/
def OsWorld.commandDirectories (w : OsWorld) : List Text :=
  Lookup.directories ((w.environment.lookup Host.pathVariable).getD []) ++
    [w.cwd, (w.environment.lookup Host.pwdVariable).getD "/"]

/-- A program is that of a line, byte for byte: its arguments are the tokens, and its path is the
command, behind a directory unless it starts at the root. -/
structure OsWorld.AsWritten (w : OsWorld) (tokens : List Bytes) (path : Text) (argv : List Text) :
    Prop where
  argv : argv.map encode? = tokens.map some
  path : if (tokens.headD []).head? = some separatorByte then encode? path = some (tokens.headD [])
    else ∃ directory ∈ w.commandDirectories,
      encode? path = (encode? directory).map (· ++ separatorByte :: tokens.headD [])

/-- Every program that was executed is that of a line. -/
def AllAsWritten (start : OsWorld) (tokens : List Bytes) (past : List (Event OsCall.Reply)) : Prop :=
  ∀ path argv, Deed.executed path argv ∈ View.system.deeds past → start.AsWritten tokens path argv

variable {start : OsWorld} {tokens : List Bytes} {past more : List (Event OsCall.Reply)}

/-- The program that a candidate for the path of the command is. -/
theorem asWritten_of_candidate {path : Text}
    (h : Candidate start.commandDirectories (decode (tokens.headD [])) path) :
    start.AsWritten tokens path (tokens.map decode) where
  argv := by
    rw [List.map_map]
    exact List.map_congr_left fun token _ => Text.Utf8.encode?_decode token
  path := by
    unfold Candidate at h
    by_cases habsolute : (tokens.headD []).head? = some separatorByte
    · rw [if_pos (Lookup.isAbsolute_decode.mpr habsolute)] at h
      rw [if_pos habsolute, h, Text.Utf8.encode?_decode]
    · rw [if_neg fun hname => habsolute (Lookup.isAbsolute_decode.mp hname)] at h
      obtain ⟨directory, hdirectory, rfl⟩ := h
      rw [if_neg habsolute]
      exact ⟨directory, hdirectory, Lookup.encode?_join directory (Text.Utf8.encode?_decode _)⟩

theorem AllAsWritten.append (h : AllAsWritten start tokens past) (h' : AllAsWritten start tokens more) :
    AllAsWritten start tokens (past ++ more) := by
  intro path argv hmem
  rw [View.deeds_append] at hmem
  exact (List.mem_append.mp hmem).elim (h path argv) (h' path argv)

/-- Events in which nothing is executed. -/
theorem allAsWritten_of_ne (h : ∀ c outcome, .called c outcome ∈ past → c.name ≠ .execve) :
    AllAsWritten start tokens past := by
  intro path argv hmem
  obtain ⟨event, hevent, hdeed⟩ := List.mem_filterMap.mp hmem
  cases event with
  | logged entry => cases hdeed
  | called c outcome =>
      have hname := h c outcome hevent
      cases c with
      | execve => exact absurd rfl hname
      | fork => cases outcome <;> cases hdeed
      | _ => cases hdeed

theorem allAsWritten_logged (entry : Log.Entry) : AllAsWritten start tokens [.logged entry] :=
  allAsWritten_of_ne fun _ _ hmem => nomatch List.mem_singleton.mp hmem

/-! ## What calls keep -/

namespace Host

/-- An assertion that depends neither on the session nor on log entries, and that some calls keep. -/
structure Keeps (calls : OsCall.Name → Prop) (I : Assertion Session OsWorld OsCall.Reply) : Prop where
  called : ∀ c : OsCall, calls c.name → ∀ past s w, I past s w →
    I (past ++ .called c (answer c w).outcome :: (answer c w).inner) s (answer c w).world
  session : ∀ past s t w, I past s w → I past t w
  logged : ∀ entry past s w, I past s w → I (past ++ [.logged entry]) s w

variable {calls : OsCall.Name → Prop} {I : Assertion Session OsWorld OsCall.Reply} {α : Type}

/-- What single calls keep is kept by a program of such calls. -/
theorem Keeps.ensures_host (hI : Keeps calls I) {p : Program Session OsCall.Reply α}
    {names : List OsCall.Name} {stops : Bool} (hp : p.Footprint (scope names stops))
    (hnames : ∀ name ∈ names, calls name) :
    Ensures answer I p (fun _ => I) (fun _ => I) I :=
  hp.ensures (fun c hc => hI.called c (hnames _ (List.contains_iff_mem.mp hc)))
    (fun _ _ _ _ h => h.elim) (fun entry _ => hI.logged entry) fun _ _ _ _ h => h

/-- What single calls keep is kept by the shell where its services make no others. -/
theorem Keeps.ensures (hI : Keeps calls I) {p : Action α} {names : List ServiceCall.Name}
    {parts : List Session.Part} {stops : Bool} (hp : p.Footprint (Shell.scope names parts stops))
    (hnames : ∀ name ∈ names, ∀ call ∈ callsOf name, calls call) {spare : Nat} :
    Ensures answer I (p.interpret (carryOut spare)) (fun _ => I) (fun _ => I) I := by
  refine hp.ensures_interpret (fun c hc => ?_) (fun c s w => ?_)
    (fun past s t w _ => hI.session past s t w) (fun entry _ => hI.logged entry) fun _ _ _ _ h => h
  · exact hI.ensures_host (footprint_carryOut spare c) (hnames _ (List.contains_iff_mem.mp hc))
  · exact (footprint_carryOut spare c).run_state (fun _ _ h => h) s w

end Host

open Host (Keeps)

/-- At every moment of a run whatever was executed is that of a line. -/
def Faithful (start : OsWorld) (tokens : List Bytes) : Assertion Session OsWorld OsCall.Reply :=
  fun past _ _ => AllAsWritten start tokens past

/-- Calls that execute nothing keep what was executed. -/
theorem keeps_faithful (start : OsWorld) (tokens : List Bytes) :
    Keeps (· ≠ .execve) (Faithful start tokens) where
  called c hc past s w h := by
    refine AllAsWritten.append h (allAsWritten_of_ne fun d outcome hmem => ?_)
    rcases List.mem_cons.mp hmem with hcall | hinner
    · obtain rfl := (Event.called.inj hcall).1
      exact hc
    · rw [OsWorld.answer_inner_kill c w d outcome hinner]
      nofun
  session _ _ _ _ h := h
  logged entry _ _ _ h := AllAsWritten.append h (allAsWritten_logged entry)

/-- The calls that execute a program or may change what it is looked for in. -/
def unsettlingCalls : List OsCall.Name := [.execve, .chdir, .setVariable, .waitpid]

/-- Up to the moment a program is executed the surroundings are those that the line was run in. -/
def Preparing (start : OsWorld) (tokens : List Bytes) : Assertion Session OsWorld OsCall.Reply :=
  fun past s w => Faithful start tokens past s w ∧ w.surroundings = start.surroundings

theorem keeps_preparing (start : OsWorld) (tokens : List Bytes) :
    Keeps (· ∉ unsettlingCalls) (Preparing start tokens) where
  called c hc past s w h := by
    simp only [unsettlingCalls, List.mem_cons, List.not_mem_nil, or_false, not_or] at hc
    obtain ⟨hexecve, hchdir, hset, hwait⟩ := hc
    refine ⟨(keeps_faithful start tokens).called c hexecve past s w h.1, ?_⟩
    rw [OsWorld.answer_of_ne hwait, OsWorld.answerAtOnce_surroundings hchdir hset]
    exact h.2
  session _ _ _ _ h := h
  logged entry past s w h := ⟨(keeps_faithful start tokens).logged entry past s w h.1, h.2⟩

/-! ## Looking up the program -/

namespace AsWritten

/-- A call is answered as the world would that the line was run in. -/
theorem ensures_ask {c : OsCall} (hc : c.name ∉ unsettlingCalls) :
    Ensures answer (Preparing start tokens) (OsCall.ask c)
      (fun r past s w => (∃ v : OsWorld, v.surroundings = start.surroundings ∧ (v.serve c).1 = .ok r) ∧
        Preparing start tokens past s w)
      (fun _ => Preparing start tokens) Never := by
  have hwait : c.name ≠ .waitpid := by
    intro heq
    rw [heq] at hc
    exact hc (by decide)
  refine Ensures.request (fun past s w r h hr => ⟨⟨_, ?_, OsWorld.serve_of_answer_ok hwait hr⟩, ?_⟩)
    fun past s w e h he => ?_
  · exact h.2
  · rw [← hr]
    exact (keeps_preparing start tokens).called c hc past s w h
  · rw [← he]
    exact (keeps_preparing start tokens).called c hc past s w h

theorem ensures_variableOr (name other : Text) :
    Ensures answer (Preparing start tokens) (Host.variableOr name other)
      (fun r past s w => r = (start.environment.lookup name).getD other ∧
        Preparing start tokens past s w)
      (fun _ => Preparing start tokens) Never := by
  refine Ensures.bind (ensures_ask (c := .environment) (by decide)) fun environment => ?_
  refine Ensures.done ?_
  rintro past s w ⟨⟨v, hv, hserve⟩, h⟩
  obtain rfl : v.environment = environment := Except.ok.inj hserve
  exact ⟨by rw [(Prod.mk.inj hv).2], h⟩

theorem ensures_getPwd :
    Ensures answer (Preparing start tokens) Host.getPwd
      (fun pwd past s w =>
        (pwd = start.cwd ∨ pwd = (start.environment.lookup Host.pwdVariable).getD "/") ∧
        Preparing start tokens past s w)
      (fun _ => Preparing start tokens) Never := by
  refine Ensures.bind (Ensures.attempt (ensures_ask (c := .getcwd) (by decide)))
    fun outcome => ?_
  rcases outcome with e | path
  · cases e with
    | os errno text =>
        exact (ensures_variableOr _ _).mono_returns fun _ _ _ _ h => ⟨.inr h.1, h.2⟩
    | _ => exact Ensures.fail fun _ _ _ h => h
  · refine Ensures.done ?_
    rintro past s w ⟨⟨v, hv, hserve⟩, h⟩
    have hpath : path = v.cwd := by
      simp only [OsWorld.serve] at hserve
      split at hserve
      · cases hserve
      · exact (Except.ok.inj hserve).symm
    exact ⟨.inl (hpath.trans (Prod.mk.inj hv).1), h⟩

variable {spare : Nat}

theorem ensures_firstFound (name : Text) (directories : List Text) :
    Ensures answer (Preparing start tokens)
      ((Lookup.firstFound Child.isFile name directories).interpret (Host.carryOut spare))
      (fun found past s w =>
        (∀ path, found = some path → ∃ directory ∈ directories, path = Lookup.join directory name) ∧
        Preparing start tokens past s w)
      (fun _ => Preparing start tokens) (Preparing start tokens) := by
  induction directories with
  | nil => exact Ensures.done fun _ _ _ h => ⟨nofun, h⟩
  | cons directory rest ih =>
      refine Ensures.interpret_bind (m := fun _ => Preparing start tokens) ?_ fun found => ?_
      · exact (keeps_preparing start tokens).ensures
          (@footprint_ask [.fileExists] [] false (.fileExists _) rfl) (by decide)
      cases found with
      | true =>
          refine Ensures.done fun _ _ _ h => ⟨?_, h⟩
          rintro path heq
          exact ⟨directory, List.mem_cons_self, (Option.some.inj heq).symm⟩
      | false =>
          refine ih.mono_returns fun found past s w h => ⟨fun path heq => ?_, h.2⟩
          obtain ⟨directory, hdirectory, hpath⟩ := h.1 path heq
          exact ⟨directory, List.mem_cons_of_mem _ hdirectory, hpath⟩

/-- What a command is looked up as is a candidate for its path. -/
theorem ensures_resolveProgram (name : Text) :
    Ensures answer (Preparing start tokens)
      ((Child.resolveProgram name .search).interpret (Host.carryOut spare))
      (fun path past s w => Candidate start.commandDirectories name path ∧
        Preparing start tokens past s w)
      (fun _ => Preparing start tokens) (Preparing start tokens) := by
  refine Ensures.interpret_bind
    (Ensures.interpret_request (ensures_getPwd.part fun _ _ _ _ h => h)) fun pwd => ?_
  refine Ensures.and_pre fun hpwd => ?_
  refine Ensures.interpret_bind
    (Ensures.interpret_request ((ensures_variableOr _ _).part fun _ _ _ _ h => h)) fun searchPath => ?_
  refine Ensures.and_pre fun hsearchPath => ?_
  -- what is found is in a directory of the search path, and what is not found in the working directory
  have hfound : ∀ directory ∈ Lookup.directories searchPath, directory ∈ start.commandDirectories := by
    intro directory hdirectory
    rw [hsearchPath] at hdirectory
    exact List.mem_append_left _ hdirectory
  have hmissing : pwd ∈ start.commandDirectories := by
    refine List.mem_append_right _ ?_
    rcases hpwd with rfl | rfl
    · exact List.mem_cons_self
    · exact List.mem_cons_of_mem _ List.mem_cons_self
  unfold Lookup.resolve Candidate
  cases Lookup.isAbsolute name with
  | true => exact Ensures.done fun _ _ _ h => ⟨rfl, h⟩
  | false =>
      refine Ensures.interpret_bind (ensures_firstFound name _) fun found => ?_
      refine Ensures.and_pre fun hdirectory => ?_
      cases found with
      | none => exact Ensures.done fun _ _ _ h => ⟨⟨pwd, hmissing, rfl⟩, h⟩
      | some path =>
          obtain ⟨directory, hmem, rfl⟩ := hdirectory path rfl
          exact Ensures.done fun _ _ _ h => ⟨⟨directory, hfound directory hmem, rfl⟩, h⟩

/-! ## Becoming the program -/

/-- A program that is as it is written may be executed. -/
theorem ensures_exec {path : Text} {argv : List Text} (h : start.AsWritten tokens path argv) :
    Ensures answer (Faithful start tokens) (Host.exec path argv) (fun _ => Faithful start tokens)
      (fun _ => Faithful start tokens) (Faithful start tokens) := by
  have hkeeps := keeps_faithful start tokens
  have hexecve : ∀ environment, Ensures answer (Faithful start tokens)
      (OsCall.ask (.execve path argv environment)) (fun _ => Faithful start tokens)
      (fun _ => Faithful start tokens) (Faithful start tokens) := by
    intro environment
    -- this is the one call that may start a program
    have hexecuted : ∀ outcome,
        AllAsWritten start tokens [.called (.execve path argv environment) outcome] := by
      intro outcome other arguments hmem
      obtain ⟨rfl, rfl⟩ := Deed.executed.inj (List.mem_singleton.mp hmem)
      exact h
    have hname : (OsCall.execve path argv environment).name ≠ .waitpid := nofun
    refine Ensures.request_alone (OsWorld.answer_inner_of_ne hname) ?_ ?_
    · exact fun _ _ _ _ hpast _ => AllAsWritten.append hpast (hexecuted _)
    · exact fun _ _ _ _ hpast _ => AllAsWritten.append hpast (hexecuted _)
  have hreport : ∀ message, Ensures answer (Faithful start tokens) (Host.reportExec path message)
      (fun _ => Faithful start tokens) (fun _ => Faithful start tokens) (Faithful start tokens) := by
    intro message
    exact hkeeps.ensures_host (@Host.footprint_reportExec _ [.getpid] path message rfl) (by decide)
  refine Ensures.bind (hkeeps.ensures_host (@Host.footprint_ask _ [.environment] false .environment rfl)
    (by decide)) fun environment => ?_
  refine Ensures.bind (hexecve environment).attempt fun outcome => ?_
  rcases outcome with e | ⟨⟩
  · cases e with
    | os errno text => exact hreport _
    | badValue text => exact hreport _
    | _ => exact Ensures.fail fun _ _ _ hpast => hpast
  · exact Ensures.done fun _ _ _ hpast => hpast

/-- What executes nothing and changes no directory leaves everything to be done. -/
theorem ensures_preparing {α : Type} {p : Action α} {names : List ServiceCall.Name}
    {parts : List Session.Part} {stops : Bool} (hp : p.Footprint (Shell.scope names parts stops))
    (hnames : ∀ name ∈ names, ∀ call ∈ Host.callsOf name, call ∉ unsettlingCalls) :
    Ensures answer (Preparing start tokens) (p.interpret (Host.carryOut spare))
      (fun _ => Preparing start tokens) (fun _ => Faithful start tokens) (Faithful start tokens) :=
  ((keeps_preparing start tokens).ensures hp hnames).mono (fun _ _ _ h => h) (fun _ _ _ _ h => h)
    (fun _ _ _ _ h => h.1) fun _ _ _ h => h.1

/-- What executes nothing leaves what was executed. -/
theorem ensures_faithful {α : Type} {p : Action α} {names : List ServiceCall.Name}
    {parts : List Session.Part} {stops : Bool} (hp : p.Footprint (Shell.scope names parts stops))
    (hnames : ∀ name ∈ names, ∀ call ∈ Host.callsOf name, call ≠ .execve) :
    Ensures answer (Faithful start tokens) (p.interpret (Host.carryOut spare))
      (fun _ => Faithful start tokens) (fun _ => Faithful start tokens) (Faithful start tokens) :=
  (keeps_faithful start tokens).ensures hp hnames

theorem ensures_replaceProgram :
    Ensures answer (Preparing start tokens)
      ((Child.replaceProgram (tokens.map decode) .search).interpret (Host.carryOut spare))
      (fun _ => Faithful start tokens) (fun _ => Faithful start tokens) (Faithful start tokens) := by
  refine Ensures.interpret_bind
    (ensures_preparing (@footprint_ask [.getPid] [] false .getPid rfl) (by decide)) fun pid => ?_
  rcases tokens with _ | ⟨name, rest⟩
  · exact Ensures.fail fun _ _ _ h => h.1
  refine Ensures.interpret_bind
    (m := fun path past s w => Candidate start.commandDirectories (decode name) path ∧
      Faithful start (name :: rest) past s w) ?_ fun path => Ensures.and_pre fun hpath => ?_
  · exact (ensures_resolveProgram (decode name)).mono (fun _ _ _ h => h)
      (fun _ _ _ _ h => ⟨h.1, h.2.1⟩) (fun _ _ _ _ h => h.1) fun _ _ _ h => h.1
  refine Ensures.interpret_bind
    (ensures_faithful (@footprint_childSay [] [] false _ _ _ _) nofun) fun _ => ?_
  refine Ensures.interpret_bind (m := fun _ => Faithful start (name :: rest))
    (Ensures.interpret_orElse
      (Ensures.interpret_request (ensures_exec (asWritten_of_candidate hpath))) fun e => ?_)
    fun _ => Ensures.fail fun _ _ _ h => h
  cases e.reportOf? .execFailed with
  | none => exact Ensures.fail fun _ _ _ h => h
  | some r =>
      exact Ensures.interpret_bind (ensures_faithful (@footprint_childSay [] [] false _ _ _ _) nofun)
        fun _ => Ensures.fail fun _ _ _ h => h

variable (shell : Shell)

theorem ensures_becomeCommand :
    Ensures answer (Preparing start tokens)
      ((shell.becomeCommand (tokens.map decode)).interpret (Host.carryOut spare))
      (fun _ => Faithful start tokens) (fun _ => Faithful start tokens) (Faithful start tokens) := by
  have hterminate := @ensures_faithful start tokens spare _ _ _ _ _
    (footprint_terminate shell.execFailureStatus) (by decide)
  refine Ensures.interpret_andFinally
    (Ensures.interpret_orElse ensures_replaceProgram fun e => ?_)
    (fun _ => hterminate) fun _ => hterminate
  cases e.reportOf? .execFailed with
  | none => exact Ensures.fail fun _ _ _ h => h
  | some r => exact ensures_faithful (Shell.footprint_print _) (by decide)

theorem ensures_runInChild :
    Ensures answer (Preparing start tokens)
      ((shell.runInChild (tokens.map decode)).interpret (Host.carryOut spare))
      (fun _ => Faithful start tokens) (fun _ => Faithful start tokens) (Faithful start tokens) := by
  refine Ensures.interpret_bind (ensures_preparing Shell.footprint_spawnOrReport (by decide))
    fun child => ?_
  cases child with
  | none => exact Ensures.done fun _ _ _ h => h.1
  | some pid =>
      have hwait := @ensures_faithful start tokens spare _ _ _ _ _
        (Footprint.bind (footprint_wait pid shell.waitTimeout) fun _ => Footprint.done true) (by decide)
      simp only [bind_eq_bind, pure_eq_done]
      split
      · exact Ensures.interpret_bind (ensures_becomeCommand shell) fun _ => hwait
      · exact hwait.weaken fun _ _ _ h => h.1

/-- A line is split into its tokens, if at all, and nothing is called for it. -/
theorem ensures_tokenize (chunk : Bytes) :
    Ensures answer (Preparing start tokens) ((shell.tokenize chunk).interpret (Host.carryOut spare))
      (fun found past s w => found = Line.tokens (UInt8.ofNat shell.marker.val) chunk ∧
        Preparing start tokens past s w)
      (fun _ => Faithful start tokens) (Faithful start tokens) := by
  intro past s w h
  obtain ⟨ending, line, -, hrun, hends⟩ :=
    Shell.run_tokenize_cases answer (Host.carryOut spare) shell chunk s w
  rw [hrun, List.append_nil]
  rcases hends with rfl | ⟨e, rfl, -⟩
  · exact ⟨rfl, (keeps_preparing start tokens).session past s _ w h⟩
  · exact h.1

end AsWritten

/-- Every program that a line is run as is that of the line, byte for byte. -/
theorem Shell.allAsWritten (shell : Shell) (spare : Nat) (s : Session) (start : OsWorld)
    (interactive : Bool) (chunk : Bytes) :
    AllAsWritten start (Line.rawTokens (UInt8.ofNat shell.marker.val) chunk)
      ((Host.onHost spare (shell.runLine (Builtin.dispatch shell.home) interactive chunk)).run answer
        s start).events := by
  generalize htokens : Line.rawTokens (UInt8.ofNat shell.marker.val) chunk = tokens
  have hfound : Line.tokens (UInt8.ofNat shell.marker.val) chunk = tokens.map decode := by
    rw [Line.tokens, htokens]
  have hline : Ensures answer (Preparing start tokens)
      (Host.onHost spare (shell.runLine (Builtin.dispatch shell.home) interactive chunk))
      (fun _ => Faithful start tokens) (fun _ => Faithful start tokens) (Faithful start tokens) := by
    refine Ensures.interpret_bind (AsWritten.ensures_tokenize shell chunk) fun found => ?_
    refine Ensures.and_pre ?_
    rintro rfl
    rw [hfound]
    by_cases hcommand : Builtin.ofName? ((tokens.map decode).headD []) = none
    · have hdispatch : Builtin.dispatch shell.home (tokens.map decode) = done .notBuiltin := by
        simp only [Builtin.dispatch, hcommand]
        rfl
      rw [hdispatch]
      refine Ensures.interpret_bind (m := fun verdict past s w => verdict = .notBuiltin ∧
        Preparing start tokens past s w) (Ensures.done fun _ _ _ h => ⟨rfl, h⟩) fun verdict => ?_
      refine Ensures.and_pre ?_
      rintro rfl
      refine Ensures.interpret_bind (AsWritten.ensures_runInChild shell) fun made => ?_
      cases made <;> exact Ensures.done fun _ _ _ h => h
    · -- a built-in command is no program, whatever it does to the surroundings
      have hdispatch := (Builtin.ensures_dispatch_verdict shell.home (tokens.map decode)).and
        (@AsWritten.ensures_faithful start tokens spare _ _ _ _ _ (footprint_dispatch shell.home _)
          (by decide))
      refine Ensures.interpret_bind (hdispatch.mono (fun _ _ _ h => h.1) (fun _ _ _ _ h => h)
        (fun _ _ _ _ h => h.2) fun _ _ _ h => h.2) fun verdict => Ensures.and_pre ?_
      rintro rfl
      rcases hname : Builtin.ofName? ((tokens.map decode).headD []) with _ | _ | _
      · exact absurd hname hcommand
      · exact Ensures.done fun _ _ _ h => h
      · exact Ensures.done fun _ _ _ h => h
  refine hline.always (fun _ _ _ _ h => h) (fun _ _ _ _ h => h) (fun _ _ _ h => h) ⟨?_, rfl⟩
  exact allAsWritten_of_ne fun _ _ hmem => absurd hmem List.not_mem_nil

end LineShell
