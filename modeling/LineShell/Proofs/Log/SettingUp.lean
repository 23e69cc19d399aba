import LineShell.Proofs.Log.Delivery
import LineShell.Proofs.Text.Utf8

/-!
# Setting the journal up

A journal may be set up by several calls, of which some fail on their log file.  `Journal.Attempt` says what
one call comes to.  A journal that is set up ignores it.  Otherwise the call adds an outlet in memory and, if
that is wanted, one to the console before it looks at the log file; if the file then cannot be opened, the
journal does not count as set up, but the two outlets and the level stay.

So a sequence of calls comes to this (`setUp_delivers`): either all of them fail, or the first that does not
fail sets the journal up, and those behind it are ignored.  From then on each record that matters enough for
that call is kept in memory once and gets to its file once.  It is printed once for that call, and once more
for each call that failed before it and found it to matter enough.  Only where none failed before is it
printed once.
-/

namespace LineShell.Log

/-- A call to set the journal up, with a named level. -/
structure Call where
  level : Level
  logFile : Value := .null
  consoleOutput : Value := .bool true
  useColours : Value := .bool true

namespace Call

def options (c : Call) : Options := ⟨.int c.level.value, c.logFile, c.consoleOutput, c.useColours⟩

/-- The outlets that a call adds before it looks at its log file. -/
def outlets (console : Console) (c : Call) : List Outlet :=
  ⟨c.level.value, .memory {}⟩ ::
    if c.consoleOutput.isTruthy then [⟨c.level.value, .console (console.isColoured c.useColours)⟩] else []

/-- A record matters enough for a call. -/
def admits (c : Call) (r : Record) : Bool := c.level.value ≤ r.level

/-- What is printed of a record because of a call. -/
def printed (console : Console) (r : Record) (c : Call) : Text :=
  if c.admits r && c.consoleOutput.isTruthy then Journal.lineOf (console.isColoured c.useColours) r else []

end Call

namespace Journal

variable {j : Journal} {c : Call}

/-- A journal with the outlets that a call adds before it looks at its log file. -/
def opened (j : Journal) (c : Call) : Journal :=
  { j with level := c.level.value, outlets := j.outlets ++ c.outlets j.console }

/-- What a call comes to. -/
inductive Attempt (j : Journal) (c : Call) : Except Failure Unit × Journal → Prop
  /-- The journal is set up already. -/
  | ignored (h : j.isSetUp = true) : Attempt j c (.ok (), j)
  /-- There is no log file. -/
  | unfiled (h : j.isSetUp = false) (hfile : c.logFile.isTruthy = false) :
      Attempt j c (.ok (), { j.opened c with isSetUp := true })
  /-- The log file is open. -/
  | filed (h : j.isSetUp = false) {path : Text} (hpath : path ≠ []) (hfile : c.logFile = .text path)
      {disk : Disk} {content : Bytes} (hcontent : disk.at? (Disk.placeAsWritten path) = .file content) :
      Attempt j c (.ok (),
        { j.opened c with
          disk := disk
          outlets := (j.opened c).outlets ++ [⟨c.level.value, .file (Disk.placeAsWritten path)⟩]
          isSetUp := true })
  /-- The log file cannot be opened. -/
  | failed (h : j.isSetUp = false) (hfile : c.logFile.isTruthy = true) (e : Failure) (disk : Disk) :
      Attempt j c (.error e, { j.opened c with disk := disk })

/-- Where a log file is opened, the journal gets one outlet to it; otherwise only the disk changes. -/
theorem addLogFile_cases (j : Journal) (logFile : Value) :
    (∃ e disk, j.addLogFile logFile = (.error e, { j with disk := disk })) ∨
    ∃ path disk content, logFile = .text path ∧ disk.at? (Disk.placeAsWritten path) = .file content ∧
      j.addLogFile logFile = (.ok (),
        { j with
          disk := disk
          outlets := j.outlets ++ [⟨j.level, .file (Disk.placeAsWritten path)⟩] }) := by
  unfold addLogFile
  split
  · rename_i path
    split
    · exact .inl ⟨_, _, rfl⟩
    · rename_i made _
      cases hopen : made.openToAdd path with
      | error e => exact .inl ⟨e, made, rfl⟩
      | ok found =>
          obtain ⟨disk, place⟩ := found
          obtain ⟨rfl, content, hcontent⟩ := Disk.openToAdd_eq_ok hopen
          exact .inr ⟨path, disk, content, rfl, hcontent, rfl⟩
  · exact .inl ⟨_, j.disk, rfl⟩

section NotYet

variable {after : Journal} {e : Failure}

theorem ofSetting_options (c : Call) : Level.ofSetting c.options.level = .ok c.level.value := rfl

theorem opened_eq (j : Journal) (c : Call) :
    (if c.options.consoleOutput.isTruthy then
      ({ j with level := c.level.value }.addOutlet (.memory {})).addOutlet
        (.console (j.console.isColoured c.options.useColours))
      else { j with level := c.level.value }.addOutlet (.memory {})) = j.opened c := by
  by_cases hconsole : c.consoleOutput.isTruthy <;>
    simp [opened, Call.options, Call.outlets, addOutlet, hconsole]

theorem setUp_unfiled (h : j.isSetUp = false) (hfile : c.options.logFile.isTruthy = false) :
    j.setUp c.options = (.ok (), { j.opened c with isSetUp := true }) := by
  rw [setUp, if_neg (Bool.eq_false_iff.mp h), ofSetting_options]
  dsimp only
  rw [opened_eq, if_neg (Bool.eq_false_iff.mp hfile)]

theorem setUp_filed (h : j.isSetUp = false) (hfile : c.options.logFile.isTruthy = true)
    (hadd : (j.opened c).addLogFile c.options.logFile = (.ok (), after)) :
    j.setUp c.options = (.ok (), { after with isSetUp := true }) := by
  rw [setUp, if_neg (Bool.eq_false_iff.mp h), ofSetting_options]
  dsimp only
  rw [opened_eq, if_pos hfile, hadd]

theorem setUp_failed (h : j.isSetUp = false) (hfile : c.options.logFile.isTruthy = true)
    (hadd : (j.opened c).addLogFile c.options.logFile = (.error e, after)) :
    j.setUp c.options = (.error e, after) := by
  rw [setUp, if_neg (Bool.eq_false_iff.mp h), ofSetting_options]
  dsimp only
  rw [opened_eq, if_pos hfile, hadd]

end NotYet

theorem setUp_of_isSetUp (h : j.isSetUp = true) : j.setUp c.options = (.ok (), j) := if_pos h

theorem attempt_setUp (j : Journal) (c : Call) : Attempt j c (j.setUp c.options) := by
  cases hset : j.isSetUp with
  | true =>
      rw [setUp_of_isSetUp hset]
      exact .ignored hset
  | false =>
      cases hfile : c.logFile.isTruthy with
      | false =>
          rw [setUp_unfiled hset hfile]
          exact .unfiled hset hfile
      | true =>
          obtain ⟨e, disk, hadd⟩ | ⟨path, disk, content, hpath, hcontent, hadd⟩ :=
            (j.opened c).addLogFile_cases c.logFile
          · rw [setUp_failed hset hfile hadd]
            exact .failed hset hfile e disk
          · have hsome : path ≠ [] := by
              rintro rfl
              rw [hpath] at hfile
              cases hfile
            rw [setUp_filed hset hfile hadd]
            exact .filed hset hsome hpath hcontent

/-! ## One call after another -/

/-- What a sequence of calls leaves. -/
def setUpAll (j : Journal) (calls : List Call) : Journal :=
  calls.foldl (fun j c => (j.setUp c.options).2) j

/-- Each call of a sequence fails. -/
def AllFail (j : Journal) : List Call → Prop
  | [] => True
  | c :: rest => (∃ e, (j.setUp c.options).1 = .error e) ∧ AllFail (j.setUp c.options).2 rest

theorem setUpAll_append (j : Journal) (calls others : List Call) :
    j.setUpAll (calls ++ others) = (j.setUpAll calls).setUpAll others := List.foldl_append

theorem setUpAll_of_isSetUp (h : j.isSetUp = true) (calls : List Call) : j.setUpAll calls = j := by
  induction calls with
  | nil => rfl
  | cons c rest ih =>
      have hfirst : j.setUpAll (c :: rest) = (j.setUp c.options).2.setUpAll rest := rfl
      rw [hfirst, setUp_of_isSetUp h]
      exact ih

/-- Calls that fail leave their outlets behind, but nothing else that would count. -/
theorem setUpAll_of_allFail {calls : List Call} (hset : j.isSetUp = false) (h : j.AllFail calls) :
    ∃ disk level, j.setUpAll calls =
      { j with
        disk := disk
        level := level
        outlets := j.outlets ++ calls.flatMap (Call.outlets j.console) } := by
  induction calls generalizing j with
  | nil => exact ⟨j.disk, j.level, by simp [setUpAll]⟩
  | cons c rest ih =>
      obtain ⟨⟨e, hfail⟩, hrest⟩ := h
      have hfirst : j.setUpAll (c :: rest) = (j.setUp c.options).2.setUpAll rest := rfl
      rw [hfirst]
      have hattempt := attempt_setUp j c
      generalize j.setUp c.options = after at hattempt hfail hrest ⊢
      -- the journal still does not count as set up, so the next call is not ignored either
      cases hattempt with
      | ignored | unfiled | filed => cases hfail
      | failed _ hfile e disk =>
          obtain ⟨last, level, hlast⟩ := ih (j := { j.opened c with disk := disk }) hset hrest
          exact ⟨last, level, by rw [hlast]; simp [opened]⟩

/-- The first call that does not fail splits a sequence of calls. -/
theorem allFail_or_exists (j : Journal) (calls : List Call) : j.AllFail calls ∨
    ∃ earlier c later, calls = earlier ++ c :: later ∧ j.AllFail earlier ∧
      ((j.setUpAll earlier).setUp c.options).1 = .ok () := by
  induction calls generalizing j with
  | nil => exact .inl trivial
  | cons c rest ih =>
      cases hfirst : (j.setUp c.options).1 with
      | ok _ => exact .inr ⟨[], c, rest, rfl, trivial, hfirst⟩
      | error e =>
          obtain hall | ⟨earlier, d, later, rfl, hearlier, hd⟩ := ih (j.setUp c.options).2
          · exact .inl ⟨⟨e, hfirst⟩, hall⟩
          · exact .inr ⟨c :: earlier, d, later, rfl, ⟨⟨e, hfirst⟩, hearlier⟩, hd⟩

/-! ## What becomes of records -/

/-- What becomes of records once a call has set the journal up, behind others that failed. -/
structure Delivers (j : Journal) (earlier : List Call) (c : Call) : Prop where
  /-- Each record is kept in memory once, as long as it is among the latest. -/
  memory : ∀ records, Latest 1000 ((records.filter c.admits).map Kept.ofRecord) (j.takeAll records).memory
  /-- Each record is printed once for the call, and once for each earlier one that it mattered enough for. -/
  console : ∀ records, (j.takeAll records).stderr =
    j.stderr ++ (records.filter c.admits).flatMap fun r =>
      (earlier ++ [c]).flatMap (Call.printed j.console r)
  /-- Each record gets to the log file once. -/
  file : ∀ path, path ≠ [] → c.logFile = .text path →
    ∃ content, j.disk.at? (Disk.placeAsWritten path) = .file content ∧
      ∀ records, (j.takeAll records).disk.at? (Disk.placeAsWritten path) =
        .file (content ++ (records.filter c.admits).flatMap fun r => bytesOf (lineOf false r))

theorem effectiveLevel_eq (hlevel : j.level = c.level.value) : j.effectiveLevel = c.level.value := by
  have hnonzero : c.level.value ≠ 0 := by cases c.level <;> decide
  rw [effectiveLevel, hlevel, if_neg hnonzero]

theorem flatMap_printed (console : Console) (r : Record) (c : Call) :
    (c.outlets console).flatMap (·.printed r) = c.printed console r := by
  have hadmits : c.admits r = !decide (r.level < c.level.value) := by
    simp only [Call.admits, ← Int.not_lt, decide_not]
  by_cases hconsole : c.consoleOutput.isTruthy <;> by_cases hlevel : r.level < c.level.value <;>
    simp [Call.outlets, Call.printed, hadmits, Outlet.printed, hconsole, hlevel]

/-- Only the first outlet of a call is one in memory. -/
theorem recent?_of_mem_tail {console : Console} {o : Outlet} (h : o ∈ (c.outlets console).tail) :
    o.recent? = none := by
  unfold Call.outlets at h
  split at h
  · obtain rfl := List.mem_singleton.mp h
    rfl
  · cases h

theorem ne_file_of_mem_outlets {console : Console} {calls : List Call} :
    ∀ o ∈ calls.flatMap (Call.outlets console), ∀ place, o.sink ≠ .file place := by
  intro o ho place
  obtain ⟨c, -, hc⟩ := List.mem_flatMap.mp ho
  unfold Call.outlets at hc
  split at hc
  all_goals
    simp only [List.mem_cons, List.not_mem_nil, or_false] at hc
    rcases hc with rfl | rfl <;> nofun

/-- The outlets of all calls up to one that succeeds, perhaps with one to its log file behind them. -/
theorem delivers_of_outlets {earlier : List Call} (file : List Outlet) (hlevel : j.level = c.level.value)
    (houtlets : j.outlets = (earlier ++ [c]).flatMap (Call.outlets j.console) ++ file)
    (hsilent : ∀ o ∈ file, o.recent? = none ∧ ∀ r, o.printed r = [])
    (hfile : ∀ path, path ≠ [] → c.logFile = .text path →
      file = [⟨c.level.value, .file (Disk.placeAsWritten path)⟩] ∧
        ∃ content, j.disk.at? (Disk.placeAsWritten path) = .file content) : Delivers j earlier c := by
  have heffective := effectiveLevel_eq hlevel
  have htakes : j.takes = c.admits := by
    funext r
    rw [takes, heffective]
    rfl
  have hsome : j.outlets ≠ [] := by simp [houtlets, Call.outlets]
  constructor
  · intro records
    -- the journal is asked about its last records in memory, which are those of this call
    have hsplit : j.outlets = earlier.flatMap (Call.outlets j.console) ++
        ⟨c.level.value, .memory {}⟩ :: ((c.outlets j.console).tail ++ file) := by
      simp [houtlets, Call.outlets]
    have hback : ∀ o ∈ (c.outlets j.console).tail ++ file, o.recent? = none := fun o ho =>
      (List.mem_append.mp ho).elim recent?_of_mem_tail fun hlog => (hsilent o hlog).1
    have hrecent : (j.takeAll records).recent? = _ :=
      recent?_takeAll hsplit rfl hback (Int.le_of_eq heffective.symm)
    rw [memory, hrecent, htakes, Option.map_some, Option.getD_some, Recent.kept_after_usual,
      Recent.sinceClear_map_add]
    exact latest_rtake 1000 _
  · intro records
    have hprinted : ∀ r, j.outlets.flatMap (·.printed r) =
        (earlier ++ [c]).flatMap (Call.printed j.console r) := by
      intro r
      have hlog : file.flatMap (·.printed r) = [] :=
        List.flatMap_eq_nil_iff.mpr fun o ho => (hsilent o ho).2 r
      rw [houtlets, List.flatMap_append, hlog, List.append_nil, List.flatMap_assoc]
      simp only [flatMap_printed]
    rw [takeAll_eq hsome, htakes]
    simp only [hprinted]
  · intro path hpath hlog
    obtain ⟨rfl, content, hcontent⟩ := hfile path hpath hlog
    refine ⟨content, hcontent, fun records => ?_⟩
    rw [← htakes]
    exact at?_takeAll ⟨_, houtlets, ne_file_of_mem_outlets⟩ (Int.le_of_eq heffective.symm) hcontent

/-- A call that succeeds, behind others that failed. -/
theorem delivers_of_attempt {earlier : List Call} {after : Journal} (hset : j.isSetUp = false)
    (houtlets : j.outlets = earlier.flatMap (Call.outlets j.console)) (h : Attempt j c (.ok (), after)) :
    after.isSetUp = true ∧ Delivers after earlier c := by
  have hopened : (j.opened c).outlets = (earlier ++ [c]).flatMap (Call.outlets j.console) := by
    simp [opened, houtlets]
  cases h with
  | ignored h =>
      rw [hset] at h
      cases h
  | unfiled _ hfile =>
      refine ⟨rfl, delivers_of_outlets [] rfl ?_ nofun fun path hpath hlog => ?_⟩
      · rw [List.append_nil]
        exact hopened
      · rw [hlog, Value.isTruthy] at hfile
        exact absurd (by simpa using hfile) hpath
  | @filed _ path hpath hfile disk content hcontent =>
      refine ⟨rfl, delivers_of_outlets _ rfl (congrArg (· ++ _) hopened) ?_ fun other _ hlog => ?_⟩
      · intro o ho
        obtain rfl := List.mem_singleton.mp ho
        exact ⟨rfl, fun r => rfl⟩
      · rw [hfile] at hlog
        cases hlog
        exact ⟨rfl, content, hcontent⟩

/-- The first call that does not fail is the last one that counts. -/
theorem delivers_of_allFail {earlier : List Call} (hset : j.isSetUp = false) (hnone : j.outlets = [])
    (hearlier : j.AllFail earlier) (hc : ((j.setUpAll earlier).setUp c.options).1 = .ok ())
    (later : List Call) :
    (j.setUpAll earlier).setUp c.options = (.ok (), j.setUpAll (earlier ++ c :: later)) ∧
      Delivers (j.setUpAll (earlier ++ c :: later)) earlier c := by
  obtain ⟨made, level, hmade⟩ := setUpAll_of_allFail hset hearlier
  have hstill : (j.setUpAll earlier).isSetUp = false := by
    rw [hmade]
    exact hset
  have houtlets : (j.setUpAll earlier).outlets =
      earlier.flatMap (Call.outlets (j.setUpAll earlier).console) := by
    rw [hmade, hnone]
    rfl
  have hattempt := attempt_setUp (j.setUpAll earlier) c
  have hall : j.setUpAll (earlier ++ c :: later) =
      ((j.setUpAll earlier).setUp c.options).2.setUpAll later := j.setUpAll_append earlier (c :: later)
  rw [hall]
  generalize (j.setUpAll earlier).setUp c.options = result at hattempt hc ⊢
  obtain ⟨outcome, after⟩ := result
  cases hc
  obtain ⟨hafter, hdelivers⟩ := delivers_of_attempt hstill houtlets hattempt
  rw [setUpAll_of_isSetUp hafter]
  exact ⟨rfl, hdelivers⟩

/-- A log file gets the line of a record as it is, unless there is a surrogate in it, which has no bytes. -/
theorem bytesOf_lineOf {r : Record} {line : Text} (h : r.render false = .ok line) :
    if line.any Text.isSurrogate then bytesOf (lineOf false r) = []
    else Text.Utf8.encode? (line ++ "\n") = some (bytesOf (lineOf false r)) := by
  have hline : lineOf false r = line ++ "\n" := by rw [lineOf, h]
  have hend : (line ++ ("\n" : Text)).any Text.isSurrogate = line.any Text.isSurrogate := by
    rw [List.any_append]
    exact Bool.or_false _
  rw [hline, bytesOf, hend]
  cases hany : line.any Text.isSurrogate with
  | true => rfl
  | false =>
      have hplain : ∀ ch ∈ line ++ ("\n" : Text), Text.isSurrogate ch = false := by
        intro ch hch
        rw [← hend] at hany
        exact Bool.eq_false_iff.mpr (List.any_eq_false.mp hany ch hch)
      obtain ⟨bytes, hbytes⟩ := Text.Utf8.exists_encode?
        (Text.Utf8.isEncodable_iff.mpr fun ch hch => .inr (hplain ch hch))
      rw [hbytes]
      rfl

/-- What calls to set a new journal up come to, for each of them and for all in a row.  When the first one does
not fail, it is the only one that counts, and each record is kept, printed and filed because of it alone. -/
theorem setUp_delivers (disk : Disk) (console : Console) (calls : List Call) :
    let new : Journal := { disk := disk, console := console }
    (∀ (j : Journal) (c : Call), Attempt j c (j.setUp c.options)) ∧
      (new.AllFail calls ∨
        ∃ earlier c later, calls = earlier ++ c :: later ∧ new.AllFail earlier ∧
          (new.setUpAll earlier).setUp c.options = (.ok (), new.setUpAll calls) ∧
          Delivers (new.setUpAll calls) earlier c) ∧
      (∀ c later, calls = c :: later → (new.setUp c.options).1 = .ok () →
        new.setUp c.options = (.ok (), new.setUpAll calls) ∧ Delivers (new.setUpAll calls) [] c) ∧
      ∀ (r : Record) line, r.render false = .ok line →
        if line.any Text.isSurrogate then bytesOf (lineOf false r) = []
        else Text.Utf8.encode? (line ++ "\n") = some (bytesOf (lineOf false r)) := by
  intro new
  refine ⟨attempt_setUp, ?_, ?_, fun r line => bytesOf_lineOf⟩
  · obtain hall | ⟨earlier, c, later, rfl, hearlier, hc⟩ := new.allFail_or_exists calls
    · exact .inl hall
    · exact .inr ⟨earlier, c, later, rfl, hearlier, delivers_of_allFail rfl rfl hearlier hc later⟩
  · rintro c later rfl hc
    have hnone : new.AllFail [] := trivial
    exact delivers_of_allFail rfl rfl hnone hc later

/-- A call that names a directory for its log file. -/
def ontoDirectory : Call := { level := .warning, logFile := .text "/" }

/-- A call without a log file. -/
def unfiled : Call := { level := .warning }

/-- The call that fails leaves its outlet to the console behind, and a record is printed twice. -/
theorem setUp_delivers_of_directory :
    let j := ({ disk := ⟨[]⟩, console := .other } : Journal).setUpAll [ontoDirectory, unfiled]
    let r := Recent.said 30 "shell" "w"
    Delivers j [ontoDirectory] unfiled ∧ (j.takeAll [r]).stderr = lineOf false r ++ lineOf false r := by
  let new : Journal := { disk := ⟨[]⟩, console := .other }
  intro j r
  have hfirst : ∃ e, (new.setUp ontoDirectory.options).1 = .error e := ⟨_, rfl⟩
  have hsecond : ((new.setUpAll [ontoDirectory]).setUp unfiled.options).1 = .ok () := rfl
  obtain ⟨-, hall | ⟨earlier, c, later, hcalls, hearlier, hc, hdelivers⟩, -⟩ :=
    setUp_delivers ⟨[]⟩ .other [ontoDirectory, unfiled]
  · obtain ⟨e, hfail⟩ := hall.2.1
    cases hsecond.symm.trans hfail
  refine ⟨?_, rfl⟩
  match earlier, hcalls with
  | [], hcalls =>
      cases hcalls
      obtain ⟨e, hfail⟩ := hfirst
      cases hfail.symm.trans (congrArg Prod.fst hc)
  | [_], hcalls =>
      cases hcalls
      exact hdelivers
  | _ :: _ :: rest, hcalls =>
      simp only [List.cons_append, List.cons.injEq] at hcalls
      exact absurd hcalls.2.2.symm (by simp)

end Journal

end LineShell.Log
