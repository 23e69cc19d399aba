import LineShell.Proofs.Config.Dictionary
import LineShell.Proofs.Config.Reports

/-!
# A file is loaded completely or not at all

What a loader holds changes by loading a file, by setting a value and by a reset (`Loader.Change`).  When a
file is loaded after any such changes, the file alone decides what comes of it.  It is loaded if it describes
a dictionary whose sections are dictionaries and whose settings pass the checks (`readFile_eq_ok_iff`), and
then the configuration has the ten settings of the dictionary, or their default values (`described`).  Nothing
else in the dictionary matters (`ofFields_congr`).

A file that is loaded makes the changes before it as if they had not been, and a file that is not loaded is
itself as if it had not been (`Loader.after_load_of_ok`, `Loader.after_load_of_error`).
-/

namespace LineShell.Config

variable {room : Nat} {disk : Disk} {path : Text} {content : Bytes} {data other : Fields} {c : Config}
  {e : Failure}

/-! ## What a file decides -/

/-- The configuration with the ten settings of a dictionary, and the default values of those it has not. -/
def described (data : Fields) : Config where
  shell := .settings {
    promptSuffix := settingOf data "shell" "prompt_suffix" (.text "$ ")
    lineBufferSize := settingOf data "shell" "line_buffer_size" (.int 256)
    homeDirectory := settingOf data "shell" "home_directory" (.text "/home")
    commentChar := settingOf data "shell" "comment_char" (.text "#") }
  process := .settings {
    waitTimeout := settingOf data "process" "wait_timeout" (.int 0)
    execFailureStatus := settingOf data "process" "exec_failure_status" (.int 1) }
  logging := .settings {
    level := settingOf data "logging" "level" (.text "WARNING")
    logFile := settingOf data "logging" "log_file" .null
    consoleOutput := settingOf data "logging" "console_output" (.bool true)
    useColors := settingOf data "logging" "use_colors" (.bool true) }

theorem configOf_eq_described (data : Fields) : configOf data = described data := rfl

/-- What has to hold of a dictionary for a configuration to be read from it. -/
structure Accepted (data : Fields) : Prop where
  sections : ∀ name ∈ sectionNames, IsSection data name
  settings : Acceptable (settingOf data "shell" "line_buffer_size" (.int 256))
    (settingOf data "shell" "comment_char" (.text "#"))
    (settingOf data "process" "wait_timeout" (.int 0))

theorem ofFields_eq_ok_iff : ofFields data = .ok c ↔ Accepted data ∧ c = described data := by
  constructor
  · intro h
    obtain ⟨hc, hsettings⟩ := ofFields_eq_ok h
    refine ⟨⟨fun name hname => ?_, hsettings⟩, hc.trans (configOf_eq_described data)⟩
    by_contra hnot
    rw [ofFields_of_not_isSection hname hnot] at h
    cases h
  · rintro ⟨haccepted, rfl⟩
    have hvalid : validate (shellOf data) (processOf data) = .ok () := haccepted.settings.validate
    rw [ofFields_of_isSection haccepted.sections, hvalid]
    rfl

/-- Dictionaries that have the same settings, in sections that are dictionaries in both or in none, are the
same to the reader, whatever else is in them. -/
theorem ofFields_congr (hsections : ∀ name ∈ sectionNames, (IsSection data name ↔ IsSection other name))
    (hsettings : described data = described other) : ofFields data = ofFields other := by
  by_cases h : ∀ name ∈ sectionNames, IsSection data name
  · have hother : ∀ name ∈ sectionNames, IsSection other name :=
      fun name hname => (hsections name hname).mp (h name hname)
    have hconfig : configOf data = configOf other := by
      rw [configOf_eq_described, configOf_eq_described, hsettings]
    obtain ⟨hshell, hprocess, -⟩ : shellOf data = shellOf other ∧ processOf data = processOf other ∧
        loggingOf data = loggingOf other := by
      simpa only [configOf, Config.mk.injEq, Slot.settings.injEq] using hconfig
    rw [ofFields_of_isSection h, ofFields_of_isSection hother, hshell, hprocess, hconfig]
  · push Not at h
    obtain ⟨name, hname, hnot⟩ := h
    rw [ofFields_of_not_isSection hname hnot,
      ofFields_of_not_isSection hname (mt (hsections name hname).mpr hnot)]

theorem readFields_eq_ok_iff : readFields room content = .ok data ↔ Describes room content data := by
  refine ⟨fun h => ?_, Describes.readFields⟩
  cases htext : textOf? content with
  | none =>
      rw [readFields_of_undecodable htext] at h
      cases h
  | some text =>
  cases hparse : Json.parse room text with
  | error e =>
      rw [readFields_of_error htext hparse] at h
      cases h
  | ok v =>
      by_cases hdict : ∃ given, v = .dict given
      · obtain ⟨given, rfl⟩ := hdict
        have hdescribes : Describes room content given := ⟨text, htext, hparse⟩
        rw [hdescribes.readFields] at h
        cases h
        exact hdescribes
      · rw [readFields_of_other htext hparse fun given hv => hdict ⟨given, hv⟩] at h
        cases h

/-- The configurations in files: the path leads to a file, its content describes a dictionary, and the
dictionary is accepted. -/
theorem readFile_eq_ok_iff : readFile room disk path = .ok c ↔
    ∃ content data, disk.contentOf? (Path.normal path) = some content ∧ Describes room content data ∧
      Accepted data ∧ c = described data := by
  constructor
  · intro h
    obtain ⟨content, hfile⟩ : ∃ content, disk.contentOf? (Path.normal path) = some content := by
      -- a configuration can come from nothing but a file
      unfold readFile at h
      unfold Disk.contentOf?
      cases hfind : disk.find (Path.normal path) with
      | error e => rw [hfind] at h; cases h
      | ok found =>
          rw [hfind] at h
          cases found with
          | file content => exact ⟨content, rfl⟩
          | _ => cases h
    rw [readFile_of_contentOf? hfile] at h
    cases hdata : readFields room content with
    | error e =>
        rw [hdata] at h
        cases h
    | ok data =>
        rw [hdata] at h
        exact ⟨content, data, hfile, readFields_eq_ok_iff.mp hdata, ofFields_eq_ok_iff.mp h⟩
  · rintro ⟨content, data, hfile, hdata, hc⟩
    rw [readFile_of_contentOf? hfile, hdata.readFields]
    exact ofFields_eq_ok_iff.mpr hc

/-- Two contents of a file have the same settings: they are the same, or they describe dictionaries that differ
in what no setting is read from. -/
inductive SameSettings (room : Nat) (content content' : Bytes) : Prop where
  | same (h : content = content')
  | described {data other : Fields} (hdata : Describes room content data)
      (hother : Describes room content' other)
      (hsections : ∀ name ∈ sectionNames, (IsSection data name ↔ IsSection other name))
      (hsettings : described data = described other)

theorem SameSettings.readFields_bind {content content' : Bytes} (h : SameSettings room content content') :
    readFields room content >>= ofFields = readFields room content' >>= ofFields := by
  cases h with
  | same h => rw [h]
  | described hdata hother hsections hsettings =>
      rw [hdata.readFields, hother.readFields]
      exact ofFields_congr hsections hsettings

/-! ## What a loader holds -/

namespace Loader

/-- What changes a loader. -/
inductive Change where
  | load (disk : Disk) (path : Text)
  | set (key : Text) (v : Value)
  | reset

/-- The loader after a change, whether that succeeded or not. -/
def apply (room : Nat) (l : Loader) : Change → Loader
  | .load disk path => (l.load room disk path).2
  | .set key v => (l.set key v).2
  | .reset => l.reset

/-- The loader after some changes, from its start on. -/
def after (room : Nat) (changes : List Change) : Loader := changes.foldl (apply room) {}

/-- Two loaders give the same answers to every question. -/
structure AnswersLike (l l' : Loader) : Prop where
  config : l.config = l'.config
  get : ∀ key other, l.get key other = l'.get key other
  toDict : ∀ room, l.toDict room = l'.toDict room

theorem AnswersLike.of_config {l l' : Loader} (h : l.config = l'.config) : AnswersLike l l' where
  config := h
  get key other := by simp only [Loader.get, h]
  toDict room := by simp only [Loader.toDict, h]

theorem load_of_ok (l : Loader) (h : readFile room disk path = .ok c) :
    l.load room disk path = (.ok c, ⟨some c⟩) := by rw [load, h]

theorem load_of_error (l : Loader) (h : readFile room disk path = .error e) :
    l.load room disk path = (.error e, l) := by rw [load, h]

theorem after_append (room : Nat) (past later : List Change) :
    after room (past ++ later) = later.foldl (apply room) (after room past) := List.foldl_append

/-- A file that is not loaded might as well not have been tried. -/
theorem after_load_of_error (past later : List Change) (h : readFile room disk path = .error e) :
    after room (past ++ .load disk path :: later) = after room (past ++ later) := by
  have hkept : (after room past).apply room (.load disk path) = after room past := by
    rw [apply, load_of_error _ h]
  rw [after_append, after_append, List.foldl_cons, hkept]

/-- What was before a file is loaded might as well not have been. -/
theorem after_load_of_ok (past later : List Change) (h : readFile room disk path = .ok c) :
    after room (past ++ .load disk path :: later) = after room (.load disk path :: later) := by
  have hloaded (l : Loader) : l.apply room (.load disk path) = ⟨some c⟩ := by rw [apply, load_of_ok l h]
  rw [after_append, List.foldl_cons, hloaded, after, List.foldl_cons, hloaded]

/-- Loading a file after any changes.

When it fails, with whatever failure, all answers are as before, and so they are after any further changes.

It succeeds exactly if the path leads to a file that describes an accepted dictionary, and then gives the
configuration with the ten settings of that dictionary.  This is the current configuration from then on, and
after any further changes everything is as if the file had been loaded first of all.

What comes of it depends on the file only: it is the same after any other changes, and the same for any file
with the same settings. -/
theorem load_wholly (room : Nat) (past : List Change) (disk : Disk) (path : Text) :
    (∀ e, ((after room past).load room disk path).1 = .error e →
      AnswersLike ((after room past).load room disk path).2 (after room past) ∧
      ∀ later, after room (past ++ .load disk path :: later) = after room (past ++ later)) ∧
    (∀ c, ((after room past).load room disk path).1 = .ok c ↔
      ∃ content data, disk.contentOf? (Path.normal path) = some content ∧ Describes room content data ∧
        Accepted data ∧ c = described data) ∧
    (∀ c, ((after room past).load room disk path).1 = .ok c →
      ((after room past).load room disk path).2.config = c ∧
      ∀ later, after room (past ++ .load disk path :: later) = after room (.load disk path :: later)) ∧
    (∀ past', ((after room past').load room disk path).1 = ((after room past).load room disk path).1) ∧
    ∀ content content' past' disk' path', disk.contentOf? (Path.normal path) = some content →
      disk'.contentOf? (Path.normal path') = some content' → SameSettings room content content' →
      ((after room past').load room disk' path').1 = ((after room past).load room disk path).1 := by
  refine ⟨?_, ?_, ?_, ?_, ?_⟩
  · intro e h
    rw [fst_load] at h
    rw [load_of_error _ h]
    exact ⟨.of_config rfl, fun later => after_load_of_error past later h⟩
  · intro c
    rw [fst_load]
    exact readFile_eq_ok_iff
  · intro c h
    rw [fst_load] at h
    rw [load_of_ok _ h]
    exact ⟨rfl, fun later => after_load_of_ok past later h⟩
  · intro past'
    rw [fst_load, fst_load]
  · intro content content' past' disk' path' hfile hfile' hsame
    rw [fst_load, fst_load, readFile_of_contentOf? hfile, readFile_of_contentOf? hfile',
      hsame.readFields_bind]

/-- Two files: an object with two settings, one of them null, beside other things, and a list. -/
def twoFiles : Disk :=
  ⟨[(["a"], Text.Utf8.encode? ("\x7b\"shell\": \x7b\"prompt_suffix\": null, " ++
      "\"line_buffer_size\": 64, \"x\": 1\x7d, \"extra\": [[]]\x7d")),
    (["b"], Text.Utf8.encode? "[]")]⟩

/-- The configuration in the first of the files. -/
def inFirstFile : Config := { shell := .settings { promptSuffix := .null, lineBufferSize := .int 64 } }

/-- A loader after its timeout and its home directory were set. -/
def withTimeout : List Change :=
  [.set "process.wait_timeout" (.int 5), .set "shell.home_directory" (.text "/tmp")]

/-- The first file is loaded as if nothing had been set before, and the second one changes nothing. -/
theorem load_wholly_of_twoFiles :
    (∃ content data, twoFiles.contentOf? (Path.normal "a") = some content ∧ Describes 3 content data ∧
      Accepted data ∧ inFirstFile = described data) ∧
    ((after 3 withTimeout).load 3 twoFiles "a").1 = .ok inFirstFile ∧
    ((after 3 withTimeout).load 3 twoFiles "a").2.config = inFirstFile ∧
    after 3 (withTimeout ++ [.load twoFiles "a", .reset]) = after 3 [.load twoFiles "a", .reset] ∧
    (∃ e, ((after 3 withTimeout).load 3 twoFiles "b").1 = .error e) ∧
    (after 3 (withTimeout ++ [.load twoFiles "b"])).get "process.wait_timeout" .null = .int 5 ∧
    ((after 3 withTimeout).load 3 twoFiles "b").2.toDict 8 = (after 3 withTimeout).toDict 8 := by
  obtain ⟨-, hexactly, hloaded, -⟩ := load_wholly 3 withTimeout twoFiles "a"
  obtain ⟨hrefused, -⟩ := load_wholly 3 withTimeout twoFiles "b"
  have hobject : ((after 3 withTimeout).load 3 twoFiles "a").1 = .ok inFirstFile :=
    eq_ok_of_toOption (by decide +kernel)
  have hlist : ∃ e, ((after 3 withTimeout).load 3 twoFiles "b").1 = .error e := by
    have hnone : ((after 3 withTimeout).load 3 twoFiles "b").1.toOption = none := by decide +kernel
    cases h : ((after 3 withTimeout).load 3 twoFiles "b").1 with
    | error e => exact ⟨e, rfl⟩
    | ok c => rw [h] at hnone; cases hnone
  obtain ⟨hconfig, hpast⟩ := hloaded _ hobject
  obtain ⟨e, he⟩ := hlist
  obtain ⟨hlike, hkept⟩ := hrefused e he
  refine ⟨(hexactly _).mp hobject, hobject, hconfig, hpast [.reset], ⟨e, he⟩, ?_, hlike.toDict 8⟩
  rw [hkept []]
  rfl

end Loader

end LineShell.Config
