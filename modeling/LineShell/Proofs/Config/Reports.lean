import LineShell.Launch
import LineShell.Proofs.Config.Reading
import LineShell.Services.InMemory

/-!
# What becomes of a configuration file that cannot be used

A file that holds no configuration is reported: with a boot failure when it is no JSON object, and as a
bad setting when a check refuses a value.  Some files get past both (`Unreported`): bytes that are no
text, JSON beyond the limits of its reader, a section that is no dictionary, and a value of a kind that
a check has no answer for.

`load_answered` says for every content which of these happens, and what the program does then: it tells
what was reported and ends with status one, and with anything else it fails.
-/

namespace LineShell

/-- A report that the configuration could not be read or is not acceptable. -/
def ErrorReport.IsStartUp (r : ErrorReport) : Prop := r.kind = .bootFailure ∨ r.kind = .badSetting

namespace Config

open Launch

variable {room : Nat} {content : Bytes} {data : Fields} {text : Text} {e : Failure}

/-! ## The content of a file -/

/-- The text of a file, if its bytes are any. -/
def textOf? (content : Bytes) : Option Text := (Text.Utf8.decodeStrict? content).map unifyLineEnds

/-- A file describes a dictionary when its text is a JSON object. -/
def Describes (room : Nat) (content : Bytes) (data : Fields) : Prop :=
  ∃ text, textOf? content = some text ∧ Json.parse room text = .ok (.dict data)

/-- Why a file is neither loaded nor reported, with the failure that there is instead. -/
inductive Unreported (room : Nat) (content : Bytes) : Failure → Prop where
  /-- Its bytes are no text. -/
  | undecodable (h : textOf? content = none) : Unreported room content .undecodable
  /-- Its text has no flaw in its form, and is still more than the reader takes. -/
  | beyondLimits {text : Text} {e : Json.Error} (htext : textOf? content = some text)
      (hparse : Json.parse room text = .error e) (hform : ∀ flaw, e.cause ≠ .form flaw) :
      Unreported room content (failureOf text e)
  /-- A section is no dictionary. -/
  | noSection {data : Fields} {name : Text} (hdata : Describes room content data)
      (hname : name ∈ sectionNames) (h : ¬IsSection data name) : Unreported room content .noSuchPart
  /-- A check has no answer for a setting. -/
  | unanswered {data : Fields} (hdata : Describes room content data)
      (hsections : ∀ name ∈ sectionNames, IsSection data name)
      (h : Unanswered (settingOf data "shell" "line_buffer_size" (.int 256))
        (settingOf data "shell" "comment_char" (.text "#"))
        (settingOf data "process" "wait_timeout" (.int 0))) : Unreported room content .wrongKind

theorem readFields_of_undecodable (h : textOf? content = none) :
    readFields room content = .error .undecodable := by
  rw [textOf?, Option.map_eq_none_iff] at h
  rw [readFields, h]

theorem readFields_of_error {e : Json.Error} (htext : textOf? content = some text)
    (hparse : Json.parse room text = .error e) : readFields room content = .error (failureOf text e) := by
  obtain ⟨raw, hraw, rfl⟩ := Option.map_eq_some_iff.mp htext
  simp only [readFields, hraw, hparse]

theorem readFields_of_other {v : Value} (htext : textOf? content = some text)
    (hparse : Json.parse room text = .ok v) (hv : ∀ data, v ≠ .dict data) :
    readFields room content = .error (.bootFailure "Configuration root must be a JSON object") := by
  obtain ⟨raw, hraw, rfl⟩ := Option.map_eq_some_iff.mp htext
  cases v with
  | dict data => exact absurd rfl (hv data)
  | _ => simp only [readFields, hraw, hparse]

theorem Describes.readFields (h : Describes room content data) : readFields room content = .ok data := by
  obtain ⟨text, htext, hparse⟩ := h
  obtain ⟨raw, hraw, rfl⟩ := Option.map_eq_some_iff.mp htext
  simp only [Config.readFields, hraw, hparse]

/-- A flaw in the form of a text is a boot failure. -/
theorem exists_failureOf_form {e : Json.Error} {flaw : Json.Flaw} (text : Text)
    (h : e.cause = .form flaw) : ∃ message, failureOf text e = .bootFailure message := by
  unfold failureOf
  rw [h]
  exact ⟨_, rfl⟩

/-- Text beyond the limits is nested too deeply or has too long a number. -/
theorem failureOf_cases {e : Json.Error} (text : Text) (h : ∀ flaw, e.cause ≠ .form flaw) :
    (∃ message, failureOf text e = .tooDeep message) ∨
      ∃ message, failureOf text e = .badValue message := by
  unfold failureOf
  cases hcause : e.cause with
  | form flaw => exact absurd hcause (h flaw)
  | tooDeep container => exact .inl ⟨_, rfl⟩
  | tooManyDigits count => exact .inr ⟨_, rfl⟩

/-- A file describes a dictionary, is no JSON object, or cannot be read at all. -/
theorem readFields_cases (room : Nat) (content : Bytes) :
    (∃ data, Describes room content data) ∨
      (∃ message, readFields room content = .error (.bootFailure message)) ∨
      ∃ e, Unreported room content e := by
  cases htext : textOf? content with
  | none => exact .inr (.inr ⟨_, .undecodable htext⟩)
  | some text =>
  cases hparse : Json.parse room text with
  | error e =>
      by_cases hform : ∃ flaw, e.cause = .form flaw
      · obtain ⟨flaw, hflaw⟩ := hform
        obtain ⟨message, hmessage⟩ := exists_failureOf_form text hflaw
        exact .inr (.inl ⟨message, (readFields_of_error htext hparse).trans (by rw [hmessage])⟩)
      · exact .inr (.inr ⟨_, .beyondLimits htext hparse fun flaw h => hform ⟨flaw, h⟩⟩)
  | ok v =>
      by_cases hdict : ∃ data, v = .dict data
      · obtain ⟨data, rfl⟩ := hdict
        exact .inl ⟨data, text, htext, hparse⟩
      · exact .inr (.inl ⟨_, readFields_of_other htext hparse fun data h => hdict ⟨data, h⟩⟩)

/-! ## Loading -/

theorem Unreported.ne_report (h : Unreported room content e) (r : ErrorReport) : e ≠ .report r := by
  cases h with
  | @beyondLimits text e htext hparse hform =>
      rcases failureOf_cases text hform with ⟨message, hm⟩ | ⟨message, hm⟩ <;> simp [hm]
  | _ => simp

/-- Nothing is told about an unreported file. -/
theorem Unreported.reasonFor? (h : Unreported room content e) : reasonFor? e = none := by
  cases h with
  | @beyondLimits text e htext hparse hform =>
      rcases failureOf_cases text hform with ⟨message, hm⟩ | ⟨message, hm⟩ <;> rw [hm] <;> rfl
  | _ => rfl

/-- An unreported file ends with its failure. -/
theorem Unreported.fails (h : Unreported room content e) :
    readFields room content >>= ofFields = .error e := by
  cases h with
  | undecodable h => rw [readFields_of_undecodable h]; rfl
  | beyondLimits htext hparse hform => rw [readFields_of_error htext hparse]; rfl
  | noSection hdata hname h =>
      rw [hdata.readFields]
      exact ofFields_of_not_isSection hname h
  | @unanswered data hdata hsections h =>
      rw [hdata.readFields]
      refine (ofFields_of_isSection hsections).trans ?_
      rcases validate_cases (shellOf data) (processOf data) with
        ⟨-, haccept⟩ | ⟨_, _, -, hnot⟩ | ⟨hkind, -⟩
      · exact absurd h haccept.not_unanswered
      · exact absurd h hnot
      · rw [hkind]
        rfl

/-- Any other file is loaded or reported. -/
theorem answered_of_forall_not (h : ∀ e, ¬Unreported room content e) :
    (∃ c, readFields room content >>= ofFields = .ok c) ∨
      ∃ r, r.IsStartUp ∧ readFields room content >>= ofFields = .error (.report r) := by
  rcases readFields_cases room content with ⟨data, hdata⟩ | ⟨message, hboot⟩ | ⟨e, he⟩
  · rw [hdata.readFields]
    have hsections : ∀ name ∈ sectionNames, IsSection data name := by
      intro name hname
      exact Classical.byContradiction fun hnot => h _ (.noSection hdata hname hnot)
    have hchecked := ofFields_of_isSection hsections
    rcases validate_cases (shellOf data) (processOf data) with
      ⟨hok, -⟩ | ⟨message, key, hbad, -⟩ | ⟨-, hkind⟩
    · rw [hok] at hchecked
      exact .inl ⟨_, hchecked⟩
    · rw [hbad] at hchecked
      exact .inr ⟨_, .inr rfl, hchecked⟩
    · exact absurd (.unanswered hdata hsections hkind) (h _)
  · rw [hboot]
    exact .inr ⟨_, .inl rfl, rfl⟩
  · exact absurd he (h e)

/-- The content of a file is answered, with a configuration or a report about it, exactly if it is not an
unreported one. -/
theorem answered_iff :
    ((∃ c, readFields room content >>= ofFields = .ok c) ∨
        ∃ r : ErrorReport, r.IsStartUp ∧ readFields room content >>= ofFields = .error (.report r)) ↔
      ∀ e, ¬Unreported room content e := by
  refine ⟨?_, answered_of_forall_not⟩
  rintro (⟨c, hc⟩ | ⟨r, -, hr⟩) e he
  · rw [he.fails] at hc
    cases hc
  · rw [he.fails] at hr
    exact he.ne_report r (Except.error.inj hr)

/-- Only the two reports about configurations are made. -/
theorem isStartUp_of_report {r : ErrorReport}
    (h : readFields room content >>= ofFields = .error (.report r)) : r.IsStartUp := by
  have hnone : ∀ e, ¬Unreported room content e := by
    intro e he
    rw [he.fails] at h
    exact he.ne_report r (Except.error.inj h)
  rcases answered_iff.mpr hnone with ⟨c, hc⟩ | ⟨r', hstartUp, hr'⟩
  · rw [hc] at h
    cases h
  · rw [hr'] at h
    cases h
    exact hstartUp

/-- A path that leads to a file is read as the content of that file. -/
theorem readFile_of_contentOf? {disk : Disk} {path : Text}
    (h : disk.contentOf? (Path.normal path) = some content) :
    readFile room disk path = readFields room content >>= ofFields := by
  unfold Disk.contentOf? at h
  unfold readFile
  cases hfind : disk.find (Path.normal path) with
  | error e => rw [hfind] at h; cases h
  | ok found =>
      rw [hfind] at h
      cases found with
      | file bytes => cases h; rfl
      | _ => cases h

end Config

/-! ## Starting -/

namespace Launch

variable {World : Type}
  {perform : ((rounds : Nat) → Action Int) → Session → World →
    Outcome Session World ServiceCall.Reply Int}
  {limits : Limits} {j : Log.Journal} {path : Text} {e : Failure}

theorem reasonFor?_of_isStartUp {r : ErrorReport} (h : r.IsStartUp) :
    reasonFor? (.report r) = some r.render := by
  have hfamily : r.kind.family = .kernel := by rcases h with h | h <;> rw [h] <;> rfl
  simp [reasonFor?, hfamily]

theorem prepare_of_load_error (hthere : j.disk.isThere path = true)
    (h : (Config.Loader.load {} limits.nesting j.disk path).1 = .error e) :
    prepare limits (some path) j = (.error e, j) := by
  simp only [prepare, Config.Loader.loadIfThere, hthere, if_pos, h]
  rfl

/-- A failure with words for it is told, and the program ends with status one. -/
theorem run_of_reason (moment : Double) (scripts : List Text) (w : World) {reason : Text}
    (hprepare : prepare limits (some path) j = (.error e, j)) (h : reasonFor? e = some reason) :
    run limits perform moment (some path) scripts j w = ⟨.returned refusedStatus, w, [],
      j.print (programName ++ ": cannot start: " ++ reason ++ "\n")⟩ := by
  simp only [run, start, hprepare, h]

/-- A failure without words for it ends the program. -/
theorem run_of_no_reason (moment : Double) (scripts : List Text) (w : World)
    (hprepare : prepare limits (some path) j = (.error e, j)) (h : reasonFor? e = none) :
    run limits perform moment (some path) scripts j w = ⟨.failed e, w, [], j⟩ := by
  simp only [run, start, hprepare, h]

/-- For every content of the file that a path leads to.  Loading it gives a configuration or one of the
two reports about configurations exactly if the content is not an unreported one, and otherwise a
failure that is no report at all.  A program that is started with the file tells a report and ends with
status one; on an unreported content it fails without a word. -/
theorem load_answered (limits : Limits) {content : Bytes}
    (hfile : j.disk.contentOf? (Path.normal path) = some content) :
    (∀ l : Config.Loader,
      (((∃ c, (l.load limits.nesting j.disk path).1 = .ok c) ∨
          ∃ r : ErrorReport, r.IsStartUp ∧ (l.load limits.nesting j.disk path).1 = .error (.report r)) ↔
        ∀ e, ¬Config.Unreported limits.nesting content e) ∧
      ∀ e, Config.Unreported limits.nesting content e →
        (l.load limits.nesting j.disk path).1 = .error e ∧ ∀ r, e ≠ .report r) ∧
    (j.disk.isThere path = true →
      ∀ {World : Type} (perform : ((rounds : Nat) → Action Int) → Session → World →
          Outcome Session World ServiceCall.Reply Int)
        (moment : Double) (scripts : List Text) (w : World),
        (∀ r : ErrorReport, (Config.Loader.load {} limits.nesting j.disk path).1 = .error (.report r) →
          run limits perform moment (some path) scripts j w = ⟨.returned refusedStatus, w, [],
            j.print (programName ++ ": cannot start: " ++ r.render ++ "\n")⟩) ∧
        ∀ e, Config.Unreported limits.nesting content e →
          run limits perform moment (some path) scripts j w = ⟨.failed e, w, [], j⟩) := by
  -- what is loaded depends on the content alone, whatever the loader held
  have hread (l : Config.Loader) :
      (l.load limits.nesting j.disk path).1 =
        Config.readFields limits.nesting content >>= Config.ofFields := by
    rw [l.fst_load, Config.readFile_of_contentOf? hfile]
  refine ⟨?_, ?_⟩
  · intro l
    rw [hread l]
    exact ⟨Config.answered_iff, fun e he => ⟨he.fails, he.ne_report⟩⟩
  · intro hthere World perform moment scripts w
    refine ⟨?_, ?_⟩
    · intro r hr
      have hstartUp : r.IsStartUp := Config.isStartUp_of_report ((hread {}).symm.trans hr)
      exact run_of_reason moment scripts w (prepare_of_load_error hthere hr)
        (reasonFor?_of_isStartUp hstartUp)
    · intro e he
      exact run_of_no_reason moment scripts w
        (prepare_of_load_error hthere ((hread {}).trans he.fails)) he.reasonFor?

/-- A journal at its start, on a disk with one file whose bytes are no text. -/
def undecodableFile : Log.Journal where
  disk := ⟨[(["c.json"], some [0x7B, 0xFF, 0x7D])]⟩
  console := .other

theorem load_answered_of_undecodable :
    undecodableFile.disk.contentOf? (Path.normal "c.json") = some [0x7B, 0xFF, 0x7D] ∧
    undecodableFile.disk.isThere "c.json" = true ∧
    (Config.Loader.load {} 985 undecodableFile.disk "c.json").1 = .error .undecodable ∧
    (run ⟨1024, 985⟩ InMemory.perform .nan (some "c.json") ["setup.sh"] undecodableFile
        (InMemory.create [] [] "/home/user" "/bin" [] [] [] false false [])).ending =
      .failed .undecodable := by
  have hfile : undecodableFile.disk.contentOf? (Path.normal "c.json") = some [0x7B, 0xFF, 0x7D] := by
    decide
  have hthere : undecodableFile.disk.isThere "c.json" = true := by decide
  have hbytes : Config.Unreported 985 [0x7B, 0xFF, 0x7D] .undecodable := .undecodable (by decide)
  obtain ⟨hload, hrun⟩ := load_answered ⟨1024, 985⟩ hfile
  refine ⟨hfile, hthere, ((hload {}).2 _ hbytes).1, ?_⟩
  rw [(hrun hthere InMemory.perform .nan ["setup.sh"] _).2 _ hbytes]

end Launch

end LineShell
