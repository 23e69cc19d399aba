import LineShell.Config.Loader

/-!
# Reading a configuration from a dictionary

What a configuration comes to for every dictionary.  A section that is there has to be a dictionary
itself (`IsSection`); the settings it does not give have their default values.  Then three settings are
checked, one after another, and a check has no answer for a value of the wrong kind (`Unanswered`).

A dictionary whose sections are dictionaries is the configuration `configOf` when the checks accept it
(`ofFields_of_isSection`), and `validate_cases` says which of three ways they end in.
-/

namespace LineShell

namespace Value

/-- Truth values, integers and floating-point numbers can be compared with an integer. -/
def IsNumber : Value → Prop
  | bool _ | int _ | float _ => True
  | _ => False

/-- Texts, lists and dictionaries have a length. -/
def HasLength : Value → Prop
  | text _ | list _ | dict _ => True
  | _ => False

theorem ltInt?_eq_none_iff {v : Value} {n : Int} : v.ltInt? n = none ↔ ¬v.IsNumber := by
  cases v <;> simp [ltInt?, IsNumber]

theorem length?_eq_none_iff {v : Value} : v.length? = none ↔ ¬v.HasLength := by
  cases v <;> simp [length?, HasLength]

/-- Of a number that is not below an integer nothing less is above. -/
theorem ltInt?_mono {v : Value} {m n : Int} (hle : m ≤ n) (h : v.ltInt? n = some false) :
    v.ltInt? m = some false := by
  cases v with
  | bool b => simp only [ltInt?, Option.some.injEq, decide_eq_false_iff_not] at h ⊢; omega
  | int k => simp only [ltInt?, Option.some.injEq, decide_eq_false_iff_not] at h ⊢; omega
  | float x =>
      cases x with
      | nan => rfl
      | infinite negative => exact h
      | finite negative mantissa exponent =>
          simp only [ltInt?, Double.ltInt, Double.toRat?, Option.some.injEq,
            decide_eq_false_iff_not] at h ⊢
          intro hlt
          exact h (Std.lt_of_lt_of_le hlt (Rat.intCast_le_intCast.mpr hle))
  | _ => cases h

end Value

theorem eq_ok_of_toOption {α : Type} {outcome : Except Failure α} {a : α}
    (h : outcome.toOption = some a) : outcome = .ok a := by
  cases outcome with
  | error e => cases h
  | ok b => cases h; rfl

namespace Config

variable {data : Fields} {name : Text} {c : Config} {room : Nat}

/-! ## Sections -/

/-- The names of the sections. -/
def sectionNames : List Text := ["shell", "process", "logging"]

/-- What is under a name is a dictionary, if anything is. -/
def IsSection (data : Fields) (name : Text) : Prop :=
  ∀ v, data.get? name = some v → ∃ given, v = .dict given

/-- What a dictionary gives for a section. -/
def entriesOf (data : Fields) (name : Text) : Fields :=
  match data.get? name with
  | some (.dict given) => given
  | _ => []

/-- What a dictionary gives for a setting of a section, or else a default value. -/
def settingOf (data : Fields) (name setting : Text) (default : Value) : Value :=
  ((entriesOf data name).get? setting).getD default

section

variable {S : Type} [Section S]

theorem sectionOf_of_isSection (hdefault : Section.ofFields [] = (Section.default : S))
    (h : IsSection data name) : (sectionOf data name : Except Failure S) =
      .ok (Section.ofFields (entriesOf data name)) := by
  unfold sectionOf entriesOf
  cases hget : data.get? name with
  | none => exact congrArg Except.ok hdefault.symm
  | some v =>
      obtain ⟨given, rfl⟩ := h v hget
      rfl

theorem sectionOf_of_not_isSection (h : ¬IsSection data name) :
    (sectionOf data name : Except Failure S) = .error .noSuchPart := by
  unfold sectionOf
  cases hget : data.get? name with
  | none => exact absurd (fun v hv => by rw [hget] at hv; cases hv) h
  | some v =>
      cases v with
      | dict given => exact absurd (fun w hw => ⟨given, Option.some.inj (hw.symm.trans hget)⟩) h
      | _ => rfl

end

/-! ## Checks -/

/-- The values that no check refuses. -/
structure Acceptable (size marker timeout : Value) : Prop where
  size : size.ltInt? 2 = some false
  marker : marker.length? = some 1
  timeout : timeout.ltInt? 0 = some false

/-- The first check that does not accept its value has no answer for it. -/
inductive Unanswered (size marker timeout : Value) : Prop where
  | size (h : ¬size.IsNumber)
  | marker (hsize : size.ltInt? 2 = some false) (h : ¬marker.HasLength)
  | timeout (hsize : size.ltInt? 2 = some false) (hmarker : marker.length? = some 1)
      (h : ¬timeout.IsNumber)

theorem unanswered_iff {size marker timeout : Value} :
    Unanswered size marker timeout ↔
      size.ltInt? 2 = none ∨
        (size.ltInt? 2 = some false ∧ marker.length? = none) ∨
        (size.ltInt? 2 = some false ∧ marker.length? = some 1 ∧ timeout.ltInt? 0 = none) := by
  rw [Value.ltInt?_eq_none_iff, Value.length?_eq_none_iff, Value.ltInt?_eq_none_iff]
  constructor
  · intro h
    cases h with
    | size h => exact .inl h
    | marker hsize h => exact .inr (.inl ⟨hsize, h⟩)
    | timeout hsize hmarker h => exact .inr (.inr ⟨hsize, hmarker, h⟩)
  · rintro (h | ⟨hsize, h⟩ | ⟨hsize, hmarker, h⟩)
    · exact .size h
    · exact .marker hsize h
    · exact .timeout hsize hmarker h

theorem Acceptable.not_unanswered {size marker timeout : Value}
    (h : Acceptable size marker timeout) : ¬Unanswered size marker timeout := by
  rw [unanswered_iff, h.size, h.marker, h.timeout]
  simp

/-- The checks end in one of three ways. -/
theorem validate_cases (shell : ShellSettings) (process : ProcessSettings) :
    (validate shell process = .ok () ∧
        Acceptable shell.lineBufferSize shell.commentChar process.waitTimeout) ∨
      (∃ message key, validate shell process = .error (.badSetting message key) ∧
        ¬Unanswered shell.lineBufferSize shell.commentChar process.waitTimeout) ∨
      (validate shell process = .error .wrongKind ∧
        Unanswered shell.lineBufferSize shell.commentChar process.waitTimeout) := by
  rw [unanswered_iff]
  unfold validate
  -- each check is made when those before it accepted their values
  cases hsize : shell.lineBufferSize.ltInt? 2 with
  | none => exact .inr (.inr ⟨rfl, .inl rfl⟩)
  | some small =>
  cases small with
  | true => exact .inr (.inl ⟨_, _, rfl, by simp⟩)
  | false =>
  cases hmarker : shell.commentChar.length? with
  | none => exact .inr (.inr ⟨rfl, .inr (.inl ⟨rfl, rfl⟩)⟩)
  | some length =>
  by_cases hone : length = 1
  · subst hone
    cases htimeout : process.waitTimeout.ltInt? 0 with
    | none => exact .inr (.inr ⟨rfl, .inr (.inr ⟨rfl, rfl, rfl⟩)⟩)
    | some early =>
    cases early with
    | true => exact .inr (.inl ⟨_, _, rfl, by simp⟩)
    | false => exact .inl ⟨rfl, hsize, hmarker, htimeout⟩
  · have hother : (length != 1) = true := by simpa using hone
    refine .inr (.inl ⟨"Comment marker must be a single character", "shell.comment_char", ?_, ?_⟩)
    · simp only [Option.map_some, hother]
      rfl
    · simp [hone]

/-! ## All of it -/

/-- The settings of the interpreter loop in a dictionary. -/
def shellOf (data : Fields) : ShellSettings := Section.ofFields (entriesOf data "shell")

/-- The settings of process management in a dictionary. -/
def processOf (data : Fields) : ProcessSettings := Section.ofFields (entriesOf data "process")

/-- The settings of the log in a dictionary. -/
def loggingOf (data : Fields) : LoggingSettings := Section.ofFields (entriesOf data "logging")

/-- All settings in a dictionary. -/
def configOf (data : Fields) : Config :=
  ⟨.settings (shellOf data), .settings (processOf data), .settings (loggingOf data)⟩

/-- A dictionary whose sections are dictionaries is checked and is the configuration then. -/
theorem ofFields_of_isSection (h : ∀ name ∈ sectionNames, IsSection data name) :
    ofFields data = (validate (shellOf data) (processOf data)).map fun _ => configOf data := by
  have hshell := sectionOf_of_isSection (S := ShellSettings) rfl (h "shell" (by decide))
  have hprocess := sectionOf_of_isSection (S := ProcessSettings) rfl (h "process" (by decide))
  have hlogging := sectionOf_of_isSection (S := LoggingSettings) rfl (h "logging" (by decide))
  simp only [ofFields, hshell, hprocess, hlogging, bind, Except.bind, shellOf, processOf]
  cases validate _ _ <;> rfl

theorem ofFields_of_not_isSection (hname : name ∈ sectionNames) (h : ¬IsSection data name) :
    ofFields data = .error .noSuchPart := by
  unfold ofFields
  by_cases hshell : IsSection data "shell"
  · rw [sectionOf_of_isSection rfl hshell]
    by_cases hprocess : IsSection data "process"
    · rw [sectionOf_of_isSection rfl hprocess]
      have hlogging : ¬IsSection data "logging" := by
        simp only [sectionNames, List.mem_cons, List.not_mem_nil, or_false] at hname
        rcases hname with rfl | rfl | rfl
        · exact absurd hshell h
        · exact absurd hprocess h
        · exact h
      rw [sectionOf_of_not_isSection hlogging]
      rfl
    · rw [sectionOf_of_not_isSection hprocess]
      rfl
  · rw [sectionOf_of_not_isSection hshell]
    rfl

/-- A dictionary that is accepted is the configuration, and the checks have nothing against it. -/
theorem ofFields_eq_ok (h : ofFields data = .ok c) :
    c = configOf data ∧
      Acceptable (shellOf data).lineBufferSize (shellOf data).commentChar
        (processOf data).waitTimeout := by
  have hsections : ∀ name ∈ sectionNames, IsSection data name := by
    intro name hname
    apply Classical.byContradiction
    intro hnot
    rw [ofFields_of_not_isSection hname hnot] at h
    cases h
  rw [ofFields_of_isSection hsections] at h
  rcases validate_cases (shellOf data) (processOf data) with
    ⟨hok, haccept⟩ | ⟨_, _, hbad, -⟩ | ⟨hkind, -⟩
  · rw [hok] at h
    cases h
    exact ⟨rfl, haccept⟩
  · rw [hbad] at h
    cases h
  · rw [hkind] at h
    cases h

theorem Loader.fst_load (l : Loader) (room : Nat) (disk : Disk) (path : Text) :
    (l.load room disk path).1 = readFile room disk path := by
  unfold Loader.load
  cases readFile room disk path <;> rfl

/-- A file that is loaded describes a dictionary that is accepted. -/
theorem exists_ofFields_of_load {l : Loader} {disk : Disk} {path : Text}
    (h : (l.load room disk path).1 = .ok c) : ∃ data, ofFields data = .ok c := by
  rw [l.fst_load] at h
  unfold readFile at h
  split at h
  · cases h
  · cases h
  · cases h
  · rename_i content _
    cases hfields : readFields room content with
    | error e => rw [hfields] at h; cases h
    | ok data => rw [hfields] at h; exact ⟨data, h⟩

end Config

end LineShell
