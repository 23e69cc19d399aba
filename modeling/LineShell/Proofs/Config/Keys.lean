import LineShell.Proofs.Config.Loading
import LineShell.Proofs.Text.Separators

/-!
# Reading and replacing by a key

A value is looked up and replaced by two walks along the names of a key, through the configuration, one of its
sections and one of that section's fields, or as far as there is anything to go through: a whole section may
have been replaced by a value, and a value has no parts.

Both walks end at the same paths (`isSome_replace?`).  Where they do, the replacement is `Replaced`: the value
is found at its path, nothing is found below it, whatever is off the path is found as before, and the
dictionary is the one from before with the value put at the path.  This is shown of a section first
(`Slot.replaced`), and of a configuration it holds because it holds of the section that the first name leads
to (`replaced_section`).

The dictionary can be made if there is room for the calls of the value, and for two more at each name of its
path (`Value.calls_put_le`, `Value.calls_of_at?`).

From paths it comes to keys by `Text.splitOn_prefix_iff`: the path of one key goes on to that of another where
the key goes on with a point.
-/

namespace LineShell

namespace Value

/-- The value at a path through a dictionary and the dictionaries inside. -/
def at? : Value → List Text → Option Value
  | v, [] => some v
  | dict entries, name :: rest => (Fields.get? entries name).bind (at? · rest)
  | _, _ :: _ => none

/-- A dictionary with a value put at a path through it and the dictionaries inside. -/
def put : Value → List Text → Value → Value
  | _, [], v => v
  | dict entries, name :: rest, v =>
    dict (entries.map fun entry => if entry.1 = name then (name, put entry.2 rest v) else entry)
  | other, _ :: _, _ => other

theorem calls_le_of_mem {entries : List (Text × Value)} {entry : Text × Value} (h : entry ∈ entries) :
    entry.2.calls + 2 ≤ (dict entries).calls := by
  have hdict := @calls_dict_add_le_iff entries 0 (dict entries).calls
  exact (hdict.mp (Nat.le_refl _)).2 entry h

/-- Each name on the way to a value stands for a dictionary around it. -/
theorem calls_of_at? {u w : Value} {path : List Text} (h : w.at? path = some u) :
    u.calls + 2 * path.length ≤ w.calls := by
  induction path generalizing w with
  | nil =>
      cases h
      exact Nat.le_refl _
  | cons name rest ih =>
      cases w with
      | dict entries =>
          obtain ⟨part, hpart, hrest⟩ := Option.bind_eq_some_iff.mp h
          obtain ⟨before, after, rfl, -⟩ := List.lookup_eq_some_iff.mp hpart
          have hmem : (name, part) ∈ before ++ (name, part) :: after :=
            List.mem_append_right before List.mem_cons_self
          have hcalls : part.calls + 2 ≤ _ := calls_le_of_mem hmem
          have hinside := ih hrest
          rw [List.length_cons]
          omega
      | _ => cases h

theorem calls_put_le (w v : Value) (path : List Text) :
    (w.put path v).calls ≤ max w.calls (v.calls + 2 * path.length) := by
  induction path generalizing w with
  | nil =>
      rw [put]
      exact Nat.le_max_right _ _
  | cons name rest ih =>
      cases w with
      | dict entries =>
          rw [put, List.length_cons]
          refine (calls_dict_add_le_iff (k := 0)).mpr ⟨by omega, fun entry hentry => ?_⟩
          obtain ⟨old, hold, rfl⟩ := List.mem_map.mp hentry
          have hcalls := calls_le_of_mem hold
          have hinside := ih old.2
          by_cases hname : old.1 = name
          · rw [if_pos hname]
            dsimp only
            omega
          · rw [if_neg hname]
            omega
      | _ => exact Nat.le_max_left _ _

end Value

namespace Config

variable {S : Type} [Section S] {v : Value} {name : Text} {path rest : List Text} {c c' : Config}

/-- What is found and what the dictionary is after a value was put at a path, by what they were before. -/
structure Replaced (v : Value) (path : List Text) (find find' : List Text → Option Value)
    (whole whole' : Value) : Prop where
  self : find' path = some v
  below : ∀ more, more ≠ [] → find' (path ++ more) = none
  apart : ∀ other, ¬path <+: other → ¬other <+: path → find' other = find other
  whole : whole' = whole.put path v

/-- What is replaced inside the part of a name is replaced, if the other parts stay. -/
theorem Replaced.under {find find' part part' : List Text → Option Value} {whole whole' w w' : Value}
    (h : Replaced v rest part part' w w') (hpart : ∀ more, find (name :: more) = part more)
    (hpart' : ∀ more, find' (name :: more) = part' more)
    (hothers : ∀ n more, n ≠ name → find' (n :: more) = find (n :: more))
    (hwhole : whole' = whole.put (name :: rest) v) :
    Replaced v (name :: rest) find find' whole whole' where
  self := (hpart' rest).trans h.self
  below more hmore := (hpart' (rest ++ more)).trans (h.below more hmore)
  apart other hfirst hsecond := by
    cases other with
    | nil => exact absurd List.nil_prefix hsecond
    | cons n more =>
        by_cases hn : n = name
        · subst hn
          rw [List.prefix_cons_inj] at hfirst hsecond
          rw [hpart, hpart', h.apart more hfirst hsecond]
        · exact hothers n more hn
  whole := hwhole

/-! ## A section -/

namespace Slot

/-- Something can be replaced at the paths where something is found. -/
theorem isSome_replace? (slot : Slot S) (v : Value) (path : List Text) :
    (slot.replace? v path).isSome = (slot.find? path).isSome := by
  rcases slot with s | w <;> rcases path with _ | ⟨name, _ | ⟨second, rest⟩⟩ <;>
    simp [replace?, find?]

theorem find?_value (w : Value) (h : path ≠ []) : (value w : Slot S).find? path = none := by
  rcases path with _ | ⟨name, _ | ⟨second, rest⟩⟩
  · exact absurd rfl h
  · rfl
  · rfl

/-- What is found below a section is at the same path in its dictionary. -/
theorem at?_toValue {slot : Slot S} (h : slot.find? path = some v) : slot.toValue.at? path = some v := by
  rcases slot with s | w <;> rcases path with _ | ⟨name, _ | ⟨second, rest⟩⟩
  · exact h
  · obtain ⟨f, hf, rfl⟩ := Option.map_eq_some_iff.mp h
    rw [toValue, Value.at?, Section.get?_toFields, hf]
    rfl
  · cases h
  · exact h
  · cases h
  · cases h

/-- A value in the place of a whole section. -/
theorem replaced_nil (slot : Slot S) (v : Value) :
    Replaced v [] slot.find? (value (S := S) v).find? slot.toValue v where
  self := rfl
  below _ hmore := find?_value v hmore
  apart other hother _ := absurd List.nil_prefix hother
  whole := by rw [Value.put]

/-- A value in a field of a section. -/
theorem replaced_field [Section.Lawful S] {f : Field S} (h : Section.field? name = some f) (s : S)
    (v : Value) : Replaced v [name] (settings s).find? (settings (f.set s v)).find?
      (settings s).toValue (settings (f.set s v)).toValue where
  self := by
    simp only [find?, h, Option.map_some, Section.Lawful.get_set f (Section.of_field? h).1]
  below more hmore := by
    obtain ⟨second, rest, rfl⟩ := List.exists_cons_of_ne_nil hmore
    rfl
  apart other hfirst hsecond := by
    -- off the path there are the other fields, and paths that lead beyond any field
    rcases other with _ | ⟨n, _ | ⟨second, rest⟩⟩
    · exact absurd List.nil_prefix hsecond
    · have hn : n ≠ name := fun heq => hfirst (heq ▸ List.prefix_rfl)
      rw [find?, find?]
      refine Option.map_congr fun g hg => ?_
      obtain ⟨hmem, rfl⟩ := Section.of_field? hg
      obtain ⟨hf, rfl⟩ := Section.of_field? h
      exact Section.Lawful.get_set_other f hf g hmem hn s v
    · rfl
  whole := by
    simp only [toValue, Value.put, Section.toFields_set s v h]

theorem replaced [Section.Lawful S] {slot slot' : Slot S} (h : slot.replace? v path = some slot') :
    Replaced v path slot.find? slot'.find? slot.toValue slot'.toValue := by
  rcases path with _ | ⟨name, _ | ⟨second, rest⟩⟩
  · cases slot <;> cases h <;> exact replaced_nil _ v
  · cases slot with
    | value w => cases h
    | settings s =>
        obtain ⟨f, hf, rfl⟩ := Option.map_eq_some_iff.mp h
        exact replaced_field hf s v
  · cases slot <;> cases h

end Slot

/-! ## The configuration -/

/-- A configuration can be replaced part by part, but not as a whole. -/
theorem isSome_replace? (c : Config) (v : Value) {path : List Text} (hpath : path ≠ []) :
    (c.replace? v path).isSome = (c.find? path).isSome := by
  obtain ⟨name, rest, rfl⟩ := List.exists_cons_of_ne_nil hpath
  simp only [replace?, find?]
  split_ifs <;> simp [Slot.isSome_replace?]

/-- What is found in a configuration is at the same path in its dictionary, which may go on where the
configuration ends. -/
theorem at?_toFields (h : c.find? path = some v) : (Value.dict c.toFields).at? path = some v := by
  cases path with
  | nil => exact h
  | cons name rest =>
      simp only [find?] at h
      split_ifs at h with hshell hprocess hlogging
      · subst hshell
        exact Slot.at?_toValue h
      · subst hprocess
        exact Slot.at?_toValue h
      · subst hlogging
        exact Slot.at?_toValue h

/-- A replacement in a section is one in the configuration, whichever the section is: it has a place for its
name, and what is around it stays. -/
theorem replaced_section [Section.Lawful S] (place : Slot S → Config) (around : Value → Fields)
    {slot slot' : Slot S} (h : slot.replace? v rest = some slot')
    (hpart : ∀ slot more, (place slot).find? (name :: more) = slot.find? more)
    (hothers : ∀ n more, n ≠ name → (place slot').find? (n :: more) = (place slot).find? (n :: more))
    (hfields : ∀ slot, (place slot).toFields = around slot.toValue)
    (hput : ∀ w, (Value.dict (around w)).put (name :: rest) v = .dict (around (w.put rest v))) :
    Replaced v (name :: rest) (place slot).find? (place slot').find? (.dict (place slot).toFields)
      (.dict (place slot').toFields) := by
  have hslot := Slot.replaced h
  refine hslot.under (hpart slot) (hpart slot') hothers ?_
  rw [hfields, hfields, hput, hslot.whole]

theorem replaced (h : c.replace? v path = some c') :
    Replaced v path c.find? c'.find? (.dict c.toFields) (.dict c'.toFields) := by
  cases path with
  | nil => cases h
  | cons name rest =>
      -- the first name leads to one of the sections, and the other two stay
      simp only [replace?] at h
      split_ifs at h with hshell hprocess hlogging
      · subst hshell
        obtain ⟨slot, hslot, rfl⟩ := Option.map_eq_some_iff.mp h
        exact replaced_section (fun slot => { c with shell := slot })
          (fun w => [("shell", w), ("process", c.process.toValue), ("logging", c.logging.toValue)])
          hslot (fun _ _ => rfl) (fun n more hn => by simp only [find?, if_neg hn]) (fun _ => rfl)
          fun _ => rfl
      · subst hprocess
        obtain ⟨slot, hslot, rfl⟩ := Option.map_eq_some_iff.mp h
        exact replaced_section (fun slot => { c with process := slot })
          (fun w => [("shell", c.shell.toValue), ("process", w), ("logging", c.logging.toValue)])
          hslot (fun _ _ => rfl) (fun n more hn => by simp only [find?, if_neg hn]) (fun _ => rfl)
          fun _ => rfl
      · subst hlogging
        obtain ⟨slot, hslot, rfl⟩ := Option.map_eq_some_iff.mp h
        exact replaced_section (fun slot => { c with logging := slot })
          (fun w => [("shell", c.shell.toValue), ("process", c.process.toValue), ("logging", w)])
          hslot (fun _ _ => rfl) (fun n more hn => by simp only [find?, if_neg hn]) (fun _ => rfl)
          fun _ => rfl

/-! ## Keys -/

namespace Loader

variable {l : Loader} {key k : Text}

/-- A key is found if not every value is answered with itself. -/
def Finds (l : Loader) (key : Text) : Prop := ∃ other, l.get key other ≠ other

/-- A key goes on, behind a point, from another one. -/
def Extends (key longer : Text) : Prop := ∃ rest, longer = key ++ 0x2E :: rest

/-- Two keys differ and neither goes on from the other. -/
def Apart (key k : Text) : Prop := k ≠ key ∧ ¬Extends key k ∧ ¬Extends k key

theorem extends_iff_prefix : Extends key k ↔ key ++ [0x2E] <+: k := by
  simp only [Extends, List.prefix_iff_exists_eq_append, List.append_assoc, List.singleton_append]

instance : Decidable (Extends key k) := decidable_of_iff' _ extends_iff_prefix

instance : Decidable (Apart key k) := inferInstanceAs (Decidable (_ ∧ _))

theorem names_ne_nil (key : Text) : names key ≠ [] := Text.splitOn_ne_nil 0x2E key

theorem names_prefix_iff : names key <+: names k ↔ k = key ∨ Extends key k := Text.splitOn_prefix_iff

/-- The names of a key that goes on are those of the key and more. -/
theorem exists_names_of_extends (h : Extends key k) :
    ∃ more, more ≠ [] ∧ names k = names key ++ more := by
  obtain ⟨rest, rfl⟩ := h
  exact ⟨names rest, names_ne_nil rest, Text.splitOn_append 0x2E key rest⟩

theorem Apart.not_prefix (h : Apart key k) : ¬names key <+: names k ∧ ¬names k <+: names key := by
  obtain ⟨hne, habove, hbelow⟩ := h
  rw [names_prefix_iff, names_prefix_iff]
  exact ⟨not_or.mpr ⟨hne, habove⟩, not_or.mpr ⟨hne.symm, hbelow⟩⟩

/-- Some value is not the one of a key. -/
theorem exists_ne_value (w : Value) : ∃ other, w ≠ other := by
  cases w with
  | null => exact ⟨.bool true, nofun⟩
  | _ => exact ⟨.null, nofun⟩

theorem finds_iff : l.Finds key ↔ (l.config.find? (names key)).isSome := by
  unfold Finds get
  cases l.config.find? (names key) with
  | none => simp
  | some w => simpa using exists_ne_value w

instance : Decidable (l.Finds key) := decidable_of_iff' _ finds_iff

theorem set_of_finds (h : l.Finds key) (v : Value) : ∃ c, l.config.replace? v (names key) = some c ∧
    l.set key v = (.ok (), ⟨some c⟩) := by
  rw [finds_iff, ← isSome_replace? _ v (names_ne_nil key)] at h
  obtain ⟨c, hc⟩ := Option.isSome_iff_exists.mp h
  exact ⟨c, hc, by rw [set, hc]⟩

theorem set_of_not_finds (h : ¬l.Finds key) (v : Value) : l.set key v =
    (.error (.badSetting (("Invalid configuration key: " : Text) ++ key) key), ⟨some l.config⟩) := by
  rw [finds_iff, ← isSome_replace? _ v (names_ne_nil key), Option.not_isSome_iff_eq_none] at h
  rw [set, h]

/-- The dictionary after a value was put at a path can be made if there was room for the one before and
there is room for the value at its path. -/
theorem calls_le_iff_of_replaced {room : Nat} (h : c.replace? v path = some c')
    (hroom : (Value.dict c.toFields).calls ≤ room) :
    (Value.dict c'.toFields).calls ≤ room ↔ v.calls + 2 * path.length ≤ room := by
  have hreplaced := replaced h
  have hinside := Value.calls_of_at? (at?_toFields hreplaced.self)
  have houtside := Value.calls_put_le (.dict c.toFields) v path
  rw [← hreplaced.whole] at houtside
  omega

end Loader

end Config

end LineShell
