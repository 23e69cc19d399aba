import LineShell.Config
import Mathlib.Data.List.Nodup

/-!
# Sections as records of fields

A section is a record, and its fields are given by name, each with how it is read and how it is replaced.
`Section.Lawful` is what makes such fields those of a record: their names differ, a field that was replaced is
read as what it was replaced by, it leaves the others alone, and a section is no more than its fields.

From this it follows that a section that is made from a dictionary has the values that are given there, and
the default values else (`Section.get_ofFields`), and that the dictionary of a section makes that section
again (`Section.ofFields_toFields`).
-/

namespace LineShell.Config

/-- The fields of a section are those of a record. -/
class Section.Lawful (S : Type) [Section S] : Prop where
  nodup : ((Section.fields : List (Field S)).map (·.name)).Nodup
  get_set : ∀ f ∈ (Section.fields : List (Field S)), ∀ s v, f.get (f.set s v) = v
  get_set_other : ∀ f ∈ (Section.fields : List (Field S)), ∀ g ∈ (Section.fields : List (Field S)),
    g.name ≠ f.name → ∀ s v, g.get (f.set s v) = g.get s
  ext : ∀ s t : S, (∀ f ∈ (Section.fields : List (Field S)), f.get s = f.get t) → s = t

instance : Section.Lawful ShellSettings where
  nodup := by decide
  get_set := by simp [Section.fields]
  get_set_other := by simp [Section.fields]
  ext s t h := by
    cases s
    cases t
    simpa [Section.fields] using h

instance : Section.Lawful ProcessSettings where
  nodup := by decide
  get_set := by simp [Section.fields]
  get_set_other := by simp [Section.fields]
  ext s t h := by
    cases s
    cases t
    simpa [Section.fields] using h

instance : Section.Lawful LoggingSettings where
  nodup := by decide
  get_set := by simp [Section.fields]
  get_set_other := by simp [Section.fields]
  ext s t h := by
    cases s
    cases t
    simpa [Section.fields] using h

namespace Section

variable {S : Type} [Section S] [Section.Lawful S] {f g : Field S} {name : Text}

theorem eq_of_name_eq (hf : f ∈ (fields : List (Field S))) (hg : g ∈ (fields : List (Field S)))
    (h : g.name = f.name) : g = f := List.inj_on_of_nodup_map Lawful.nodup hg hf h

omit [Section.Lawful S] in
theorem of_field? (h : field? name = some f) : f ∈ (fields : List (Field S)) ∧ f.name = name :=
  ⟨List.mem_of_find?_eq_some h, beq_iff_eq.mp (List.find?_some (p := fun f : Field S => f.name == name) h)⟩

/-- A field is the one of its name. -/
theorem field?_name (hf : f ∈ (fields : List (Field S))) : field? f.name = some f := by
  have hsome : (field? f.name : Option (Field S)).isSome :=
    List.find?_isSome.mpr ⟨f, hf, beq_self_eq_true f.name⟩
  obtain ⟨g, hg⟩ := Option.isSome_iff_exists.mp hsome
  obtain ⟨hmem, hname⟩ := of_field? hg
  rw [hg, eq_of_name_eq hf hmem hname]

omit [Section.Lawful S] in
/-- The value under a name in the dictionary of a section is that of the field of the name. -/
theorem get?_toFields (s : S) (name : Text) :
    (toFields s).get? name = (field? name).map fun f => f.get s := by
  unfold toFields Fields.get? field?
  induction (fields : List (Field S)) with
  | nil => rfl
  | cons f rest ih =>
      rw [List.map_cons, List.lookup_cons, List.find?_cons, Bool.beq_comm]
      cases hname : f.name == name with
      | true => rfl
      | false => exact ih

/-- A field that was given in a dictionary has that value, and its default value else. -/
theorem get_ofFields (hf : f ∈ (fields : List (Field S))) (given : Fields) :
    f.get (ofFields given) = (given.get? f.name).getD (f.get default) := by
  -- the fields are replaced one after another, and those of the other names leave this one alone
  have hfold : ∀ (members : List (Field S)) (s : S), (∀ g ∈ members, g ∈ (fields : List (Field S))) →
      f.get (members.foldl (fun s g => g.set s ((given.get? g.name).getD (g.get default))) s) =
        if f.name ∈ members.map (·.name) then (given.get? f.name).getD (f.get default) else f.get s := by
    intro members
    induction members with
    | nil => exact fun s _ => rfl
    | cons g rest ih =>
        intro s hmembers
        obtain ⟨hg, hrest⟩ := List.forall_mem_cons.mp hmembers
        rw [List.foldl_cons, ih _ hrest, List.map_cons]
        by_cases hname : g.name = f.name
        · cases eq_of_name_eq hf hg hname
          simp [Lawful.get_set f hf]
        · simp [Lawful.get_set_other g hg f hf (Ne.symm hname), Ne.symm hname]
  exact (hfold fields default fun _ h => h).trans (if_pos (List.mem_map_of_mem hf))

/-- The dictionary of a section makes that section again. -/
theorem ofFields_toFields (s : S) : ofFields (toFields s) = s := by
  refine Lawful.ext _ _ fun f hf => ?_
  rw [get_ofFields hf, get?_toFields, field?_name hf]
  rfl

/-- When a field is replaced, its entry in the dictionary is, and no other. -/
theorem toFields_set (s : S) (v : Value) (h : field? name = some f) :
    toFields (f.set s v) = (toFields s).map fun entry => if entry.1 = name then (name, v) else entry := by
  obtain ⟨hf, rfl⟩ := of_field? h
  unfold toFields
  rw [List.map_map]
  refine List.map_congr_left fun g hg => ?_
  by_cases hname : g.name = f.name
  · cases eq_of_name_eq hf hg hname
    simp [Lawful.get_set f hf]
  · simp [Lawful.get_set_other f hf g hg hname, hname]

end Section

end LineShell.Config
