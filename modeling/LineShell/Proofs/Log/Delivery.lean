import LineShell.Proofs.Log.Recent

/-!
# What becomes of a record

A record that matters enough goes to the outlets of the journal one after another.  What an outlet does with
it depends on its sink: one in memory keeps the record (`Outlet.kept`), a console prints its line
(`Outlet.printed`), and a file gets the bytes of the line (`Outlet.stored`).  None of this depends on what was
done for another outlet or for an earlier record, so a sequence of records comes to the same things in a row
(`Journal.takeAll_eq`).

From that follows where records are found again: in memory with the last outlet that keeps any
(`Journal.recent?_takeAll`), and in a file behind what was in it before (`Journal.at?_takeAll`).
-/

namespace LineShell

/-! ## Files that are added to -/

namespace Disk

variable {d : Disk} {place : List Text} {content : Bytes}

theorem at?_put_self (d : Disk) (place : List Text) (content : Bytes) :
    (d.put place (some content)).at? place = .file content := by
  simp [put, at?]

theorem at?_add_self (h : d.at? place = .file content) (bytes : Bytes) :
    (d.add place bytes).at? place = .file (content ++ bytes) := by
  rw [add, h]
  exact at?_put_self d place _

/-- A file that could be opened is there. -/
theorem openToAdd_eq_ok {path : Text} {opened : Disk} (h : d.openToAdd path = .ok (opened, place)) :
    place = placeAsWritten path ∧ ∃ content, opened.at? place = .file content := by
  unfold openToAdd at h
  cases hcheck : checkPath path with
  | error e => rw [hcheck] at h; cases h
  | ok _ =>
      rw [hcheck] at h
      simp only [bind, Except.bind, pure, Except.pure, throw, throwThe, MonadExceptOf.throw] at h
      split at h
      · cases h
      · split at h
        · rename_i content hfound
          cases h
          exact ⟨rfl, content, hfound⟩
        · cases h
          exact ⟨rfl, [], at?_put_self d _ []⟩
        · cases h

end Disk

namespace Log

/-! ## One outlet -/

namespace Outlet

/-- What an outlet is after a record. -/
def kept (o : Outlet) (r : Record) : Outlet :=
  match o.sink with
  | .memory recent => if r.level < o.level then o else { o with sink := .memory (recent.add r).2 }
  | _ => o

/-- What an outlet writes to standard error for a record. -/
def printed (o : Outlet) (r : Record) : Text :=
  match o.sink with
  | .console coloured => if r.level < o.level then [] else Journal.lineOf coloured r
  | _ => []

/-- What an outlet makes of the disk for a record. -/
def stored (o : Outlet) (r : Record) (d : Disk) : Disk :=
  match o.sink with
  | .file place =>
    if r.level < o.level then d else d.add place (Journal.bytesOf (Journal.lineOf false r))
  | _ => d

/-- What outlets make of the disk for a record, one after another. -/
def storedAll (outlets : List Outlet) (r : Record) (d : Disk) : Disk :=
  outlets.foldl (fun d o => o.stored r d) d

/-- The records in memory, if it is there that an outlet leads to. -/
def recent? (o : Outlet) : Option Recent :=
  match o.sink with
  | .memory recent => some recent
  | _ => none

variable (o : Outlet) (r s : Record)

/-- Only what is in memory changes. -/
theorem kept_cases : o.kept r = o ∨
    ∃ recent, o.sink = .memory recent ∧ o.kept r = { o with sink := .memory (recent.add r).2 } := by
  unfold kept
  split
  · rename_i recent hsink
    split
    · exact .inl rfl
    · exact .inr ⟨recent, hsink, rfl⟩
  · exact .inl rfl

theorem printed_kept : (o.kept r).printed s = o.printed s := by
  obtain h | ⟨recent, hsink, h⟩ := o.kept_cases r
  · rw [h]
  · rw [h, printed, printed, hsink]

theorem stored_kept (d : Disk) : (o.kept r).stored s d = o.stored s d := by
  obtain h | ⟨recent, hsink, h⟩ := o.kept_cases r
  · rw [h]
  · rw [h, stored, stored, hsink]

theorem storedAll_kept (outlets : List Outlet) (d : Disk) :
    storedAll (outlets.map (·.kept r)) s d = storedAll outlets s d := by
  simp only [storedAll, List.foldl_map, stored_kept]

theorem level_kept : (o.kept r).level = o.level := by
  obtain h | ⟨recent, hsink, h⟩ := o.kept_cases r <;> rw [h]

theorem recent?_kept : (o.kept r).recent? =
    o.recent?.map fun b => if r.level < o.level then b else (b.add r).2 := by
  obtain ⟨level, sink⟩ := o
  cases sink <;> by_cases h : r.level < level <;> simp [kept, recent?, h]

/-- Of any records an outlet in memory keeps those that matter enough for it. -/
theorem recent?_foldl_kept (o : Outlet) (records : List Record) : (records.foldl kept o).recent? =
    o.recent?.map fun b => b.after ((records.filter fun r => o.level ≤ r.level).map .add) := by
  induction records generalizing o with
  | nil => exact Option.map_id'.symm
  | cons r rest ih =>
      rw [List.foldl_cons, ih, recent?_kept, level_kept, Option.map_map]
      congr 1
      funext b
      by_cases h : r.level < o.level
      · have hnot : ¬o.level ≤ r.level := by omega
        simp [h, hnot]
      · have hle : o.level ≤ r.level := by omega
        simp [h, hle, Recent.after, Recent.use]

theorem stored_of_ne_file {o : Outlet} (h : ∀ place, o.sink ≠ .file place) (r : Record) (d : Disk) :
    o.stored r d = d := by
  unfold stored
  split
  · exact absurd ‹_› (h _)
  · rfl

theorem storedAll_of_ne_file {outlets : List Outlet} (h : ∀ o ∈ outlets, ∀ place, o.sink ≠ .file place)
    (r : Record) (d : Disk) : storedAll outlets r d = d := by
  induction outlets with
  | nil => rfl
  | cons o rest ih =>
      have hrest : ∀ other ∈ rest, ∀ place, other.sink ≠ .file place :=
        fun other hother => h other (List.mem_cons_of_mem _ hother)
      have hfirst : storedAll (o :: rest) r d = storedAll rest r (o.stored r d) := rfl
      rw [hfirst, stored_of_ne_file (h o List.mem_cons_self), ih hrest]

/-- Of these outlets the last one alone leads to a file. -/
def FiledLast (outlets : List Outlet) (level : Int) (place : List Text) : Prop :=
  ∃ front, outlets = front ++ [⟨level, .file place⟩] ∧ ∀ o ∈ front, ∀ place, o.sink ≠ .file place

variable {outlets : List Outlet} {level : Int} {place : List Text} {content : Bytes} {d : Disk}
  {r : Record} {records : List Record}

theorem FiledLast.storedAll (h : FiledLast outlets level place) (hr : level ≤ r.level) (d : Disk) :
    Outlet.storedAll outlets r d = d.add place (Journal.bytesOf (Journal.lineOf false r)) := by
  obtain ⟨front, rfl, hfront⟩ := h
  have hnone := storedAll_of_ne_file hfront r d
  have hlast : ¬r.level < level := by omega
  rw [Outlet.storedAll] at hnone ⊢
  rw [List.foldl_append, hnone]
  exact if_neg hlast

/-- Records that matter enough go to the file one after another. -/
theorem FiledLast.at? (h : FiledLast outlets level place) (hrecords : ∀ r ∈ records, level ≤ r.level)
    (hfile : d.at? place = .file content) :
    (records.foldl (fun d r => Outlet.storedAll outlets r d) d).at? place =
      .file (content ++ records.flatMap fun r => Journal.bytesOf (Journal.lineOf false r)) := by
  induction records generalizing d content with
  | nil => simpa using hfile
  | cons r rest ih =>
      have hrest : ∀ s ∈ rest, level ≤ s.level := fun s hs => hrecords s (List.mem_cons_of_mem _ hs)
      rw [List.foldl_cons, h.storedAll (hrecords r List.mem_cons_self),
        ih hrest (Disk.at?_add_self hfile _), List.flatMap_cons, List.append_assoc]

end Outlet

namespace Journal

variable {j : Journal} {r : Record} {records : List Record}

theorem deliver_eq (r : Record) (j : Journal) (o : Outlet) : deliver r j o =
    (o.kept r, { j with stderr := j.stderr ++ o.printed r, disk := o.stored r j.disk }) := by
  obtain ⟨level, sink⟩ := o
  unfold deliver
  cases sink <;> by_cases h : r.level < level <;>
    simp [Outlet.kept, Outlet.printed, Outlet.stored, print, h]

theorem deliverAll_eq (r : Record) (j : Journal) (outlets : List Outlet) : deliverAll r j outlets =
    (outlets.map (·.kept r),
      { j with
        stderr := j.stderr ++ outlets.flatMap (·.printed r)
        disk := Outlet.storedAll outlets r j.disk }) := by
  induction outlets generalizing j with
  | nil => simp [deliverAll, Outlet.storedAll]
  | cons o rest ih => simp [deliverAll, deliver_eq, ih, Outlet.storedAll]

/-! ## One record after another -/

/-- A record matters enough for a journal. -/
def takes (j : Journal) (r : Record) : Bool := j.effectiveLevel ≤ r.level

theorem le_of_mem_filter_takes (h : r ∈ records.filter j.takes) : j.effectiveLevel ≤ r.level :=
  of_decide_eq_true (List.mem_filter.mp h).2

/-- Takes records one after another. -/
def takeAll (j : Journal) (records : List Record) : Journal := records.foldl take j

theorem take_of_not_takes (h : j.takes r = false) : j.take r = j :=
  if_pos (Int.not_le.mp (of_decide_eq_false h))

theorem take_of_takes (houtlets : j.outlets ≠ []) (h : j.takes r = true) : j.take r =
    { j with
      stderr := j.stderr ++ j.outlets.flatMap (·.printed r)
      disk := Outlet.storedAll j.outlets r j.disk
      outlets := j.outlets.map (·.kept r) } := by
  have hlevel : ¬r.level < j.effectiveLevel := Int.not_lt.mpr (of_decide_eq_true h)
  have hsome : ¬j.outlets.isEmpty := by simpa using houtlets
  rw [take, if_neg hlevel, if_neg hsome, deliverAll_eq]

/-- A journal with outlets does the same for each record that matters enough. -/
theorem takeAll_eq (houtlets : j.outlets ≠ []) (records : List Record) : j.takeAll records =
    { j with
      stderr := j.stderr ++ (records.filter j.takes).flatMap fun r => j.outlets.flatMap (·.printed r)
      disk := (records.filter j.takes).foldl (fun d r => Outlet.storedAll j.outlets r d) j.disk
      outlets := j.outlets.map fun o => (records.filter j.takes).foldl Outlet.kept o } := by
  induction records generalizing j with
  | nil => simp [takeAll]
  | cons r rest ih =>
      have hfirst : j.takeAll (r :: rest) = (j.take r).takeAll rest := rfl
      cases hr : j.takes r with
      | false =>
          have hskip : (r :: rest).filter j.takes = rest.filter j.takes :=
            List.filter_cons_of_neg (Bool.eq_false_iff.mp hr)
          rw [hfirst, take_of_not_takes hr, hskip]
          exact ih houtlets
      | true =>
          -- the level and what each outlet does with further records stay as they were
          have hsome : (j.take r).outlets ≠ [] := by simpa [take_of_takes houtlets hr] using houtlets
          have htakes : (j.take r).takes = j.takes := by
            rw [take_of_takes houtlets hr]
            rfl
          rw [hfirst, ih hsome, htakes, take_of_takes houtlets hr, List.filter_cons_of_pos hr]
          simp [List.flatMap_map, Outlet.printed_kept, Outlet.storedAll_kept]

/-! ## Where records are found again -/

theorem recent?_eq {front back : List Outlet} {o : Outlet} {b : Recent}
    (houtlets : j.outlets = front ++ o :: back) (ho : o.recent? = some b)
    (hback : ∀ other ∈ back, other.recent? = none) : j.recent? = some b := by
  have hj : j.recent? = (j.outlets.filterMap Outlet.recent?).getLast? := rfl
  rw [hj, houtlets, List.filterMap_append, List.filterMap_cons_some ho,
    List.filterMap_eq_nil_iff.mpr hback, List.getLast?_concat]

/-- The last outlet in memory keeps the latest of the records that the journal takes. -/
theorem recent?_takeAll {front back : List Outlet} {o : Outlet} {b : Recent}
    (houtlets : j.outlets = front ++ o :: back) (ho : o.recent? = some b)
    (hback : ∀ other ∈ back, other.recent? = none) (hlevel : o.level ≤ j.effectiveLevel) :
    (j.takeAll records).recent? = some (b.after ((records.filter j.takes).map .add)) := by
  have hsome : j.outlets ≠ [] := by simp [houtlets]
  have hmatter : ((records.filter j.takes).filter fun r => o.level ≤ r.level) = records.filter j.takes :=
    List.filter_eq_self.mpr fun r hr =>
      decide_eq_true (Int.le_trans hlevel (le_of_mem_filter_takes hr))
  rw [takeAll_eq hsome]
  refine recent?_eq (by rw [houtlets, List.map_append, List.map_cons]) ?_ ?_
  · rw [Outlet.recent?_foldl_kept, ho, hmatter]
    rfl
  · intro other hother
    obtain ⟨outlet, houtlet, rfl⟩ := List.mem_map.mp hother
    rw [Outlet.recent?_foldl_kept, hback outlet houtlet]
    rfl

/-- The file that the last outlet leads to gets the bytes of the records that the journal takes. -/
theorem at?_takeAll {level : Int} {place : List Text} {content : Bytes}
    (houtlets : Outlet.FiledLast j.outlets level place) (hlevel : level ≤ j.effectiveLevel)
    (hfile : j.disk.at? place = .file content) :
    (j.takeAll records).disk.at? place =
      .file (content ++ (records.filter j.takes).flatMap fun r => bytesOf (lineOf false r)) := by
  have hsome : j.outlets ≠ [] := by
    obtain ⟨front, heq, -⟩ := houtlets
    simp [heq]
  rw [takeAll_eq hsome]
  exact houtlets.at? (fun r hr => Int.le_trans hlevel (le_of_mem_filter_takes hr)) hfile

end Journal

end Log

end LineShell
