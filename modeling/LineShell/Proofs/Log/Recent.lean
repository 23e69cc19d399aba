import LineShell.Log.Journal
import Mathlib.Data.List.DropRight
import Mathlib.Data.List.Forall2

/-!
# The most recent records

The records in memory are trimmed each time one is added.  Over any sequence of uses, in which records are
added, looked through and dropped, this keeps a window: of the records added since all were last dropped, the
latest ones, as many as the limit allows, each with all that was told of it (`kept_latest`).  The step is
`add_of_pos`: what is kept of a history that is one record longer is what was kept before with the record
behind it, trimmed once (`rtake_rtake_append`).

Looking through the records filters what is there and takes from the end (`get_eq`).  The number that is asked
for is used as a place counted from the end, and zero is no such place: whoever asks for no records is given
all of them.  `get_latest` tells the two cases apart, for the records in memory by themselves and for those
behind a journal.
-/

namespace LineShell.Log

/-! ## The end of a list -/

section Ends

variable {α : Type} {items : List α} {n : Nat}

/-- The last `n` items, or all of them where there are fewer. -/
structure Latest (n : Nat) (items last : List α) : Prop where
  suffix : last <:+ items
  length : last.length = min n items.length

theorem latest_rtake (n : Nat) (items : List α) : Latest n items (items.rtake n) := by
  refine ⟨List.drop_suffix _ _, ?_⟩
  rw [List.rtake, List.length_drop]
  omega

theorem rtake_of_length_le (h : items.length ≤ n) : items.rtake n = items := by
  rw [List.rtake, Nat.sub_eq_zero_of_le h, List.drop_zero]

theorem rtake_rtake (items : List α) {m n : Nat} (h : n ≤ m) : (items.rtake m).rtake n = items.rtake n := by
  simp only [List.rtake_eq_reverse_take_reverse, List.reverse_reverse, List.take_take, Nat.min_eq_left h]

/-- What was cut off in front before is not missed. -/
theorem rtake_rtake_append (items : List α) (x : α) (n : Nat) :
    (items.rtake n ++ [x]).rtake n = (items ++ [x]).rtake n := by
  cases n with
  | zero => rw [List.rtake_zero, List.rtake_zero]
  | succ n =>
      rw [List.rtake_concat_succ, List.rtake_concat_succ, rtake_rtake items (Nat.le_succ n)]

theorem lastOf_eq_rtake (h : 0 < n) (items : List α) : lastOf n items = items.rtake n := by
  rw [lastOf, if_pos (by omega), Int.toNat_natCast, List.rtake]

end Ends

namespace Recent

/-! ## Uses of the records in memory -/

/-- A filter for a name, which may be left open. -/
def asked : Option Text → Value
  | none => .null
  | some name => .text name

/-- What can be done with the records in memory. -/
inductive Use where
  | add (r : Record)
  | look (level subsystem count : Value)
  | clear

/-- The record that a use adds. -/
def Use.added? : Use → Option Record
  | .add r => some r
  | _ => none

/-- A use that drops all records. -/
def Use.isClear : Use → Bool
  | .clear => true
  | _ => false

/-- What a use answers, and what it leaves. -/
def use (b : Recent) : Use → Except Failure (List Kept) × Recent
  | .add r => ((b.add r).1.map fun _ => [], (b.add r).2)
  | .look level subsystem count => (b.get level subsystem count, b)
  | .clear => (.ok [], b.clear)

/-- What a sequence of uses leaves. -/
def after (b : Recent) (uses : List Use) : Recent := uses.foldl (fun b u => (b.use u).2) b

/-- The records that were added since all were last dropped. -/
def sinceClear (uses : List Use) : List Record := (uses.rtakeWhile fun u => !u.isClear).filterMap Use.added?

variable {b : Recent} {n : Nat}

theorem after_append (b : Recent) (uses : List Use) (u : Use) :
    b.after (uses ++ [u]) = ((b.after uses).use u).2 := List.foldl_concat ..

theorem sinceClear_add (uses : List Use) (r : Record) :
    sinceClear (uses ++ [.add r]) = sinceClear uses ++ [r] := by
  rw [sinceClear, List.rtakeWhile_concat_pos _ _ _ rfl, List.filterMap_append]
  rfl

theorem sinceClear_look (uses : List Use) (level subsystem count : Value) :
    sinceClear (uses ++ [.look level subsystem count]) = sinceClear uses := by
  rw [sinceClear, List.rtakeWhile_concat_pos _ _ _ rfl, List.filterMap_append]
  exact List.append_nil _

theorem sinceClear_clear (uses : List Use) : sinceClear (uses ++ [.clear]) = [] := by
  rw [sinceClear, List.rtakeWhile_concat_neg _ _ _ (by decide)]
  rfl

theorem sinceClear_map_add (records : List Record) : sinceClear (records.map .add) = records := by
  have hall : ∀ u ∈ records.map Use.add, !u.isClear := by
    intro u hu
    obtain ⟨r, -, rfl⟩ := List.mem_map.mp hu
    rfl
  rw [sinceClear, List.rtakeWhile_eq_self_iff.mpr hall, List.filterMap_map]
  exact List.filterMap_some

/-! ## The window that is kept -/

/-- A record is added behind the others, and what is too much goes in front. -/
theorem add_of_pos (hlimit : b.limit = .int n) (hn : 0 < n) (r : Record) :
    b.add r = (.ok (), { b with kept := (b.kept ++ [Kept.ofRecord r]).rtake n }) := by
  have hlt : (Value.int n).ltInt? ((b.kept ++ [Kept.ofRecord r]).length) =
      some (decide (n < (b.kept ++ [Kept.ofRecord r]).length)) :=
    congrArg some (decide_eq_decide.mpr Int.ofNat_lt)
  rw [add, trim, hlimit, hlt]
  by_cases hmany : n < (b.kept ++ [Kept.ofRecord r]).length
  · rw [decide_eq_true hmany]
    simp only [lastAsked, Value.toInt?, lastOf_eq_rtake hn]
  · rw [decide_eq_false hmany, rtake_of_length_le (Nat.le_of_not_lt hmany)]

/-- The window after any sequence of uses. -/
theorem after_eq (hn : 0 < n) (uses : List Use) :
    ({ limit := .int n } : Recent).after uses =
      { limit := .int n, kept := ((sinceClear uses).map Kept.ofRecord).rtake n } := by
  -- by the last use: what is there before it is a window already, and only an addition moves the window
  induction uses using List.reverseRecOn with
  | nil => exact congrArg (Recent.mk (.int n)) (List.rtake_nil n).symm
  | append_singleton uses u ih =>
      rw [after_append, ih]
      cases u with
      | add r =>
          rw [use, add_of_pos rfl hn, sinceClear_add, List.map_append, rtake_rtake_append]
          rfl
      | look level subsystem count => rw [use, sinceClear_look]
      | clear =>
          rw [use, sinceClear_clear, List.map_nil, List.rtake_nil]
          rfl

theorem kept_after_usual (uses : List Use) :
    (({} : Recent).after uses).kept = ((sinceClear uses).map Kept.ofRecord).rtake 1000 := by
  have hlimit : ({} : Recent) = { limit := .int (1000 : Nat) } := rfl
  rw [hlimit, after_eq (by decide)]

/-- What is kept tells of a record: its moment, its level by name and its message, and its subsystem, process
and details as far as it has any. -/
structure TellsOf (k : Kept) (r : Record) : Prop where
  created : k.created = r.created
  level : k.level = Level.nameOf r.level
  message : k.message = r.message
  subsystem : k.subsystem = r.subsystem.getD .null
  pid : k.pid = r.pid.getD .null
  context : k.context = r.context.getD (.dict [])

theorem tellsOf_ofRecord (r : Record) : TellsOf (.ofRecord r) r := ⟨rfl, rfl, rfl, rfl, rfl, rfl⟩

/-- The records in memory tell one by one of the latest of those that were added since all were last dropped,
in the order in which they were added.  Adding one never fails. -/
theorem kept_latest {limit : Nat} (hlimit : 0 < limit) (uses : List Use) :
    let b := ({ limit := .int limit } : Recent).after uses
    (∃ last, Latest limit (sinceClear uses) last ∧ List.Forall₂ TellsOf b.kept last) ∧
      ∀ r, (b.use (.add r)).1 = .ok [] := by
  intro b
  have hb : b = _ := after_eq hlimit uses
  have hkept : b.kept = ((sinceClear uses).rtake limit).map Kept.ofRecord := by
    rw [hb]
    simp only [List.rtake, List.length_map, List.map_drop]
  refine ⟨⟨_, latest_rtake limit _, ?_⟩, fun r => ?_⟩
  · rw [hkept, List.forall₂_map_left_iff, List.forall₂_same]
    exact fun r _ => tellsOf_ofRecord r
  · rw [hb, use, add_of_pos rfl hlimit]
    rfl

/-- A record of a subsystem. -/
def said (level : Int) (subsystem message : Text) : Record where
  level := level
  created := .ofMilliseconds 0
  message := message
  subsystem := some (.text subsystem)

/-- Five records, of which one was dropped. -/
def five : List Use :=
  [.add (said 30 "shell" "a"), .clear, .add (said 10 "shell" "b"),
    .add { said 40 "process" "c" with pid := some (.int 7), context := some (.dict [("status", .int 1)]) },
    .look (asked none) (asked (some "shell")) (.int 2), .add (said 30 "shell" "d"),
    .add { said 30 "process" "e" with pid := some (.int 8) }]

/-- Of the four that were not dropped, the first had to go as well. -/
theorem kept_latest_of_five :
    0 < 3 ∧
      let b := ({ limit := .int 3 } : Recent).after five
      (∃ last, Latest 3 (sinceClear five) last ∧ List.Forall₂ TellsOf b.kept last) ∧
        b.kept.map Kept.toFields =
          ([[("level", .text "ERROR"), ("message", .text "c"), ("subsystem", .text "process"),
              ("pid", .int 7), ("context", .dict [("status", .int 1)])],
            [("level", .text "WARNING"), ("message", .text "d"), ("subsystem", .text "shell"),
              ("pid", .null), ("context", .dict [])],
            [("level", .text "WARNING"), ("message", .text "e"), ("subsystem", .text "process"),
              ("pid", .int 8), ("context", .dict [])]] : List Fields) :=
  ⟨by decide, (kept_latest (by decide) five).1, rfl⟩

/-! ## Looking through records -/

/-- A value is a name. -/
def isNamed (name : Text) : Value → Bool
  | .text other => other == name
  | _ => false

/-- A record has the level and the subsystem that are asked for. -/
def isWanted (level subsystem : Option Text) (k : Kept) : Bool :=
  level.all (k.level == ·) && subsystem.all (isNamed · k.subsystem)

theorem equals_text (v : Value) (name : Text) : v.equals (.text name) = isNamed name v := by
  cases v <;> simp [isNamed, Value.equals, Value.equalNumbers, Value.toInt?]

/-- Only an empty name would be taken for none. -/
theorem passes_asked {name : Option Text} (h : name ≠ some []) (v : Value) :
    passes (asked name) v = name.all fun name => isNamed name v := by
  cases name with
  | none => rfl
  | some name =>
      have hname : name ≠ [] := fun hnil => h (congrArg some hnil)
      simp [passes, asked, Value.isTruthy, hname, equals_text]

/-- The records that are wanted, and as many of them as are asked for. -/
theorem get_eq {level subsystem : Option Text} (hlevel : level ≠ some []) (hsubsystem : subsystem ≠ some [])
    (b : Recent) (count : Int) : b.get (asked level) (asked subsystem) (.int count) =
      .ok (lastOf count (b.kept.filter (isWanted level subsystem))) := by
  have hwanted : ∀ k : Kept, isWanted level subsystem k =
      (passes (asked subsystem) k.subsystem && passes (asked level) (.text k.level)) := by
    intro k
    rw [passes_asked hlevel, passes_asked hsubsystem, Bool.and_comm]
    rfl
  rw [get, List.filter_filter, lastAsked, List.filter_congr fun k _ => hwanted k]
  rfl

end Recent

namespace Journal

/-- The records that a journal can be asked about. -/
def memory (j : Journal) : List Kept := (j.recent?.map Recent.kept).getD []

theorem get_eq {level subsystem : Option Text} (hlevel : level ≠ some []) (hsubsystem : subsystem ≠ some [])
    (j : Journal) (count : Int) : j.get (Recent.asked level) (Recent.asked subsystem) (.int count) =
      .ok (lastOf count (j.memory.filter (Recent.isWanted level subsystem))) := by
  rw [get, memory]
  cases j.recent? with
  | none => simp [lastOf]
  | some b => exact b.get_eq hlevel hsubsystem count

end Journal

namespace Recent

/-- Whoever asks for some records is given the latest of those that are wanted, never more than that number,
and whoever asks for none is given all that are wanted.  Either way nothing is changed. -/
theorem get_latest {level subsystem : Option Text} (hlevel : level ≠ some [])
    (hsubsystem : subsystem ≠ some []) (b : Recent) (j : Journal) :
    (∀ limit : Nat, 0 < limit →
      (∃ found, b.use (.look (asked level) (asked subsystem) (.int limit)) = (.ok found, b) ∧
        Latest limit (b.kept.filter (isWanted level subsystem)) found) ∧
      ∃ found, j.get (asked level) (asked subsystem) (.int limit) = .ok found ∧
        Latest limit (j.memory.filter (isWanted level subsystem)) found) ∧
    b.use (.look (asked level) (asked subsystem) (.int 0)) =
      (.ok (b.kept.filter (isWanted level subsystem)), b) ∧
    j.get (asked level) (asked subsystem) (.int 0) =
      .ok (j.memory.filter (isWanted level subsystem)) := by
  refine ⟨fun limit hlimit => ⟨⟨_, ?_, latest_rtake limit _⟩, _, ?_, latest_rtake limit _⟩, ?_, ?_⟩
  · rw [use, get_eq hlevel hsubsystem, lastOf_eq_rtake hlimit]
  · rw [Journal.get_eq hlevel hsubsystem, lastOf_eq_rtake hlimit]
  · rw [use, get_eq hlevel hsubsystem]
    rfl
  · rw [Journal.get_eq hlevel hsubsystem]
    rfl

/-- Of the two warnings one is given to whoever asks for one, and both to whoever asks for none. -/
theorem get_latest_of_warnings :
    some ("WARNING" : Text) ≠ some [] ∧ (none : Option Text) ≠ some [] ∧ 0 < 1 ∧
      let b := ({ limit := .int 3 } : Recent).after five
      (∃ found, b.use (.look (asked (some "WARNING")) (asked none) (.int 1)) = (.ok found, b) ∧
        found.length = 1) ∧
      ∃ found, b.use (.look (asked (some "WARNING")) (asked none) (.int 0)) = (.ok found, b) ∧
        found.length = 2 := by
  have hlevel : some ("WARNING" : Text) ≠ some [] := by decide
  have hsubsystem : (none : Option Text) ≠ some [] := by decide
  obtain ⟨hsome, hnone, -⟩ := get_latest hlevel hsubsystem (({ limit := .int 3 } : Recent).after five)
    { disk := ⟨[]⟩, console := .other }
  obtain ⟨⟨found, hfound, hlatest⟩, -⟩ := hsome 1 (by decide)
  exact ⟨hlevel, hsubsystem, by decide, ⟨found, hfound, hlatest.length⟩, _, hnone, rfl⟩

end Recent

end LineShell.Log
