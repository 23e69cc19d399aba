import LineShell.LineBuffer
import LineShell.Services.InMemory

/-!
# The pieces of a source

A source is cut after every newline and after every `capacity` bytes since the last cut; `pieces` says
this byte by byte.  The line that is read at an offset is the next piece (`pieces_eq_lineAt_cons`), so
reading on from the end of each line goes through the pieces in order.
-/

namespace LineShell

namespace Line

/-- Cuts a source into pieces; `current` is the part of the current piece that was passed already. -/
def piecesFrom (capacity : Nat) (current : Bytes) : Bytes → List Bytes
  | [] => if current.isEmpty then [] else [current]
  | byte :: rest =>
    if byte = LineBuffer.newline ∨ current.length + 1 = capacity then
      (current ++ [byte]) :: piecesFrom capacity [] rest
    else piecesFrom capacity (current ++ [byte]) rest

/-- A source cut after every newline and after every `capacity` bytes since the last cut. -/
def pieces (capacity : Nat) (source : Bytes) : List Bytes := piecesFrom capacity [] source

theorem flatten_piecesFrom (capacity : Nat) (current source : Bytes) :
    (piecesFrom capacity current source).flatten = current ++ source := by
  induction source generalizing current with
  | nil => cases current <;> rfl
  | cons byte rest ih =>
      rw [piecesFrom]
      split
      · rw [List.flatten_cons, ih, List.nil_append, List.append_assoc, List.singleton_append]
      · rw [ih, List.append_assoc, List.singleton_append]

/-- Cutting loses nothing. -/
theorem flatten_pieces (capacity : Nat) (source : Bytes) :
    (pieces capacity source).flatten = source := flatten_piecesFrom capacity [] source

end Line

namespace InMemory

theorem length_firstLine_le (bytes : Bytes) : (firstLine bytes).length ≤ bytes.length := by
  induction bytes with
  | nil => exact Nat.le_refl _
  | cons byte rest ih =>
      rw [firstLine]
      split
      · simp
      · simpa using ih

theorem firstLine_ne_nil {bytes : Bytes} (h : bytes ≠ []) : firstLine bytes ≠ [] := by
  cases bytes with
  | nil => exact absurd rfl h
  | cons byte rest =>
      rw [firstLine]
      split <;> exact List.cons_ne_nil _ _

theorem prefix_firstLine (bytes : Bytes) : firstLine bytes <+: bytes := by
  induction bytes with
  | nil => exact List.prefix_refl _
  | cons byte rest ih =>
      rw [firstLine]
      split
      · exact ⟨rest, rfl⟩
      · exact List.cons_prefix_cons.mpr ⟨rfl, ih⟩

/-- The first piece is the first line of what fits, and the others are the pieces of the rest. -/
theorem piecesFrom_eq_cons {capacity : Nat} {current rest : Bytes} (hne : rest ≠ [])
    (hcurrent : current.length < capacity) :
    Line.piecesFrom capacity current rest =
      (current ++ firstLine (rest.take (capacity - current.length))) ::
        Line.pieces capacity
          (rest.drop (firstLine (rest.take (capacity - current.length))).length) := by
  induction rest generalizing current with
  | nil => exact absurd rfl hne
  | cons byte rest ih =>
      obtain ⟨room, hroom⟩ : ∃ room, capacity - current.length = room + 1 :=
        ⟨capacity - current.length - 1, by omega⟩
      rw [Line.piecesFrom, hroom, List.take_succ_cons, firstLine]
      -- the piece ends with this byte, because it is a newline or because the piece is full then
      by_cases hnewline : byte = LineBuffer.newline
      · subst hnewline
        rw [if_pos (.inl rfl), if_pos (show LineBuffer.newline = 0x0A from rfl)]
        rfl
      rw [if_neg (show ¬byte = 0x0A from hnewline), List.length_cons, List.drop_succ_cons]
      by_cases hfull : current.length + 1 = capacity
      · have hzero : room = 0 := by omega
        subst hzero
        rw [if_pos (.inr hfull), List.take_zero]
        rfl
      rw [if_neg (by simp [hnewline, hfull])]
      -- otherwise the byte is passed, and there is room for one byte less
      cases rest with
      | nil =>
          rw [List.take_nil]
          simp [Line.piecesFrom, Line.pieces, firstLine]
      | cons next more =>
          have hlength : (current ++ [byte]).length < capacity := by simp; omega
          have hrest := ih (List.cons_ne_nil next more) hlength
          have hleft : capacity - (current ++ [byte]).length = room := by simp; omega
          rw [hrest, hleft, List.append_assoc, List.singleton_append]

variable {source : Bytes} {offset capacity : Int}

theorem length_lineAt_le : (lineAt source offset capacity).length ≤ capacity.toNat := by
  calc (lineAt source offset capacity).length
      ≤ ((source.drop offset.toNat).take capacity.toNat).length := length_firstLine_le _
    _ ≤ capacity.toNat := List.length_take_le _ _

/-- What is read lies inside the source. -/
theorem add_length_lineAt_le {source : Bytes} {offset : Nat} {capacity : Int}
    (h : offset ≤ source.length) : offset + (lineAt source offset capacity).length ≤ source.length := by
  have hle := length_firstLine_le ((source.drop (offset : Int).toNat).take capacity.toNat)
  rw [← lineAt, List.length_take, List.length_drop, Int.toNat_natCast] at hle
  omega

/-- What is read at an offset follows what lies before it. -/
theorem take_append_lineAt (source : Bytes) (offset : Nat) (capacity : Int) :
    source.take offset ++ lineAt source offset capacity =
      source.take (offset + (lineAt source offset capacity).length) := by
  have hprefix : lineAt source offset capacity <+: source.drop offset :=
    (prefix_firstLine _).trans (List.take_prefix _ _)
  rw [List.take_add, ← List.prefix_iff_eq_take.mp hprefix]

/-- Nothing is read only at the end of a source. -/
theorem lineAt_eq_nil_iff (h : 0 < capacity) :
    lineAt source offset capacity = [] ↔ source.drop offset.toNat = [] := by
  constructor
  · intro hnil
    refine Classical.byContradiction fun hne => firstLine_ne_nil (fun htake => ?_) hnil
    rw [List.take_eq_nil_iff] at htake
    rcases htake with hzero | hdrop
    · omega
    · exact hne hdrop
  · intro hnil
    rw [lineAt, hnil, List.take_nil, firstLine]

/-- What is read at an offset is the next piece. -/
theorem pieces_eq_lineAt_cons (h : 0 < capacity) (hne : lineAt source offset capacity ≠ []) :
    Line.pieces capacity.toNat (source.drop offset.toNat) =
      lineAt source offset capacity ::
        Line.pieces capacity.toNat
          (source.drop (offset.toNat + (lineAt source offset capacity).length)) := by
  have hdrop : source.drop offset.toNat ≠ [] := fun hnil => hne ((lineAt_eq_nil_iff h).mpr hnil)
  rw [← List.drop_drop]
  exact piecesFrom_eq_cons hdrop (by rw [List.length_nil]; omega)

end InMemory

end LineShell
