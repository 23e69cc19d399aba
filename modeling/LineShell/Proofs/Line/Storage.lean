import LineShell.Proofs.Line.Tokens

/-!
# The storage of a line buffer

What each operation does to a buffer as a whole.  A line that is loaded replaces the bytes in front of
the storage and puts a NUL behind them; whatever else ends a line cuts it at some place
(`exists_truncate_stripNewline`, `exists_truncate_cutAt`), which writes one NUL; and splitting a line
overwrites its spaces.

No operation changes the size of the buffer (`SameSize`), only loading a line begins a new generation,
and each keeps the shape of the storage: it has one byte more than the capacity, and a NUL stands
behind the line (`Shaped`).
-/

namespace LineShell

namespace LineBuffer

variable {b c : LineBuffer} {chunk : Bytes} {n index : Nat}

/-! ## What each operation comes to -/

theorem fill_eq_ok (h : b.fill chunk = .ok (n, c)) :
    chunk.length ≤ b.capacity ∧ n = chunk.length ∧
      c = { b with
        front := chunk ++ nul :: b.front.drop (chunk.length + 1)
        length := chunk.idxOf nul
        generation := b.generation + 1 } := by
  unfold fill at h
  split at h
  · cases h
  · cases h
    exact ⟨by omega, rfl, rfl⟩

theorem truncate_of_le (h : b.length ≤ index) : b.truncate index = b := by
  rw [truncate, if_neg (by omega)]

theorem truncate_of_lt (h : index < b.length) :
    b.truncate index = { b with front := b.front.set index nul, length := index } := if_pos h

theorem content_truncate (h : index < b.length) : (b.truncate index).content = b.content.take index := by
  rw [truncate_of_lt h, content, content, List.take_set_of_le (Nat.le_refl _), List.take_take,
    Nat.min_eq_left (Nat.le_of_lt h)]

/-- Removing the newline cuts the line, if only behind its end. -/
theorem exists_truncate_stripNewline (b : LineBuffer) :
    ∃ index, b.stripNewline = b.truncate index := by
  unfold stripNewline
  split
  · rename_i hends
    exact ⟨b.length - 1, by rw [truncate, if_pos (by omega)]⟩
  · exact ⟨b.length, (truncate_of_le (Nat.le_refl _)).symm⟩

theorem exists_truncate_cutAt (b : LineBuffer) (byte : UInt8) :
    ∃ index, b.cutAt byte = b.truncate index := by
  unfold cutAt
  split
  · exact ⟨_, rfl⟩
  · exact ⟨b.length, (truncate_of_le (Nat.le_refl _)).symm⟩

theorem exists_truncate_truncateAt (b : LineBuffer) (index : Int) :
    ∃ place, b.truncateAt index = b.truncate place := by
  unfold truncateAt
  split
  · exact ⟨_, rfl⟩
  · exact ⟨b.length, (truncate_of_le (Nat.le_refl _)).symm⟩

/-- Splitting needs a marker that is a byte. -/
theorem tokenize_eq_ok {marker : CodePoint} {v : ArgumentVector} (h : b.tokenize marker = .ok (v, c)) :
    ∃ byte, (v, c) = (b.cutAt byte).split := by
  unfold tokenize at h
  cases hbyte : byteOf marker.val with
  | error e => rw [hbyte] at h; cases h
  | ok byte =>
      rw [hbyte] at h
      exact ⟨byte, (Except.ok.inj h).symm⟩

/-! ## Size and generation -/

/-- A buffer has the size of another one. -/
structure SameSize (b c : LineBuffer) : Prop where
  capacity : c.capacity = b.capacity
  size : c.size = b.size

theorem SameSize.refl (b : LineBuffer) : b.SameSize b := ⟨rfl, rfl⟩

theorem SameSize.trans {b c d : LineBuffer} (h : b.SameSize c) (h' : c.SameSize d) :
    b.SameSize d := ⟨h'.capacity.trans h.capacity, h'.size.trans h.size⟩

theorem sameSize_fill (h : b.fill chunk = .ok (n, c)) : b.SameSize c := by
  obtain ⟨-, -, rfl⟩ := fill_eq_ok h
  exact ⟨rfl, rfl⟩

theorem sameSize_truncate (b : LineBuffer) (index : Nat) : b.SameSize (b.truncate index) := by
  unfold truncate
  split <;> exact ⟨rfl, rfl⟩

theorem sameSize_stripNewline (b : LineBuffer) : b.SameSize b.stripNewline := by
  obtain ⟨index, heq⟩ := b.exists_truncate_stripNewline
  rw [heq]
  exact b.sameSize_truncate index

theorem sameSize_cutAt (b : LineBuffer) (byte : UInt8) : b.SameSize (b.cutAt byte) := by
  obtain ⟨index, heq⟩ := b.exists_truncate_cutAt byte
  rw [heq]
  exact b.sameSize_truncate index

theorem sameSize_tokenize {marker : CodePoint} {v : ArgumentVector}
    (h : b.tokenize marker = .ok (v, c)) : b.SameSize c := by
  obtain ⟨byte, heq⟩ := tokenize_eq_ok h
  cases heq
  exact ⟨(b.sameSize_cutAt byte).capacity, (b.sameSize_cutAt byte).size⟩

theorem generation_truncate (b : LineBuffer) (index : Nat) :
    (b.truncate index).generation = b.generation := by
  unfold truncate
  split <;> rfl

theorem generation_tokenize {marker : CodePoint} {v : ArgumentVector}
    (h : b.tokenize marker = .ok (v, c)) : c.generation = b.generation := by
  obtain ⟨byte, heq⟩ := tokenize_eq_ok h
  obtain ⟨index, hcut⟩ := b.exists_truncate_cutAt byte
  cases heq
  rw [hcut]
  exact b.generation_truncate index

/-! ## Storage -/

/-- The line stands in front with a NUL behind it, and the rest of the storage is as it was. -/
theorem storage_fill (hroom : b.front.length ≤ b.capacity + 1) (h : b.fill chunk = .ok (n, c)) :
    c.storage = chunk ++ nul :: b.storage.drop (chunk.length + 1) := by
  obtain ⟨hfit, -, rfl⟩ := fill_eq_ok h
  simp only [storage, List.append_assoc, List.cons_append, List.drop_append, List.length_append,
    List.length_cons, List.length_drop, List.drop_replicate]
  congr 4
  omega

theorem storage_truncate (h : b.Fits) (hindex : index < b.length) :
    (b.truncate index).storage = b.storage.set index nul := by
  have hfront : index < b.front.length := Nat.lt_of_lt_of_le hindex h
  simp only [truncate, if_pos hindex, storage, List.length_set, List.set_append_left _ _ hfront]

theorem length_blankSpaces (bytes : Bytes) : (blankSpaces bytes).length = bytes.length :=
  List.length_map _

/-- Only the spaces of the line are overwritten. -/
theorem storage_split (h : b.Fits) :
    b.split.2.storage = blankSpaces b.content ++ b.storage.drop b.length := by
  have hlength := length_content h
  have hfits : b.length ≤ b.front.length := h
  simp only [split, storage, List.length_append, length_blankSpaces, hlength, List.length_drop,
    List.append_assoc, List.drop_append_of_le_length hfits]
  congr 4
  omega

theorem content_split (h : b.Fits) : b.split.2.content = blankSpaces b.content :=
  List.take_left' ((length_blankSpaces _).trans (length_content h))

/-! ## The shape of the storage -/

/-- What was written lies inside the storage, and so does the line with a NUL behind it. -/
structure Shaped (b : LineBuffer) : Prop where
  room : b.front.length ≤ b.capacity + 1
  inside : b.length ≤ b.capacity
  fits : b.Fits
  ended : b.storage[b.length]? = some nul

theorem Shaped.length_storage (h : b.Shaped) : b.storage.length = b.capacity + 1 := by
  have hroom := h.room
  simp only [storage, List.length_append, List.length_replicate]
  omega

theorem shaped_blank (capacity : Nat) (size : Value) : (blank capacity size).Shaped := by
  constructor <;> simp [blank, Fits, storage]

theorem Shaped.fill (h : b.Shaped) (hfill : b.fill chunk = .ok (n, c)) : c.Shaped := by
  have hstorage := storage_fill h.room hfill
  have hfits := (content_fill hfill).2
  have hroom := h.room
  obtain ⟨hfit, -, rfl⟩ := fill_eq_ok hfill
  have hle : chunk.idxOf nul ≤ chunk.length := List.idxOf_le_length
  refine ⟨?_, Nat.le_trans hle hfit, hfits, ?_⟩
  · simp only [List.length_append, List.length_cons, List.length_drop]
    omega
  · -- the line ends at its first NUL, or else at the one that was put behind it
    rw [hstorage]
    rcases Nat.lt_or_eq_of_le hle with hlt | heq
    · rw [List.getElem?_append_left hlt, List.getElem?_eq_getElem hlt, List.getElem_idxOf]
    · simp [heq]

theorem Shaped.truncate (h : b.Shaped) (index : Nat) : (b.truncate index).Shaped := by
  by_cases hindex : index < b.length
  · have hstorage := storage_truncate h.fits hindex
    have hinside := h.inside
    have hlength := h.length_storage
    rw [LineBuffer.truncate, if_pos hindex] at hstorage ⊢
    refine ⟨?_, Nat.le_trans (Nat.le_of_lt hindex) hinside, ?_, ?_⟩
    · simpa using h.room
    · simpa [Fits] using Nat.le_trans (Nat.le_of_lt hindex) h.fits
    · rw [hstorage]
      exact List.getElem?_set_self (by omega)
  · rw [truncate_of_le (by omega)]
    exact h

theorem Shaped.truncateAt (h : b.Shaped) (index : Int) : (b.truncateAt index).Shaped := by
  obtain ⟨place, heq⟩ := b.exists_truncate_truncateAt index
  rw [heq]
  exact h.truncate place

theorem Shaped.stripNewline (h : b.Shaped) : b.stripNewline.Shaped := by
  obtain ⟨index, heq⟩ := b.exists_truncate_stripNewline
  rw [heq]
  exact h.truncate index

theorem Shaped.cutAt (h : b.Shaped) (byte : UInt8) : (b.cutAt byte).Shaped := by
  obtain ⟨index, heq⟩ := b.exists_truncate_cutAt byte
  rw [heq]
  exact h.truncate index

theorem Shaped.split (h : b.Shaped) : b.split.2.Shaped := by
  have hlength := length_content h.fits
  have hfits : b.length ≤ b.front.length := h.fits
  have hfront : b.split.2.front.length = b.front.length := by
    simp only [LineBuffer.split, List.length_append, length_blankSpaces, List.length_drop, hlength]
    omega
  have hended : (blankSpaces b.content ++ b.storage.drop b.length)[b.length]? = some nul := by
    have hspaces : (blankSpaces b.content).length = b.length :=
      (length_blankSpaces b.content).trans hlength
    rw [List.getElem?_append_right (Nat.le_of_eq hspaces), hspaces,
      Nat.sub_self, List.getElem?_drop, Nat.add_zero]
    exact h.ended
  refine ⟨?_, h.inside, ?_, ?_⟩
  · rw [hfront]
    exact h.room
  · rw [Fits, hfront]
    exact hfits
  · rw [storage_split h.fits]
    exact hended

theorem Shaped.tokenize {marker : CodePoint} {v : ArgumentVector} (h : b.Shaped)
    (htokenize : b.tokenize marker = .ok (v, c)) : c.Shaped := by
  obtain ⟨byte, heq⟩ := tokenize_eq_ok htokenize
  cases heq
  exact (h.cutAt byte).split

end LineBuffer

end LineShell
