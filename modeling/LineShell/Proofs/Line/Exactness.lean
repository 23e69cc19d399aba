import LineShell.Proofs.Line.History
import LineShell.Proofs.Text.Separators

/-!
# Tokenization is exact

Splitting works in place, on a storage that may hold what is left of longer lines, and the vector
remembers only where tokens start.  `Tokenized` says what a vector and its buffer have to come to for a
line: the tokens are the line split at every space, they are read from both ends by their places, and
the storage holds the line with its spaces overwritten.

`tokenize_exact` reaches that for every line that fits and every marker, after any sequence of uses of
the buffer.  The parts about places (`pairwise_offsets`, `length_spaceOffsets`) come first; the tokens
themselves are read back by `rawTokens_split`.
-/

namespace LineShell

/-! ## Lines -/

namespace Line

theorem not_mem_before (byte : UInt8) (bytes : Bytes) : byte ∉ before byte bytes :=
  Text.not_mem_takeWhile byte bytes

theorem mem_of_mem_before {byte other : UInt8} {bytes : Bytes} (h : other ∈ before byte bytes) :
    other ∈ bytes := List.takeWhile_sublist _ |>.subset h

theorem mem_of_mem_withoutNewline {byte : UInt8} {bytes : Bytes} (h : byte ∈ withoutNewline bytes) :
    byte ∈ bytes := by
  unfold withoutNewline at h
  split at h
  · exact (List.dropLast_sublist bytes).subset h
  · exact h

/-- What is left of a line holds neither the marker nor a NUL. -/
theorem ne_of_mem_content {marker byte : UInt8} {line : Bytes} (h : byte ∈ content marker line) :
    byte ≠ marker ∧ byte ≠ LineBuffer.nul := by
  have hbefore : byte ∈ before LineBuffer.nul line :=
    mem_of_mem_withoutNewline (mem_of_mem_before h)
  constructor
  · rintro rfl
    exact not_mem_before _ _ h
  · rintro rfl
    exact not_mem_before _ _ hbefore

end Line

namespace LineBuffer

/-! ## Places -/

theorem length_spaceOffsets (start : Nat) (line : Bytes) :
    (spaceOffsets start line).length = line.count space := by
  induction line generalizing start with
  | nil => rfl
  | cons byte rest ih =>
      rw [spaceOffsets, List.count_cons]
      by_cases hbyte : byte = space
      · simp [hbyte, ih]
      · simp [hbyte, ih]

theorem pairwise_spaceOffsets (start : Nat) (line : Bytes) :
    (spaceOffsets start line).Pairwise (· < ·) := by
  induction line generalizing start with
  | nil => exact List.Pairwise.nil
  | cons byte rest ih =>
      rw [spaceOffsets]
      split
      · exact List.pairwise_cons.mpr ⟨fun offset hmem => (mem_spaceOffsets hmem).1, ih _⟩
      · exact ih _

/-- The places of the tokens start at the front and increase. -/
theorem pairwise_offsets (line : Bytes) : (0 :: spaceOffsets 0 line).Pairwise (· < ·) :=
  List.pairwise_cons.mpr
    ⟨fun _ hmem => (mem_spaceOffsets hmem).1, pairwise_spaceOffsets 0 line⟩

/-! ## Tokens by their places -/

variable {b : LineBuffer} {v : ArgumentVector}

/-- The failure for a place where no token is. -/
def outside : Failure := .outOfRange "argument index out of range"

theorem get_of_lt (hcurrent : b.generation = v.generation) {place : Nat} (h : place < v.count) :
    v.get b place = .ok (Text.Utf8.decode (v.tokenBytes b place)) := by
  have hinside : 0 ≤ (place : Int) ∧ (place : Int) < v.count := by omega
  have hfront : ¬(place : Int) < 0 := by omega
  simp only [ArgumentVector.get, ArgumentVector.checkCurrent, if_pos hcurrent, if_neg hfront,
    if_pos hinside]
  rfl

/-- A place below zero counts from the end. -/
theorem get_sub_count {place : Nat} (h : place < v.count) :
    v.get b (place - v.count) = v.get b place := by
  have hback : ((place : Int) - v.count) < 0 := by omega
  have hfront : ¬(place : Int) < 0 := by omega
  simp only [ArgumentVector.get, if_pos hback, if_neg hfront, Int.sub_add_cancel]

theorem get_of_outside (hcurrent : b.generation = v.generation) {index : Int}
    (h : index < -v.count ∨ (v.count : Int) ≤ index) : v.get b index = .error outside := by
  have hplace : ¬(0 ≤ (if index < 0 then index + v.count else index) ∧
      (if index < 0 then index + v.count else index) < v.count) := by
    split <;> omega
  simp only [ArgumentVector.get, ArgumentVector.checkCurrent, if_pos hcurrent, if_neg hplace]
  rfl

/-! ## Exactness -/

/-- What a vector and the buffer it was made of come to for a line without its comment. -/
structure Tokenized (marker : UInt8) (line : Bytes) (v : ArgumentVector) (b : LineBuffer) : Prop where
  length : b.length = line.length
  count : v.count = 1 + line.count space
  first : v.offsets.head? = some 0
  increasing : v.offsets.Pairwise (· < ·)
  rawTokens : (List.range v.count).map (v.tokenBytes b) = line.splitOn space
  joined : [space].intercalate (line.splitOn space) = line
  plain : ∀ token ∈ line.splitOn space, space ∉ token ∧ nul ∉ token ∧ marker ∉ token
  stored : b.storage.take line.length = blankSpaces line
  ended : b.storage[line.length]? = some nul
  token : ∀ (place : Nat) (token : Bytes), (line.splitOn space)[place]? = some token →
    v.get b place = .ok (Text.Utf8.decode token) ∧
      v.get b (place - v.count) = .ok (Text.Utf8.decode token)
  outside : ∀ index : Int, index < -v.count ∨ (v.count : Int) ≤ index → v.get b index = .error outside

/-- Splitting a line that holds neither the marker nor a NUL. -/
theorem tokenized_split (h : b.Shaped) {marker : UInt8}
    (hplain : ∀ byte ∈ b.content, byte ≠ marker ∧ byte ≠ nul) :
    Tokenized marker b.content b.split.1 b.split.2 := by
  have hlength := length_content h.fits
  have htokens := rawTokens_split h.fits
  have hstorage := storage_split h.fits
  constructor
  · exact hlength.symm
  · change (0 :: spaceOffsets 0 b.content).length = _
    rw [List.length_cons, length_spaceOffsets, Nat.add_comm]
  · rfl
  · exact pairwise_offsets b.content
  · exact htokens
  · exact List.intercalate_splitOn space
  · intro token htoken
    refine ⟨fun hmem => ?_, fun hmem => ?_, fun hmem => ?_⟩
    · exact (Text.mem_of_mem_splitOn htoken hmem).2 rfl
    · exact (hplain _ (Text.mem_of_mem_splitOn htoken hmem).1).2 rfl
    · exact (hplain _ (Text.mem_of_mem_splitOn htoken hmem).1).1 rfl
  · rw [hstorage]
    exact List.take_left' (length_blankSpaces b.content)
  · rw [hlength]
    exact h.split.ended
  -- a place and the same place counted from the end are answered alike
  · intro place token htoken
    rw [← htokens, List.getElem?_map, Option.map_eq_some_iff] at htoken
    obtain ⟨index, hindex, rfl⟩ := htoken
    obtain ⟨hplace, hindex⟩ := List.getElem?_eq_some_iff.mp hindex
    rw [List.getElem_range] at hindex
    rw [List.length_range] at hplace
    subst hindex
    exact ⟨get_of_lt rfl hplace, (get_sub_count hplace).trans (get_of_lt rfl hplace)⟩
  · intro index houtside
    exact get_of_outside rfl houtside

/-- Loading a line, removing its newline and splitting it, after any uses of the buffer. -/
theorem tokenize_exact (capacity : Nat) (size : Value) (uses : List Use) {line : Bytes}
    (hfit : line.length ≤ capacity) {marker : CodePoint} (hmarker : marker.val < 256) :
    let b := ((InUse.fresh capacity size).after uses).buffer
    ∃ filled v split, b.fill line = .ok (line.length, filled) ∧
      filled.stripNewline.tokenize marker = .ok (v, split) ∧
      Tokenized (UInt8.ofNat marker.val) (Line.content (UInt8.ofNat marker.val) line) v split := by
  intro b
  have hkept := InUse.kept_after (InUse.kept_fresh capacity size) uses
  have hcapacity : b.capacity = capacity := hkept.sized.capacity
  obtain ⟨filled, hfill⟩ := fill_of_le (b := b) (by rwa [hcapacity])
  have hshaped := ((hkept.shaped.fill hfill).stripNewline).cutAt (UInt8.ofNat marker.val)
  obtain ⟨hloaded, hfits⟩ := content_fill hfill
  obtain ⟨hstripped, hfits⟩ := content_stripNewline hfits
  obtain ⟨hcut, -⟩ := content_cutAt hfits (UInt8.ofNat marker.val)
  rw [hstripped, hloaded] at hcut
  change _ = Line.content (UInt8.ofNat marker.val) line at hcut
  refine ⟨filled, _, _, hfill, tokenize_of_lt filled.stripNewline hmarker, ?_⟩
  rw [← hcut]
  apply tokenized_split hshaped
  intro byte hbyte
  rw [hcut] at hbyte
  exact Line.ne_of_mem_content hbyte

/-- A buffer of eight bytes that a full line was split in; another one was too long. -/
def reused : List Use :=
  [.fill [0x61, 0x20, 0x62, 0x20, 0x63, 0x20, 0x64, 0x0A], .stripNewline, .tokenize 0x23,
    .fill (List.replicate 9 0x65), .truncate 3]

/-- A line with two spaces in a row and a comment. -/
def commented : Bytes := [0x78, 0x20, 0x20, 0x79, 0x23, 0x7A, 0x0A]

/-- Nothing of the earlier lines shows, and the empty token between the spaces is one of three. -/
theorem tokenize_exact_of_reused :
    commented.length ≤ 8 ∧ (0x23 : CodePoint).val < 256 ∧
      ∃ filled v split,
        ((InUse.fresh 8 (.int 8)).after reused).buffer.fill commented = .ok (7, filled) ∧
        filled.stripNewline.tokenize 0x23 = .ok (v, split) ∧
        split.length = 4 ∧ split.storage.take 4 = [0x78, 0x00, 0x00, 0x79] ∧ v.count = 3 ∧
        v.get split 1 = .ok [] ∧ v.get split (-1) = .ok [0x79] ∧ v.get split 3 = .error outside := by
  have hfit : commented.length ≤ 8 := by decide
  have hmarker : (0x23 : CodePoint).val < 256 := by decide
  obtain ⟨filled, v, split, hfill, htokenize, hexact⟩ :=
    tokenize_exact 8 (.int 8) reused hfit hmarker
  have hcount : v.count = 3 := hexact.count
  have hmiddle := (hexact.token 1 [] rfl).1
  have hlast := (hexact.token 2 [0x79] rfl).2
  rw [hcount] at hlast
  refine ⟨hfit, hmarker, filled, v, split, hfill, htokenize, hexact.length, hexact.stored, hcount,
    hmiddle, hlast, hexact.outside 3 (.inr ?_)⟩
  rw [hcount]
  exact Int.le_refl 3

end LineBuffer

end LineShell
