import LineShell.LineBuffer

/-!
# The tokens of a line

What a line comes to, as a function of its bytes alone: `Line.content` cuts it at the first NUL,
drops one newline from the end and cuts it at the first marker, and `Line.rawTokens` splits what is
left at every space.

The main result is `tokens_of_fill`: loading a line into a buffer, stripping its newline and
tokenizing it in place gives exactly these tokens, whatever the buffer held before.  It goes through
the content of the buffer step by step (`content_fill`, `content_stripNewline`, `content_cutAt`);
the last step, `tokens_split`, reads the tokens back from the storage in which the spaces were
overwritten.
-/

namespace LineShell

namespace Line

/-- Bytes without one newline at the end, if there is one. -/
def withoutNewline (bytes : Bytes) : Bytes :=
  if bytes.getLast? = some LineBuffer.newline then bytes.dropLast else bytes

/-- Bytes up to the first occurrence of a byte. -/
def before (byte : UInt8) (bytes : Bytes) : Bytes := bytes.takeWhile (· != byte)

/-- What is left of a line when its end and its comment are cut off. -/
def content (marker : UInt8) (line : Bytes) : Bytes :=
  before marker (withoutNewline (before LineBuffer.nul line))

/-- The tokens of a line as they are in the source: consecutive spaces make empty tokens. -/
def rawTokens (marker : UInt8) (line : Bytes) : List Bytes :=
  (content marker line).splitOn LineBuffer.space

/-- The tokens of a line as text. -/
def tokens (marker : UInt8) (line : Bytes) : List Text :=
  (rawTokens marker line).map Text.Utf8.decode

/-- An empty line has one token, which is empty. -/
theorem tokens_ne_nil (marker : UInt8) (line : Bytes) : tokens marker line ≠ [] := by
  unfold tokens rawTokens
  intro h
  exact List.splitOn_ne_nil _ _ (List.map_eq_nil_iff.mp h)

end Line

namespace LineBuffer

/-- A line is inside what was written. -/
def Fits (b : LineBuffer) : Prop := b.length ≤ b.front.length

/-! ## Content, step by step -/

theorem before_eq_take (byte : UInt8) (bytes : Bytes) :
    Line.before byte bytes = bytes.take (bytes.idxOf byte) := by
  rw [Line.before, List.takeWhile_eq_take_findIdx_not, List.idxOf]
  simp only [bne, Bool.not_not]

theorem content_fill {b c : LineBuffer} {chunk : Bytes} {n : Nat}
    (h : b.fill chunk = .ok (n, c)) : c.content = Line.before nul chunk ∧ c.Fits := by
  unfold fill at h
  split at h
  · cases h
  · cases h
    have hle : chunk.idxOf nul ≤ chunk.length := List.idxOf_le_length
    constructor
    · rw [content, List.take_append_of_le_length hle, before_eq_take]
    · simp only [Fits, List.length_append]
      omega

theorem length_content {b : LineBuffer} (h : b.Fits) : b.content.length = b.length := by
  rw [content, List.length_take, Nat.min_eq_left h]

theorem getLast?_content {b : LineBuffer} (h : b.Fits) (hne : b.length ≠ 0) :
    b.content.getLast? = b.front[b.length - 1]? := by
  rw [List.getLast?_eq_getElem?, length_content h, content, List.getElem?_take_of_lt (by omega)]

theorem content_stripNewline {b : LineBuffer} (h : b.Fits) :
    b.stripNewline.content = Line.withoutNewline b.content ∧ b.stripNewline.Fits := by
  unfold stripNewline Line.withoutNewline
  by_cases hne : b.length = 0
  · have hnil : b.content = [] := by simp [content, hne]
    simp [hne, hnil, h]
  · rw [getLast?_content h hne]
    by_cases hlast : b.front[b.length - 1]? = some newline
    · rw [if_pos ⟨hne, hlast⟩, if_pos hlast]
      constructor
      · rw [List.dropLast_eq_take, length_content h]
        simp [content, List.take_set_of_le, List.take_take]
      · simp only [Fits, List.length_set]
        exact Nat.le_trans (Nat.sub_le _ _) h
    · rw [if_neg fun hand => hlast hand.2, if_neg hlast]
      exact ⟨rfl, h⟩

theorem content_cutAt {b : LineBuffer} (h : b.Fits) (byte : UInt8) :
    (b.cutAt byte).content = Line.before byte b.content ∧ (b.cutAt byte).Fits := by
  unfold cutAt find?
  rw [before_eq_take, List.idxOf]
  cases hfind : b.content.findIdx? (· == byte) with
  | none =>
      rw [List.findIdx?_eq_none_iff_findIdx_eq] at hfind
      exact ⟨by rw [hfind, List.take_length], h⟩
  | some index =>
      rw [List.findIdx?_eq_some_iff_findIdx_eq, length_content h] at hfind
      obtain ⟨hlt, hindex⟩ := hfind
      simp only [truncate, if_pos hlt]
      constructor
      · rw [hindex, content, content, List.take_set_of_le (Nat.le_refl _), List.take_take,
          Nat.min_eq_left (Nat.le_of_lt hlt)]
      · simp only [Fits, List.length_set]
        exact Nat.le_trans (Nat.le_of_lt hlt) h

/-! ## Tokens read back from storage -/

/-- The bytes between the places where tokens start; the last one goes up to `stop`. -/
def slices (data : Bytes) (stop : Nat) : List Nat → List Bytes
  | [] => []
  | [start] => [(data.take stop).drop start]
  | start :: next :: rest => (data.take (next - 1)).drop start :: slices data stop (next :: rest)

theorem map_tokenBytes (b : LineBuffer) (generation : Nat) (offsets : List Nat) :
    (List.range offsets.length).map (ArgumentVector.tokenBytes ⟨offsets, generation⟩ b) =
      slices b.front b.length offsets := by
  induction offsets with
  | nil => rfl
  | cons start rest ih =>
      cases rest with
      | nil => rfl
      | cons next rest =>
          rw [List.length_cons, List.range_succ_eq_map, List.map_cons, List.map_map, slices, ← ih]
          rfl

/-- A vector of the current line has all its tokens. -/
theorem tokens_of_current {v : ArgumentVector} {b : LineBuffer} (h : b.generation = v.generation) :
    v.tokens b = .ok (((List.range v.count).map (v.tokenBytes b)).map Text.Utf8.decode) := by
  simp only [ArgumentVector.tokens, ArgumentVector.checkCurrent, if_pos h, List.map_map]
  rfl

theorem modifyHead_nil_append (tokens : List Bytes) :
    tokens.modifyHead (([] : Bytes) ++ ·) = tokens := by
  cases tokens <;> rfl

/-- Splitting in place.  `done` is what lies before the current token, and `current` is the part of
the token that was passed already. -/
theorem slices_spaceOffsets (line done current rest : Bytes) {place stop : Nat}
    (hplace : place = done.length + current.length) (hstop : stop = place + line.length) :
    slices (done ++ current ++ blankSpaces line ++ rest) stop
        (done.length :: spaceOffsets place line) =
      (line.splitOn space).modifyHead (current ++ ·) := by
  induction line generalizing done current place with
  | nil =>
      subst hplace hstop
      simp [slices, spaceOffsets, blankSpaces, List.take_append]
  | cons byte line ih =>
      rw [List.splitOn_cons_eq_if_modifyHead]
      rw [List.length_cons] at hstop
      by_cases hbyte : byte = space
      · -- a space ends the current token, and it is overwritten in the storage
        have hnext := @ih (done ++ current ++ [nul]) [] (place + 1) (by simp; omega) (by omega)
        have hstart : (done ++ current ++ [nul]).length = place + 1 := by simp; omega
        rw [hstart] at hnext
        subst hbyte hplace
        simp only [spaceOffsets, if_true, slices, blankSpaces, List.map_cons, beq_self_eq_true,
          List.modifyHead_cons, List.append_nil, Nat.add_sub_cancel]
        congr 1
        · simp [List.take_append]
        · rw [modifyHead_nil_append] at hnext
          simpa [blankSpaces] using hnext
      · -- any other byte belongs to the current token
        have hnext := @ih done (current ++ [byte]) (place + 1) (by simp; omega) (by omega)
        simpa [spaceOffsets, blankSpaces, hbyte, Function.comp_def] using hnext

/-- The tokens as they stand in the storage. -/
theorem rawTokens_split {b : LineBuffer} (h : b.Fits) :
    (List.range b.split.1.count).map (b.split.1.tokenBytes b.split.2) = b.content.splitOn space := by
  have hslices := slices_spaceOffsets b.content [] [] (b.front.drop b.length)
    (show 0 = ([] : Bytes).length + ([] : Bytes).length from rfl)
    (show b.length = 0 + b.content.length by rw [length_content h, Nat.zero_add])
  rw [modifyHead_nil_append] at hslices
  rw [← hslices]
  exact map_tokenBytes b.split.2 b.generation (0 :: spaceOffsets 0 b.content)

theorem tokens_split {b : LineBuffer} (h : b.Fits) :
    b.split.1.tokens b.split.2 = .ok ((b.content.splitOn space).map Text.Utf8.decode) := by
  rw [tokens_of_current rfl, rawTokens_split h]

/-! ## Loading, stripping and tokenizing -/

theorem byteOf_marker {marker : CodePoint} (h : marker.val < 256) :
    byteOf marker.val = .ok (UInt8.ofNat marker.val) := by
  have hbyte : 0 ≤ (marker.val : Int) ∧ (marker.val : Int) < 256 := by omega
  rw [byteOf, if_pos hbyte, Int.toNat_natCast]

theorem tokenize_of_lt (b : LineBuffer) {marker : CodePoint} (h : marker.val < 256) :
    b.tokenize marker = .ok (b.cutAt (UInt8.ofNat marker.val)).split := by
  rw [tokenize, byteOf_marker h]
  rfl

/-- No byte of a line is the code point of a marker that is no byte. -/
theorem tokenize_of_not_lt (b : LineBuffer) {marker : CodePoint} (h : ¬marker.val < 256) :
    b.tokenize marker = .error (.badValue "byte must be in range(0, 256)") := by
  have hbyte : ¬(0 ≤ (marker.val : Int) ∧ (marker.val : Int) < 256) := by omega
  rw [tokenize, byteOf, if_neg hbyte]
  rfl

theorem fill_of_le {b : LineBuffer} {chunk : Bytes} (h : chunk.length ≤ b.capacity) :
    ∃ c, b.fill chunk = .ok (chunk.length, c) := by
  rw [fill, if_neg (Nat.not_lt.mpr h)]
  exact ⟨_, rfl⟩

/-- A line that was loaded is tokenized to its tokens, whatever was in the buffer before. -/
theorem tokens_of_fill {b c : LineBuffer} {chunk : Bytes} {n : Nat} {marker : CodePoint}
    (hmarker : marker.val < 256) (hfill : b.fill chunk = .ok (n, c)) :
    ∃ v d, c.stripNewline.tokenize marker = .ok (v, d) ∧
      v.tokens d = .ok (Line.tokens (UInt8.ofNat marker.val) chunk) := by
  obtain ⟨hloaded, hfits⟩ := content_fill hfill
  obtain ⟨hstripped, hfits⟩ := content_stripNewline hfits
  obtain ⟨hcut, hfits⟩ := content_cutAt hfits (UInt8.ofNat marker.val)
  refine ⟨_, _, tokenize_of_lt c.stripNewline hmarker, ?_⟩
  have htokens := tokens_split hfits
  rwa [hcut, hstripped, hloaded] at htokens

end LineBuffer

end LineShell
