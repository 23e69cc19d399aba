import LineShell.Proofs.Line.History
import LineShell.Proofs.Text.Separators

/-!
# Tokens as words of the text

Tokens are decoded one by one, after their line was divided byte by byte.  For a marker in ASCII that is
no different from decoding the line first and dividing its text: the newline at the end, the marker and
the spaces are all bytes in ASCII, and so none of them lies inside a sequence or ends up in one
(`decode_withoutNewline`, `map_decode_line`).

`tokens_asText` says so for every line that fits, well-formed or not, after any sequence of uses of the
buffer.
-/

namespace LineShell

/-! ## The words of a text -/

namespace Text

/-- Text without one newline at the end, if there is one. -/
def withoutNewline (t : Text) : Text := if t.getLast? = some 0x0A then t.dropLast else t

/-- The words of a text in front of the first marker: consecutive spaces make empty words. -/
def words (marker : CodePoint) (t : Text) : List Text := splitOn 0x20 (before marker t)

open Utf8

/-- A newline at the end of the text is a newline at the end of the bytes. -/
theorem getLast?_decode_iff (bytes : Bytes) :
    (decode bytes).getLast? = some 0x0A ↔ bytes.getLast? = some LineBuffer.newline := by
  rw [List.getLast?_eq_some_iff, List.getLast?_eq_some_iff]
  constructor
  · rintro ⟨front, htext⟩
    have hbytes := encode?_decode bytes
    have hnewline : encode? [0x0A] = some [LineBuffer.newline] := by rfl
    rw [htext, encode?_append_of_some _ hnewline] at hbytes
    obtain ⟨start, -, hstart⟩ := Option.map_eq_some_iff.mp hbytes
    exact ⟨start, hstart.symm⟩
  · rintro ⟨start, rfl⟩
    exact ⟨decode start, decode_append_ascii (c := 0x0A) (by decide) start []⟩

/-- The newline at the end can be removed before or after the bytes are decoded. -/
theorem decode_withoutNewline (bytes : Bytes) :
    decode (Line.withoutNewline bytes) = withoutNewline (decode bytes) := by
  unfold Line.withoutNewline withoutNewline
  by_cases hends : bytes.getLast? = some LineBuffer.newline
  · rw [if_pos hends, if_pos ((getLast?_decode_iff bytes).mpr hends)]
    obtain ⟨start, rfl⟩ := List.getLast?_eq_some_iff.mp hends
    have htext : decode (start ++ [LineBuffer.newline]) = decode start ++ [0x0A] :=
      decode_append_ascii (c := 0x0A) (by decide) start []
    rw [htext, List.dropLast_concat, List.dropLast_concat]
  · rw [if_neg hends, if_neg fun h => hends ((getLast?_decode_iff bytes).mp h)]

/-- Bytes can be split at the spaces before or after they are decoded. -/
theorem map_decode_splitOn_space (bytes : Bytes) :
    (bytes.splitOn LineBuffer.space).map decode = splitOn 0x20 (decode bytes) :=
  map_decode_splitOn (c := 0x20) (by decide) bytes

/-- Bytes can be cut at the marker and split at the spaces before or after they are decoded. -/
theorem map_decode_line {marker : CodePoint} (hmarker : marker.val < 0x80) (bytes : Bytes) :
    ((Line.before (UInt8.ofNat marker.val) bytes).splitOn LineBuffer.space).map decode =
      words marker (decode bytes) := by
  calc ((Line.before (UInt8.ofNat marker.val) bytes).splitOn LineBuffer.space).map decode
      = splitOn 0x20 (decode (Line.before (UInt8.ofNat marker.val) bytes)) :=
        map_decode_splitOn_space _
    _ = words marker (decode bytes) := by rw [Line.before, decode_takeWhile hmarker, words]

end Text

namespace LineBuffer

variable {b : LineBuffer} {line : Bytes} {marker : CodePoint}

/-! ## Loaded lines -/

/-- Tokenizing the line gives these tokens. -/
def HasTokens (b : LineBuffer) (marker : CodePoint) (tokens : List Text) : Prop :=
  ∃ v split, b.tokenize marker = .ok (v, split) ∧ v.tokens split = .ok tokens

/-- A marker that is a byte cuts the line where the byte occurs first. -/
theorem hasTokens_of_lt (h : b.Fits) (hmarker : marker.val < 256) :
    b.HasTokens marker
      (((Line.before (UInt8.ofNat marker.val) b.content).splitOn space).map Text.Utf8.decode) := by
  obtain ⟨hcut, hfits⟩ := content_cutAt h (UInt8.ofNat marker.val)
  have htokens := tokens_split hfits
  rw [hcut] at htokens
  exact ⟨_, _, tokenize_of_lt b hmarker, htokens⟩

theorem hasTokens_asText (h : b.Fits) (hmarker : marker.val < 0x80) :
    b.HasTokens marker (Text.words marker (Text.Utf8.decode b.content)) := by
  rw [← Text.map_decode_line hmarker]
  exact hasTokens_of_lt h (by omega)

/-- After any uses a line that fits and has no NUL fills the buffer as it is. -/
theorem exists_filled (capacity : Nat) (size : Value) (uses : List Use) (hfit : line.length ≤ capacity)
    (hnul : nul ∉ line) :
    ∃ filled, ((InUse.fresh capacity size).after uses).buffer.fill line = .ok (line.length, filled) ∧
      filled.content = line ∧ filled.Fits := by
  have hcapacity : ((InUse.fresh capacity size).after uses).buffer.capacity = capacity :=
    (InUse.kept_after (InUse.kept_fresh capacity size) uses).sized.capacity
  obtain ⟨filled, hfill⟩ := fill_of_le (hcapacity.symm ▸ hfit)
  obtain ⟨hloaded, hfits⟩ := content_fill hfill
  rw [Line.before, Text.takeWhile_of_not_mem hnul] at hloaded
  exact ⟨filled, hfill, hloaded, hfits⟩

/-- The tokens of a line are the words of its text, with its newline or without. -/
theorem tokens_asText (capacity : Nat) (size : Value) (uses : List Use)
    (hfit : line.length ≤ capacity) (hnul : nul ∉ line) (hmarker : marker.val < 0x80) :
    let b := ((InUse.fresh capacity size).after uses).buffer
    ∃ filled, b.fill line = .ok (line.length, filled) ∧
      filled.HasTokens marker (Text.words marker (Text.Utf8.decode line)) ∧
      filled.stripNewline.HasTokens marker
        (Text.words marker (Text.withoutNewline (Text.Utf8.decode line))) := by
  obtain ⟨filled, hfill, hloaded, hfits⟩ := exists_filled capacity size uses hfit hnul
  refine ⟨filled, hfill, ?_, ?_⟩
  · have htokens := hasTokens_asText hfits hmarker
    rwa [hloaded] at htokens
  · obtain ⟨hstripped, hfits⟩ := content_stripNewline hfits
    have htokens := hasTokens_asText hfits hmarker
    rwa [hstripped, hloaded, Text.decode_withoutNewline] at htokens

/-- A line whose spaces, marker and newline each follow a sequence that was cut short. -/
def cutShort : Bytes := [0xC3, 0x20, 0xE2, 0x82, 0x20, 0xF0, 0x9F, 0x23, 0x80, 0x0A]

/-- Each byte of a sequence that was cut short is carried by the word it stands in. -/
theorem tokens_asText_of_cutShort :
    cutShort.length ≤ 16 ∧ nul ∉ cutShort ∧ (0x23 : CodePoint).val < 0x80 ∧
      ∃ filled, ((InUse.fresh 16 (.int 16)).after []).buffer.fill cutShort = .ok (10, filled) ∧
        filled.HasTokens 0x23 [[0xDCC3], [0xDCE2, 0xDC82], [0xDCF0, 0xDC9F]] ∧
        filled.stripNewline.HasTokens 0x23 [[0xDCC3], [0xDCE2, 0xDC82], [0xDCF0, 0xDC9F]] := by
  have hfit : cutShort.length ≤ 16 := by decide
  have hnul : nul ∉ cutShort := by decide
  have hmarker : (0x23 : CodePoint).val < 0x80 := by decide
  obtain ⟨filled, hfill, hwhole, hstripped⟩ := tokens_asText 16 (.int 16) [] hfit hnul hmarker
  exact ⟨hfit, hnul, hmarker, filled, hfill, hwhole, hstripped⟩

end LineBuffer

end LineShell
