import LineShell.Proofs.Line.AsText

/-!
# What a comment marker finds

A marker is a character, but a line is searched for the one byte that has the marker's number.  In ASCII
that byte is what the marker is encoded as and nothing else uses it, so a line is cut where its text has
the marker.  Beyond ASCII a character is encoded as several bytes: the byte with the marker's number may
belong to other characters, and it starts the marker's own encoding only in the case of `0xC3`
(`head_encodePoint?_of_byte`).  No byte has a number above `0xFF`.

`tokens_byMarker` says for every text and every marker what the encoded text is tokenized to, and for the
markers from `0x80` to `0xFF` exactly when that is the text cut at the marker.
-/

namespace LineShell

namespace Text

variable {marker : CodePoint} {text : Text} {line : Bytes}

/-! ## Cut where a text is cut -/

/-- What stands in front is left exactly when it does not hold what is cut at, and what follows starts
with it. -/
theorem takeWhile_append_eq_left_iff {α : Type} [BEq α] [LawfulBEq α] {a : α} {front back : List α} :
    (front ++ back).takeWhile (· != a) = front ↔ a ∉ front ∧ ∀ first ∈ back.head?, first = a := by
  by_cases hmem : a ∈ front
  · have hother : (front ++ back).takeWhile (· != a) ≠ front := by
      intro heq
      rw [← heq] at hmem
      exact not_mem_takeWhile a _ hmem
    exact iff_of_false hother fun h => h.1 hmem
  · have hfront : ∀ x ∈ front, (x != a) = true := by
      intro x hx
      exact bne_iff_ne.mpr fun heq => hmem (heq ▸ hx)
    rw [List.takeWhile_append_of_pos hfront, List.append_right_eq_self]
    cases back with
    | nil => simp [hmem]
    | cons first rest => simp [hmem, List.takeWhile_cons]

theorem before_of_not_mem (h : marker ∉ text) : before marker text = text := takeWhile_of_not_mem h

/-- Texts that are split into the same pieces are the same. -/
theorem splitOn_inj {separator : CodePoint} {a b : Text}
    (h : splitOn separator a = splitOn separator b) : a = b := by
  rw [splitOn_eq, splitOn_eq] at h
  calc a = [separator].intercalate (List.splitOn separator a) :=
        (List.intercalate_splitOn separator).symm
    _ = b := by rw [h, List.intercalate_splitOn]

namespace Utf8

/-! ## The bytes of a character -/

/-- A byte takes part in what a character is encoded as. -/
def Uses (c : CodePoint) (byte : UInt8) : Prop := ∃ own, encodePoint? c = some own ∧ byte ∈ own

/-- The bytes of a text are those its characters use. -/
theorem mem_iff_of_encode? {byte : UInt8} (h : encode? text = some line) :
    byte ∈ line ↔ ∃ c ∈ text, Uses c byte := by
  induction text generalizing line with
  | nil => cases h; simp
  | cons c text ih =>
      rw [encode?] at h
      obtain ⟨own, hown, h⟩ := Option.bind_eq_some_iff.mp h
      obtain ⟨rest, hrest, h⟩ := Option.bind_eq_some_iff.mp h
      cases h
      have hfirst : Uses c byte ↔ byte ∈ own := by simp [Uses, hown]
      simp only [List.mem_append, ih hrest, List.mem_cons, exists_eq_or_imp, hfirst]

/-- A character between `0x80` and `0xFF` is encoded as two bytes. -/
theorem encodePoint?_of_byte (hleast : 0x80 ≤ marker.val) (hmost : marker.val < 0x100) :
    encodePoint? marker =
      some [UInt8.ofNat (0xC0 + marker.val / 0x40), UInt8.ofNat (0x80 + marker.val % 0x40)] := by
  unfold encodePoint?
  dsimp only
  rw [if_neg (by omega), if_pos (by omega)]

/-- Only `0xC3` starts with the byte of its own number. -/
theorem head_encodePoint?_of_byte (hleast : 0x80 ≤ marker.val) (hmost : marker.val < 0x100) :
    UInt8.ofNat (0xC0 + marker.val / 0x40) = UInt8.ofNat marker.val ↔ marker = 0xC3 := by
  have hlead : (UInt8.ofNat (0xC0 + marker.val / 0x40)).toNat = 0xC0 + marker.val / 0x40 :=
    toNat_ofNat_of_lt (by omega)
  have hbyte : (UInt8.ofNat marker.val).toNat = marker.val := toNat_ofNat_of_lt hmost
  have hpoint : marker = 0xC3 ↔ marker.val = 0xC3 := Fin.ext_iff
  rw [← UInt8.toNat_inj, hlead, hbyte, hpoint]
  omega

/-- Bytes decode to a text without surrogates only if they are what it is encoded as. -/
theorem decode_eq_iff_of_encode? (htext : ∀ c ∈ text, isSurrogate c = false)
    (hline : encode? text = some line) {bytes : Bytes} : decode bytes = text ↔ bytes = line := by
  constructor
  · rintro rfl
    rw [encode?_decode] at hline
    exact Option.some.inj hline
  · rintro rfl
    exact decode_of_encode? htext hline

theorem exists_of_encode?_append {a b : Text} (h : encode? (a ++ b) = some line) :
    ∃ front back, encode? a = some front ∧ encode? b = some back ∧ line = front ++ back := by
  rw [encode?_append] at h
  obtain ⟨front, hfront, h⟩ := Option.bind_eq_some_iff.mp h
  obtain ⟨back, hback, rfl⟩ := Option.map_eq_some_iff.mp h
  exact ⟨front, back, hfront, hback, rfl⟩

/-- A text is cut at the marker, and what it is encoded as follows behind. -/
theorem exists_before (marker : CodePoint) (text : Text) :
    ∃ rest, text = before marker text ++ rest ∧
      (marker ∈ text ↔ ∃ more, rest = marker :: more) ∧ (marker ∉ text ↔ rest = []) := by
  by_cases hmem : marker ∈ text
  · obtain ⟨front, more, rfl, hfront⟩ := List.eq_append_cons_of_mem hmem
    refine ⟨marker :: more, ?_, ?_, ?_⟩
    · rw [before, takeWhile_append_cons hfront]
    · simp
    · simp
  · exact ⟨[], by rw [before_of_not_mem hmem, List.append_nil], by simp [hmem], by simp [hmem]⟩

/-- The byte with the number of a marker beyond ASCII cuts a line where its text has the marker, if no
character in front uses the byte and the marker itself starts with it. -/
theorem decode_before_eq_iff (htext : ∀ c ∈ text, isSurrogate c = false)
    (hline : encode? text = some line) (hleast : 0x80 ≤ marker.val) (hmost : marker.val < 0x100) :
    decode (Line.before (UInt8.ofNat marker.val) line) = before marker text ↔
      (∀ c ∈ before marker text, ¬Uses c (UInt8.ofNat marker.val)) ∧
        (marker ∈ text → marker = 0xC3) := by
  obtain ⟨rest, hsplit, hmem, hnot⟩ := exists_before marker text
  have hbefore : ∀ c ∈ before marker text, isSurrogate c = false := by
    intro c hc
    exact htext c ((List.takeWhile_sublist _).subset hc)
  rw [hsplit] at hline
  obtain ⟨front, back, hfront, hback, rfl⟩ := exists_of_encode?_append hline
  rw [decode_eq_iff_of_encode? hbefore hfront, Line.before, takeWhile_append_eq_left_iff,
    mem_iff_of_encode? hfront]
  apply and_congr
  · simp
  -- only where the byte begins its own encoding does cutting at it cut at the character
  · by_cases hmarker : marker ∈ text
    · obtain ⟨more, rfl⟩ := hmem.mp hmarker
      obtain ⟨own, behind, hown, -, rfl⟩ := exists_of_encode?_append (a := [marker]) hback
      have hpoint := encodePoint?_of_byte hleast hmost
      have hfirst := head_encodePoint?_of_byte hleast hmost
      simp only [encode?, hpoint] at hown
      cases hown
      rw [← hfirst]
      simp only [hmarker, forall_const]
      exact ⟨fun h => h _ rfl, fun h _ hhead => Option.some.inj hhead ▸ h⟩
    · obtain rfl := hnot.mp hmarker
      cases hback
      simp [hmarker]

end Utf8

end Text

namespace LineBuffer

open Text Text.Utf8

variable {b : LineBuffer} {text : Text} {line : Bytes}

/-! ## Encoded texts -/

/-- A line is tokenized in one way. -/
theorem HasTokens.unique {marker : CodePoint} {tokens others : List Text} (h : b.HasTokens marker tokens)
    (h' : b.HasTokens marker others) : tokens = others := by
  obtain ⟨v, split, htokenize, htokens⟩ := h
  obtain ⟨v', split', htokenize', htokens'⟩ := h'
  rw [htokenize] at htokenize'
  cases htokenize'
  exact Except.ok.inj (htokens.symm.trans htokens')

/-- A line without a newline is left as it is. -/
theorem stripNewline_of_not_mem (h : b.Fits) (hnewline : newline ∉ b.content) : b.stripNewline = b := by
  unfold stripNewline
  apply if_neg
  rintro ⟨hne, hlast⟩
  rw [← getLast?_content h hne] at hlast
  exact hnewline (List.mem_of_getLast? hlast)

/-- What the encoding of a text without NUL and newline is tokenized to.  A marker in ASCII cuts it as
it should; one beyond that is looked for as a byte of the same number, or refused. -/
theorem tokens_byMarker (capacity : Nat) (size : Value) (uses : List Use) (marker : CodePoint)
    (hplain : ∀ c ∈ text, isSurrogate c = false ∧ c ≠ 0 ∧ c ≠ 0x0A)
    (hline : encode? text = some line) (hfit : line.length ≤ capacity) :
    let b := ((InUse.fresh capacity size).after uses).buffer
    let byte := UInt8.ofNat marker.val
    ∃ filled, b.fill line = .ok (line.length, filled) ∧ filled.stripNewline = filled ∧
      (marker.val < 0x80 → filled.HasTokens marker (words marker text)) ∧
      (0x80 ≤ marker.val → marker.val < 0x100 →
        filled.HasTokens marker (splitOn 0x20 (decode (Line.before byte line))) ∧
        (filled.HasTokens marker (words marker text) ↔
          (∀ c ∈ before marker text, ¬Uses c byte) ∧ (marker ∈ text → marker = 0xC3))) ∧
      (0x100 ≤ marker.val →
        filled.tokenize marker = .error (.badValue "byte must be in range(0, 256)")) ∧
      (marker ∉ text → words marker text = splitOn 0x20 text) := by
  intro b byte
  have htext : ∀ c ∈ text, isSurrogate c = false := fun c hc => (hplain c hc).1
  have hdecoded := decode_of_encode? htext hline
  have hnul : nul ∉ line := by
    intro hmem
    exact (hplain 0 (hdecoded ▸ (mem_decode_iff (c := 0) (by decide)).mpr hmem)).2.1 rfl
  have hnewline : newline ∉ line := by
    intro hmem
    exact (hplain 0x0A (hdecoded ▸ (mem_decode_iff (c := 0x0A) (by decide)).mpr hmem)).2.2 rfl
  obtain ⟨filled, hfill, hloaded, hfits⟩ := exists_filled capacity size uses hfit hnul
  refine ⟨filled, hfill, ?_, ?_, ?_, ?_, ?_⟩
  · exact stripNewline_of_not_mem hfits (by rwa [hloaded])
  · intro hascii
    have htokens := hasTokens_asText hfits hascii
    rwa [hloaded, hdecoded] at htokens
  · intro hleast hmost
    have htokens := hasTokens_of_lt hfits hmost
    rw [hloaded, map_decode_splitOn_space] at htokens
    refine ⟨htokens, ?_⟩
    -- the pieces tell what was cut off, so they are the words exactly when the cut is right
    rw [← decode_before_eq_iff htext hline hleast hmost]
    constructor
    · intro hwords
      exact splitOn_inj (htokens.unique hwords)
    · intro hcut
      rwa [hcut] at htokens
  · intro hbeyond
    exact tokenize_of_not_lt filled (by omega)
  · intro hnone
    rw [words, before_of_not_mem hnone]

/-- A line with a character whose first byte is `0xE9`. -/
def fragrant : Text := [0x63, 0x64, 0x20, 0x9999]

/-- The marker `0xE9` does not occur in the text, and yet it cuts the line. -/
theorem tokens_byMarker_of_fragrant :
    (∀ c ∈ fragrant, isSurrogate c = false ∧ c ≠ 0 ∧ c ≠ 0x0A) ∧
      encode? fragrant = some [0x63, 0x64, 0x20, 0xE9, 0xA6, 0x99] ∧
      ∃ filled,
        ((InUse.fresh 16 (.int 16)).after []).buffer.fill [0x63, 0x64, 0x20, 0xE9, 0xA6, 0x99] =
          .ok (6, filled) ∧
        filled.HasTokens 0xE9 [[0x63, 0x64], []] ∧
        (0xE9 : CodePoint) ∉ fragrant ∧ ¬filled.HasTokens 0xE9 [[0x63, 0x64], [0x9999]] := by
  have hplain : ∀ c ∈ fragrant, isSurrogate c = false ∧ c ≠ 0 ∧ c ≠ 0x0A := by
    simp only [fragrant, List.forall_mem_cons]
    exact ⟨by decide, by decide, by decide, by decide, nofun⟩
  have hline : encode? fragrant = some [0x63, 0x64, 0x20, 0xE9, 0xA6, 0x99] := by rfl
  have hnone : (0xE9 : CodePoint) ∉ fragrant := by decide
  obtain ⟨filled, hfill, -, -, hbyte, -, -⟩ :=
    tokens_byMarker 16 (.int 16) [] 0xE9 hplain hline (by decide)
  obtain ⟨htokens, hexact⟩ := hbyte (by decide) (by decide)
  refine ⟨hplain, hline, filled, hfill, htokens, hnone, fun hwords => ?_⟩
  have hunused := (hexact.mp hwords).1 0x9999 (by decide)
  exact hunused ⟨[0xE9, 0xA6, 0x99], by decide, by decide⟩

end LineBuffer

end LineShell
