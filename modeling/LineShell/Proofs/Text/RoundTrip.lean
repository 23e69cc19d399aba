import LineShell.Proofs.Text.Utf8

/-!
# Bytes through text and back

Decoding loses nothing: a well-formed sequence is what its code point is encoded as
(`encodePoint?_of_sequence`), an escape is encoded as the byte that it carries, and so any bytes that
were decoded are encoded as they were (`encode?_decode`).  Joined texts are encoded as the joined bytes
(`encode?_append`), which is why text that was put together from decoded pieces comes out as their
bytes.

The other way round only text without surrogates comes back, whose encodings are the well-formed
sequences (`sequence_of_encodePoint?`): it is what its own bytes decode to (`decode_of_encode?`).
-/

namespace LineShell.Text.Utf8

/-! ## One code point -/

theorem val_of_scalar? {least n : Nat} {c : CodePoint} (h : scalar? least n = some c) : c.val = n := by
  unfold scalar? at h
  split at h
  · split at h
    · cases h
    · cases h
      rfl
  · cases h

/-- A byte is known by its number. -/
theorem ofNat_eq_of_toNat {n : Nat} {b : UInt8} (h : n = b.toNat) : UInt8.ofNat n = b := by
  rw [h, UInt8.ofNat_toNat]

theorem isContinuation_iff {b : UInt8} :
    isContinuation b = true ↔ 0x80 ≤ b.toNat ∧ b.toNat ≤ 0xBF := by
  rw [isContinuation, Bool.and_eq_true, decide_eq_true_eq, decide_eq_true_eq, UInt8.le_iff_toNat_le,
    UInt8.le_iff_toNat_le]
  rfl

theorem isEscape_of_not_isSurrogate {c : CodePoint} (h : isSurrogate c = false) :
    isEscape c = false := by
  simp only [isSurrogate, isEscape, Bool.and_eq_false_iff, decide_eq_false_iff_not] at h ⊢
  omega

/-- A well-formed sequence is what its code point is encoded as. -/
theorem encodePoint?_of_sequence {front : Bytes} {c : CodePoint} (h : Sequence front c) :
    encodePoint? c = some front := by
  unfold encodePoint?
  dsimp only
  cases h with
  | one ha hval =>
      have hsmall : c.val < 0x80 := by
        rw [hval]
        exact ha
      rw [if_pos hsmall, ofNat_eq_of_toNat hval]
  -- in each longer form the bounds on the bytes give back the bytes digit by digit
  | @two a b c ha hb hc =>
      have hval := val_of_scalar? hc
      have hleast := le_of_scalar?_eq hc
      have hb := isContinuation_iff.mp hb
      unfold low6 at hval
      have hfirst : UInt8.ofNat (0xC0 + c.val / 0x40) = a := ofNat_eq_of_toNat (by omega)
      have hsecond : UInt8.ofNat (0x80 + c.val % 0x40) = b := ofNat_eq_of_toNat (by omega)
      rw [if_neg (by omega), if_pos (by omega), hfirst, hsecond]
  | @three a b d c ha hb hd hc =>
      have hval := val_of_scalar? hc
      have hleast := le_of_scalar?_eq hc
      have hsurrogate := isSurrogate_of_scalar? hc
      have hb := isContinuation_iff.mp hb
      have hd := isContinuation_iff.mp hd
      unfold low6 at hval
      have hfirst : UInt8.ofNat (0xE0 + c.val / 0x1000) = a := ofNat_eq_of_toNat (by omega)
      have hsecond : UInt8.ofNat (0x80 + c.val / 0x40 % 0x40) = b := ofNat_eq_of_toNat (by omega)
      have hthird : UInt8.ofNat (0x80 + c.val % 0x40) = d := ofNat_eq_of_toNat (by omega)
      rw [if_neg (by omega), if_neg (by omega), isEscape_of_not_isSurrogate hsurrogate, hsurrogate,
        if_neg nofun, if_neg nofun, if_pos (by omega), hfirst, hsecond, hthird]
  | @four a b d e c ha hb hd he hc =>
      have hval := val_of_scalar? hc
      have hleast := le_of_scalar?_eq hc
      have hsurrogate := isSurrogate_of_scalar? hc
      have hb := isContinuation_iff.mp hb
      have hd := isContinuation_iff.mp hd
      have he := isContinuation_iff.mp he
      unfold low6 at hval
      have hfirst : UInt8.ofNat (0xF0 + c.val / 0x40000) = a := ofNat_eq_of_toNat (by omega)
      have hsecond : UInt8.ofNat (0x80 + c.val / 0x1000 % 0x40) = b := ofNat_eq_of_toNat (by omega)
      have hthird : UInt8.ofNat (0x80 + c.val / 0x40 % 0x40) = d := ofNat_eq_of_toNat (by omega)
      have hfourth : UInt8.ofNat (0x80 + c.val % 0x40) = e := ofNat_eq_of_toNat (by omega)
      rw [if_neg (by omega), if_neg (by omega), isEscape_of_not_isSurrogate hsurrogate, hsurrogate,
        if_neg nofun, if_neg nofun, if_neg (by omega), hfirst, hsecond, hthird, hfourth]

/-- An escape is encoded as the byte that it carries. -/
theorem encodePoint?_escape {a : UInt8} {rest : Bytes} (h : sequence? (a :: rest) = none) :
    encodePoint? (escape a) = some [a] := by
  have hescape := isEscape_escape h
  have hval : (escape a).val = 0xDC00 + a.toNat :=
    Nat.mod_eq_of_lt (by have := a.toNat_lt; omega)
  have hbyte : UInt8.ofNat ((escape a).val - 0xDC00) = a := ofNat_eq_of_toNat (by omega)
  unfold encodePoint?
  dsimp only
  rw [if_neg (by omega), if_neg (by omega), if_pos hescape, hbyte]

/-! ## Texts -/

theorem encode?_cons {c : CodePoint} {front rest : Bytes} {text : Text}
    (hc : encodePoint? c = some front) (htext : encode? text = some rest) :
    encode? (c :: text) = some (front ++ rest) := by
  rw [encode?, hc, htext]
  rfl

/-- Joined texts are encoded as the joined bytes, if both have bytes. -/
theorem encode?_append (a b : Text) :
    encode? (a ++ b) = (encode? a).bind fun front => (encode? b).map (front ++ ·) := by
  induction a with
  | nil =>
      show encode? b = (encode? b).map ([] ++ ·)
      cases encode? b <;> rfl
  | cons c text ih =>
      rw [List.cons_append, encode?, encode?, ih]
      cases encodePoint? c with
      | none => rfl
      | some first =>
          cases encode? text with
          | none => rfl
          | some more =>
              cases encode? b with
              | none => rfl
              | some rest => exact congrArg some (List.append_assoc first more rest).symm

/-- Where the text behind has bytes, the text in front decides. -/
theorem encode?_append_of_some (a : Text) {b : Text} {rest : Bytes} (hb : encode? b = some rest) :
    encode? (a ++ b) = (encode? a).map (· ++ rest) := by
  rw [encode?_append, hb]
  cases encode? a <;> rfl

theorem encode?_flatMap {α : Type} {parts : List α} {text : α → Text} {bytes : α → Bytes}
    (h : ∀ part ∈ parts, encode? (text part) = some (bytes part)) :
    encode? (parts.flatMap text) = some (parts.flatMap bytes) := by
  induction parts with
  | nil => rfl
  | cons part parts ih =>
      obtain ⟨hpart, hparts⟩ := List.forall_mem_cons.mp h
      rw [List.flatMap_cons, List.flatMap_cons, encode?_append_of_some _ (ih hparts), hpart]
      rfl

/-- The bytes owed to a sequence are passed over. -/
theorem decodeFrom_eq_drop (skip : Nat) (bytes : Bytes) :
    decodeFrom skip bytes = decode (bytes.drop skip) := by
  induction bytes generalizing skip with
  | nil => cases skip <;> rfl
  | cons a rest ih =>
      cases skip with
      | zero => rfl
      | succ skip => exact ih skip

/-- Any bytes that were decoded are encoded as they were. -/
theorem encode?_decode (bytes : Bytes) : encode? (decode bytes) = some bytes := by
  -- a sequence takes several bytes at once, so the induction is on how many there are
  induction hlength : bytes.length using Nat.strongRecOn generalizing bytes with
  | ind n ih =>
      cases bytes with
      | nil => rfl
      | cons a rest =>
          rw [List.length_cons] at hlength
          rw [decode, decodeFrom]
          cases hsequence : sequence? (a :: rest) with
          | none => exact encode?_cons (encodePoint?_escape hsequence) (ih _ (by omega) rest rfl)
          | some found =>
              obtain ⟨c, length⟩ := found
              obtain ⟨front, behind, hfront, hbytes, rfl⟩ := exists_sequence hsequence
              cases front with
              | nil => cases hfront
              | cons first more =>
                  obtain ⟨rfl, rfl⟩ := List.cons.inj hbytes
                  have hbehind : decodeFrom more.length (more ++ behind) = decode behind := by
                    rw [decodeFrom_eq_drop, List.drop_left]
                  have hshorter : behind.length < n := by
                    have hall : (more ++ behind).length + 1 = n := hlength
                    rw [List.length_append] at hall
                    omega
                  show encode? (c :: decodeFrom more.length (more ++ behind)) = _
                  rw [hbehind]
                  exact encode?_cons (encodePoint?_of_sequence hfront) (ih _ hshorter behind rfl)

/-- Bytes are known by the text they are decoded to. -/
theorem decode_inj {a b : Bytes} : decode a = decode b ↔ a = b := by
  refine ⟨fun h => ?_, congrArg decode⟩
  have hbytes := encode?_decode a
  rw [h, encode?_decode] at hbytes
  exact (Option.some.inj hbytes).symm

/-- Text in ASCII has a byte for each code point. -/
theorem encode?_ascii {text : Text} (h : ∀ c ∈ text, c.val < 0x80) :
    encode? text = some (text.map fun c => UInt8.ofNat c.val) := by
  rw [← encode?_decode (text.map _), (decode_eq_iff h).mpr rfl]

/-! ## Text through bytes and back -/

section Encoded

variable {c : CodePoint} {bytes front : Bytes} {text : Text}

theorem scalar?_val {least : Nat} (hleast : least ≤ c.val) (hc : isSurrogate c = false) :
    scalar? least c.val = some c := by
  have hstands : (decide (c.val < least) || isSurrogate c) = false := by
    rw [hc, Bool.or_false, decide_eq_false_iff_not]
    omega
  simp [scalar?, c.isLt, hstands]

theorem toNat_ofNat_of_lt {n : Nat} (h : n < 256) : (UInt8.ofNat n).toNat = n := by
  rw [UInt8.toNat_ofNat']
  exact Nat.mod_eq_of_lt h

/-- The continuation byte of a payload. -/
theorem continuation_ofNat (n : Nat) :
    isContinuation (UInt8.ofNat (0x80 + n % 0x40)) = true ∧
      low6 (UInt8.ofNat (0x80 + n % 0x40)) = n % 0x40 := by
  have hval : (UInt8.ofNat (0x80 + n % 0x40)).toNat = 0x80 + n % 0x40 :=
    toNat_ofNat_of_lt (by omega)
  constructor
  · rw [isContinuation_iff, hval]
    omega
  · rw [low6, hval]
    omega

/-- What a code point is encoded as is a well-formed sequence, unless it is a surrogate. -/
theorem sequence_of_encodePoint? (hc : isSurrogate c = false) (h : encodePoint? c = some front) :
    Sequence front c := by
  unfold encodePoint? at h
  dsimp only at h
  rw [isEscape_of_not_isSurrogate hc, hc] at h
  have hmost : c.val < 0x110000 := c.isLt
  -- the last byte of every longer form has the low six bits
  obtain ⟨hlast, hlow⟩ := continuation_ofNat c.val
  by_cases hone : c.val < 0x80
  · rw [if_pos hone] at h
    cases h
    have hval : (UInt8.ofNat c.val).toNat = c.val := toNat_ofNat_of_lt (by omega)
    refine .one ?_ hval.symm
    rw [UInt8.lt_iff_toNat_lt, hval]
    exact hone
  rw [if_neg hone] at h
  by_cases htwo : c.val < 0x800
  · rw [if_pos htwo] at h
    cases h
    have hval : (UInt8.ofNat (0xC0 + c.val / 0x40)).toNat = 0xC0 + c.val / 0x40 :=
      toNat_ofNat_of_lt (by omega)
    refine .two (by omega) hlast ?_
    rw [hval, hlow, show (0xC0 + c.val / 0x40) % 0x20 * 0x40 + c.val % 0x40 = c.val by omega]
    exact scalar?_val (by omega) hc
  rw [if_neg htwo, if_neg nofun, if_neg nofun] at h
  by_cases hthree : c.val < 0x10000
  · rw [if_pos hthree] at h
    cases h
    have hval : (UInt8.ofNat (0xE0 + c.val / 0x1000)).toNat = 0xE0 + c.val / 0x1000 :=
      toNat_ofNat_of_lt (by omega)
    obtain ⟨hsecond, hmiddle⟩ := continuation_ofNat (c.val / 0x40)
    refine .three (by omega) hsecond hlast ?_
    rw [hval, hmiddle, hlow, show ((0xE0 + c.val / 0x1000) % 0x10 * 0x40 + c.val / 0x40 % 0x40) * 0x40 +
      c.val % 0x40 = c.val by omega]
    exact scalar?_val (by omega) hc
  · rw [if_neg hthree] at h
    cases h
    have hval : (UInt8.ofNat (0xF0 + c.val / 0x40000)).toNat = 0xF0 + c.val / 0x40000 :=
      toNat_ofNat_of_lt (by omega)
    obtain ⟨hsecond, hhigh⟩ := continuation_ofNat (c.val / 0x1000)
    obtain ⟨hthird, hmiddle⟩ := continuation_ofNat (c.val / 0x40)
    refine .four (by omega) hsecond hthird hlast ?_
    rw [hval, hhigh, hmiddle, hlow, show (((0xF0 + c.val / 0x40000) % 0x08 * 0x40 +
      c.val / 0x1000 % 0x40) * 0x40 + c.val / 0x40 % 0x40) * 0x40 + c.val % 0x40 = c.val by omega]
    exact scalar?_val (by omega) hc

/-- A well-formed sequence is found at the front of any bytes that start with it. -/
theorem sequence?_of_sequence (h : Sequence front c) (rest : Bytes) :
    sequence? (front ++ rest) = some (c, front.length) := by
  have hlt : ∀ {a : UInt8} {n : UInt8}, a.toNat < n.toNat → a < n := fun h =>
    UInt8.lt_iff_toNat_lt.mpr h
  have hnot : ∀ {a : UInt8} {n : UInt8}, n.toNat ≤ a.toNat → ¬a < n := fun h hlt =>
    absurd (UInt8.lt_iff_toNat_lt.mp hlt) (Nat.not_lt.mpr h)
  -- the first byte decides which form is read
  cases h with
  | @one a c ha hval =>
      have hpoint : Fin.ofNat 0x110000 a.toNat = c := by
        rw [← hval]
        exact Fin.ext (Nat.mod_eq_of_lt c.isLt)
      calc sequence? (a :: rest) = some (Fin.ofNat 0x110000 a.toNat, 1) := if_pos ha
        _ = some (c, 1) := by rw [hpoint]
  | @two a b c ha hb hc =>
      have hone : ¬a < 0x80 := hnot (Nat.le_trans (by decide) ha.1)
      have hleast : ¬a < 0xC0 := hnot ha.1
      have htwo : a < 0xE0 := hlt ha.2
      simp [sequence?, hone, hleast, htwo, hb, hc]
  | @three a b d c ha hb hd hc =>
      have hone : ¬a < 0x80 := hnot (Nat.le_trans (by decide) ha.1)
      have hleast : ¬a < 0xC0 := hnot (Nat.le_trans (by decide) ha.1)
      have htwo : ¬a < 0xE0 := hnot ha.1
      have hthree : a < 0xF0 := hlt ha.2
      simp [sequence?, hone, hleast, htwo, hthree, hb, hd, hc]
  | @four a b d e c ha hb hd he hc =>
      have hone : ¬a < 0x80 := hnot (Nat.le_trans (by decide) ha.1)
      have hleast : ¬a < 0xC0 := hnot (Nat.le_trans (by decide) ha.1)
      have htwo : ¬a < 0xE0 := hnot (Nat.le_trans (by decide) ha.1)
      have hthree : ¬a < 0xF0 := hnot ha.1
      have hfour : a < 0xF8 := hlt ha.2
      simp [sequence?, hone, hleast, htwo, hthree, hfour, hb, hd, he, hc]

theorem decode_append_of_sequence (h : Sequence front c) (rest : Bytes) :
    decode (front ++ rest) = c :: decode rest := by
  have hsequence := sequence?_of_sequence h rest
  cases hfront : front with
  | nil => rw [hfront] at h; cases h
  | cons a more =>
      rw [hfront, List.cons_append] at hsequence
      rw [List.cons_append, decode, decodeFrom, hsequence]
      simp [decodeFrom_eq_drop]

/-- Text without surrogates is what its encoding decodes to. -/
theorem decode_of_encode? (htext : ∀ c ∈ text, isSurrogate c = false) (h : encode? text = some bytes) :
    decode bytes = text := by
  induction text generalizing bytes with
  | nil => cases h; rfl
  | cons c text ih =>
      obtain ⟨hc, hrest⟩ := List.forall_mem_cons.mp htext
      rw [encode?] at h
      obtain ⟨front, hfront, h⟩ := Option.bind_eq_some_iff.mp h
      obtain ⟨rest, hencoded, h⟩ := Option.bind_eq_some_iff.mp h
      cases h
      rw [decode_append_of_sequence (sequence_of_encodePoint? hc hfront), ih hrest hencoded]

end Encoded

end LineShell.Text.Utf8
