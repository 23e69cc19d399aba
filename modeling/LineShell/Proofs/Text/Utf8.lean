import LineShell.Text.Utf8

/-!
# Decoding and encoding

Only a byte below `0x80` decodes to a code point below `0x80`: longer sequences start higher, and so do
the escapes.  Text in ASCII therefore comes from one sequence of bytes only, which is why a command
that is compared as text is compared byte for byte (`decode_eq_iff`).

Decoding never gives a code point without bytes, so text that was decoded can be encoded again
(`isEncodable_decode`).
-/

namespace LineShell.Text.Utf8

theorem le_of_scalar?_eq {least n : Nat} {c : CodePoint} (h : scalar? least n = some c) :
    least ≤ c.val := by
  unfold scalar? at h
  split at h
  · split at h
    · cases h
    · rename_i hscalar
      rw [Bool.not_eq_true, Bool.or_eq_false_iff, decide_eq_false_iff_not] at hscalar
      cases h
      exact Nat.le_of_not_lt hscalar.1
  · cases h

/-- The well-formed sequences, each with the code point that it stands for. -/
inductive Sequence : Bytes → CodePoint → Prop where
  | one {a : UInt8} {c : CodePoint} (ha : a < 0x80) (hc : c.val = a.toNat) : Sequence [a] c
  | two {a b : UInt8} {c : CodePoint} (ha : 0xC0 ≤ a.toNat ∧ a.toNat < 0xE0)
      (hb : isContinuation b = true) (hc : scalar? 0x80 (a.toNat % 0x20 * 0x40 + low6 b) = some c) :
      Sequence [a, b] c
  | three {a b d : UInt8} {c : CodePoint} (ha : 0xE0 ≤ a.toNat ∧ a.toNat < 0xF0)
      (hb : isContinuation b = true) (hd : isContinuation d = true)
      (hc : scalar? 0x800 ((a.toNat % 0x10 * 0x40 + low6 b) * 0x40 + low6 d) = some c) :
      Sequence [a, b, d] c
  | four {a b d e : UInt8} {c : CodePoint} (ha : 0xF0 ≤ a.toNat ∧ a.toNat < 0xF8)
      (hb : isContinuation b = true) (hd : isContinuation d = true) (he : isContinuation e = true)
      (hc : scalar? 0x10000 (((a.toNat % 0x08 * 0x40 + low6 b) * 0x40 + low6 d) * 0x40 + low6 e) =
        some c) :
      Sequence [a, b, d, e] c

/-- What is found at the front of some bytes is a well-formed sequence. -/
theorem exists_sequence {bytes : Bytes} {c : CodePoint} {length : Nat}
    (h : sequence? bytes = some (c, length)) :
    ∃ front rest, Sequence front c ∧ bytes = front ++ rest ∧ length = front.length := by
  -- in every longer form the code point has to be one that belongs there
  have hfound : ∀ {follows : Bool} {least n k : Nat},
      (if follows then (scalar? least n).map (·, k) else none) = some (c, length) →
      follows = true ∧ scalar? least n = some c ∧ length = k := by
    intro follows least n k hmap
    cases follows with
    | false => cases hmap
    | true =>
        obtain ⟨d, hd, heq⟩ := Option.map_eq_some_iff.mp hmap
        cases heq
        exact ⟨rfl, hd, rfl⟩
  cases bytes with
  | nil => cases h
  | cons a rest =>
      dsimp only [sequence?] at h
      by_cases hone : a < 0x80
      · rw [if_pos hone] at h
        cases h
        exact ⟨[a], rest, .one hone (Nat.mod_eq_of_lt (Nat.lt_trans a.toNat_lt (by decide))), rfl, rfl⟩
      rw [if_neg hone] at h
      by_cases hcontinuation : a < 0xC0
      · rw [if_pos hcontinuation] at h
        cases h
      rw [if_neg hcontinuation] at h
      have htwoLeast : 0xC0 ≤ a.toNat := Nat.le_of_not_lt hcontinuation
      by_cases htwo : a < 0xE0
      · rw [if_pos htwo] at h
        match rest, h with
        | b :: rest, h =>
            obtain ⟨hb, hc, rfl⟩ := hfound h
            exact ⟨[a, b], rest, .two ⟨htwoLeast, htwo⟩ hb hc, rfl, rfl⟩
      rw [if_neg htwo] at h
      have hthreeLeast : 0xE0 ≤ a.toNat := Nat.le_of_not_lt htwo
      by_cases hthree : a < 0xF0
      · rw [if_pos hthree] at h
        match rest, h with
        | b :: d :: rest, h =>
            obtain ⟨hfollow, hc, rfl⟩ := hfound h
            rw [Bool.and_eq_true] at hfollow
            exact ⟨[a, b, d], rest, .three ⟨hthreeLeast, hthree⟩ hfollow.1 hfollow.2 hc, rfl, rfl⟩
      rw [if_neg hthree] at h
      have hfourLeast : 0xF0 ≤ a.toNat := Nat.le_of_not_lt hthree
      by_cases hfour : a < 0xF8
      · rw [if_pos hfour] at h
        match rest, h with
        | b :: d :: e :: rest, h =>
            obtain ⟨hfollow, hc, rfl⟩ := hfound h
            rw [Bool.and_eq_true, Bool.and_eq_true] at hfollow
            exact ⟨[a, b, d, e], rest,
              .four ⟨hfourLeast, hfour⟩ hfollow.1.1 hfollow.1.2 hfollow.2 hc, rfl, rfl⟩
      rw [if_neg hfour] at h
      cases h

/-- A sequence for a code point in ASCII is a single byte. -/
theorem sequence?_eq_ascii {b : UInt8} {rest : Bytes} {c : CodePoint} {length : Nat}
    (h : sequence? (b :: rest) = some (c, length)) (hc : c.val < 0x80) :
    b = UInt8.ofNat c.val ∧ length = 1 := by
  obtain ⟨front, behind, hsequence, hbytes, rfl⟩ := exists_sequence h
  cases hsequence with
  | one ha hval =>
      obtain rfl := (List.cons.inj hbytes).1
      exact ⟨by rw [hval, UInt8.ofNat_toNat], rfl⟩
  | two ha hb hscalar => exact absurd (le_of_scalar?_eq hscalar) (by omega)
  | three ha hb hd hscalar => exact absurd (le_of_scalar?_eq hscalar) (by omega)
  | four ha hb hd he hscalar => exact absurd (le_of_scalar?_eq hscalar) (by omega)

theorem sequence?_ascii {c : CodePoint} (hc : c.val < 0x80) (rest : Bytes) :
    sequence? (UInt8.ofNat c.val :: rest) = some (c, 1) := by
  have hval : (UInt8.ofNat c.val).toNat = c.val := by
    rw [UInt8.toNat_ofNat']
    exact Nat.mod_eq_of_lt (by omega)
  have hsmall : UInt8.ofNat c.val < 0x80 := by
    rw [UInt8.lt_iff_toNat_lt, hval]
    exact hc
  dsimp only [sequence?]
  rw [if_pos hsmall, hval]
  congr 2
  exact Fin.ext (Nat.mod_eq_of_lt c.isLt)

theorem escape_not_ascii (b : UInt8) : ¬ (escape b).val < 0x80 := by
  have hval : (escape b).val = 0xDC00 + b.toNat :=
    Nat.mod_eq_of_lt (by have := b.toNat_lt; omega)
  omega

/-- A code point in ASCII comes from its own byte, and the rest of the text from the rest. -/
theorem decode_cons_eq_iff {b : UInt8} {rest : Bytes} {c : CodePoint} {text : Text} (hc : c.val < 0x80) :
    decode (b :: rest) = c :: text ↔ b = UInt8.ofNat c.val ∧ decode rest = text := by
  unfold decode
  constructor
  · intro heq
    rw [decodeFrom] at heq
    cases hsequence : sequence? (b :: rest) with
    | none =>
        -- a byte that starts no sequence is escaped, and the escape is no ASCII
        rw [hsequence] at heq
        cases heq
        exact absurd hc (escape_not_ascii b)
    | some found =>
        obtain ⟨d, length⟩ := found
        rw [hsequence] at heq
        obtain ⟨rfl, htext⟩ := List.cons.inj heq
        obtain ⟨hb, rfl⟩ := sequence?_eq_ascii hsequence hc
        exact ⟨hb, htext⟩
  · rintro ⟨rfl, rfl⟩
    rw [decodeFrom, sequence?_ascii hc]

theorem decode_eq_nil_iff {bytes : Bytes} : decode bytes = [] ↔ bytes = [] := by
  cases bytes with
  | nil => simp [decode, decodeFrom]
  | cons b rest =>
      rw [decode, decodeFrom]
      cases sequence? (b :: rest) <;> simp

/-- Text in ASCII comes from its own bytes only. -/
theorem decode_eq_iff {bytes : Bytes} {text : Text} (h : ∀ c ∈ text, c.val < 0x80) :
    decode bytes = text ↔ bytes = text.map fun c => UInt8.ofNat c.val := by
  induction text generalizing bytes with
  | nil => exact decode_eq_nil_iff
  | cons c text ih =>
      obtain ⟨hc, hrest⟩ := List.forall_mem_cons.mp h
      cases bytes with
      | nil => simp [decode, decodeFrom]
      | cons b rest => rw [decode_cons_eq_iff hc, ih hrest, List.map_cons, List.cons.injEq]

/-- Whether text starts with a code point in ASCII shows in the first byte. -/
theorem head?_decode_eq_iff {bytes : Bytes} {c : CodePoint} (hc : c.val < 0x80) :
    (decode bytes).head? = some c ↔ bytes.head? = some (UInt8.ofNat c.val) := by
  cases bytes with
  | nil => simp [decode, decodeFrom]
  | cons b rest =>
      calc (decode (b :: rest)).head? = some c
          ↔ ∃ text, decode (b :: rest) = c :: text := List.head?_eq_some_iff
        _ ↔ ∃ text, b = UInt8.ofNat c.val ∧ decode rest = text := by simp only [decode_cons_eq_iff hc]
        _ ↔ (b :: rest).head? = some (UInt8.ofNat c.val) := by simp

/-! ## Encoding -/

theorem exists_encodePoint? {c : CodePoint} (h : isEscape c = true ∨ isSurrogate c = false) :
    ∃ bytes, encodePoint? c = some bytes := by
  unfold encodePoint?
  dsimp only
  by_cases hone : c.val < 0x80
  · exact ⟨_, if_pos hone⟩
  by_cases htwo : c.val < 0x800
  · exact ⟨_, (if_neg hone).trans (if_pos htwo)⟩
  rw [if_neg hone, if_neg htwo]
  by_cases hescape : isEscape c = true
  · exact ⟨_, if_pos hescape⟩
  · rw [if_neg hescape, h.resolve_left hescape]
    by_cases hthree : c.val < 0x10000
    · exact ⟨_, if_pos hthree⟩
    · exact ⟨_, if_neg hthree⟩

theorem isEncodable_iff {text : Text} :
    isEncodable text = true ↔ ∀ c ∈ text, isEscape c = true ∨ isSurrogate c = false := by
  simp only [isEncodable, List.all_eq_true, Bool.or_eq_true, Bool.not_eq_true']

theorem exists_encode? {text : Text} (h : isEncodable text = true) :
    ∃ bytes, encode? text = some bytes := by
  induction text with
  | nil => exact ⟨[], rfl⟩
  | cons c rest ih =>
      obtain ⟨hc, hrest⟩ := List.forall_mem_cons.mp (isEncodable_iff.mp h)
      obtain ⟨bytes, hbytes⟩ := exists_encodePoint? hc
      obtain ⟨more, hmore⟩ := ih (isEncodable_iff.mpr hrest)
      refine ⟨bytes ++ more, ?_⟩
      unfold encode?
      rw [hbytes, hmore]
      rfl

theorem isEncodable_append {a b : Text} (ha : isEncodable a = true) (hb : isEncodable b = true) :
    isEncodable (a ++ b) = true :=
  isEncodable_iff.mpr (List.forall_mem_append.mpr ⟨isEncodable_iff.mp ha, isEncodable_iff.mp hb⟩)

theorem isSurrogate_of_ascii {c : CodePoint} (h : c.val < 0x80) : isSurrogate c = false := by
  unfold isSurrogate
  have hlow : ¬0xD800 ≤ c.val := by omega
  rw [decide_eq_false hlow, Bool.false_and]

theorem isEncodable_of_ascii {text : Text} (h : text.all (·.val < 0x80) = true) :
    isEncodable text = true := by
  refine isEncodable_iff.mpr fun c hc => .inr (isSurrogate_of_ascii ?_)
  exact of_decide_eq_true (List.all_eq_true.mp h c hc)

theorem isSurrogate_of_scalar? {least n : Nat} {c : CodePoint} (h : scalar? least n = some c) :
    isSurrogate c = false := by
  unfold scalar? at h
  split at h
  · split at h
    · cases h
    · rename_i hscalar
      rw [Bool.not_eq_true, Bool.or_eq_false_iff] at hscalar
      cases h
      exact hscalar.2
  · cases h

/-- A well-formed sequence never stands for a surrogate. -/
theorem isSurrogate_of_sequence? {bytes : Bytes} {c : CodePoint} {length : Nat}
    (h : sequence? bytes = some (c, length)) : isSurrogate c = false := by
  obtain ⟨front, behind, hsequence, -⟩ := exists_sequence h
  cases hsequence with
  | one ha hval =>
      refine isSurrogate_of_ascii ?_
      rw [hval]
      exact ha
  | two ha hb hscalar => exact isSurrogate_of_scalar? hscalar
  | three ha hb hd hscalar => exact isSurrogate_of_scalar? hscalar
  | four ha hb hd he hscalar => exact isSurrogate_of_scalar? hscalar

/-- Only a byte that is no ASCII is escaped, and the escape carries it. -/
theorem isEscape_escape {a : UInt8} {rest : Bytes} (h : sequence? (a :: rest) = none) :
    isEscape (escape a) = true := by
  have hlarge : ¬a < 0x80 := by
    intro hsmall
    dsimp only [sequence?] at h
    rw [if_pos hsmall] at h
    cases h
  have hval : (escape a).val = 0xDC00 + a.toNat :=
    Nat.mod_eq_of_lt (by have := a.toNat_lt; omega)
  have hleast : 0x80 ≤ a.toNat := Nat.le_of_not_lt hlarge
  have hmost : a.toNat < 256 := a.toNat_lt
  unfold isEscape
  rw [hval, Bool.and_eq_true, decide_eq_true_eq, decide_eq_true_eq]
  omega

/-- Text that was decoded can be encoded again. -/
theorem isEncodable_decode (bytes : Bytes) : isEncodable (decode bytes) = true := by
  refine isEncodable_iff.mpr ?_
  unfold decode
  generalize 0 = skip
  induction bytes generalizing skip with
  | nil => cases skip <;> exact nofun
  | cons a rest ih =>
      cases skip with
      | succ skip => exact ih skip
      | zero =>
          rw [decodeFrom]
          cases hsequence : sequence? (a :: rest) with
          | none => exact List.forall_mem_cons.mpr ⟨.inl (isEscape_escape hsequence), ih 0⟩
          | some found =>
              exact List.forall_mem_cons.mpr ⟨.inr (isSurrogate_of_sequence? hsequence), ih _⟩

end LineShell.Text.Utf8
