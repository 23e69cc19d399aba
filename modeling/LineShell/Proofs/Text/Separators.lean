import LineShell.Proofs.Text.RoundTrip

/-!
# Separators in ASCII

A byte in ASCII never takes part in a longer sequence, so bytes can be divided at it before or after they
are decoded: what stands in front of the byte decodes as it does alone, sequences that were cut short
included (`decode_append_ascii`).  Hence cutting at such a byte and splitting at it commute with decoding
(`decode_takeWhile`, `map_decode_splitOn`).

The pieces of a text make it up again (`intercalate_splitOn`), and those of a longer text begin with them only
where it goes on with a separator (`splitOn_prefix_iff`).
-/

namespace LineShell.Text

/-! ## Cutting and splitting -/

/-- Text up to the first occurrence of a code point. -/
def before (c : CodePoint) (t : Text) : Text := t.takeWhile (· != c)

theorem takeWhile_append_cons {α : Type} [BEq α] [LawfulBEq α] {a : α} {front : List α}
    (h : a ∉ front) (rest : List α) : (front ++ a :: rest).takeWhile (· != a) = front := by
  have hfront : ∀ x ∈ front, (x != a) = true := by
    intro x hx
    exact bne_iff_ne.mpr fun heq => h (heq ▸ hx)
  rw [List.takeWhile_append_of_pos hfront]
  simp

theorem takeWhile_of_not_mem {α : Type} [BEq α] [LawfulBEq α] {a : α} {all : List α}
    (h : a ∉ all) : all.takeWhile (· != a) = all := by
  have hall : ∀ x ∈ all, (x != a) = true := by
    intro x hx
    exact bne_iff_ne.mpr fun heq => h (heq ▸ hx)
  have hself : (all ++ []).takeWhile (· != a) = all ++ [].takeWhile (· != a) :=
    List.takeWhile_append_of_pos hall
  simpa using hself

theorem not_mem_takeWhile {α : Type} [BEq α] [LawfulBEq α] (a : α) (all : List α) :
    a ∉ all.takeWhile (· != a) := by
  intro hmem
  simpa using List.all_eq_true.mp (List.all_takeWhile (p := (· != a)) (l := all)) a hmem

theorem splitOn_append_cons {α : Type} [BEq α] [LawfulBEq α] {a : α} {front : List α}
    (h : a ∉ front) (rest : List α) :
    (front ++ a :: rest).splitOn a = front :: rest.splitOn a := by
  apply List.splitOnP_append_cons_of_forall_mem
  · intro x hx
    exact beq_eq_false_iff_ne.mpr fun heq => h (heq ▸ hx)
  · exact beq_self_eq_true a

/-- What stands between separators was there before, and is no separator. -/
theorem mem_of_mem_splitOn {α : Type} [BEq α] [LawfulBEq α] {a x : α} {all piece : List α}
    (hpiece : piece ∈ all.splitOn a) (hx : x ∈ piece) : x ∈ all ∧ x ≠ a := by
  induction all generalizing piece with
  | nil =>
      simp only [List.splitOn_nil, List.mem_singleton] at hpiece
      simp [hpiece] at hx
  | cons first rest ih =>
      rw [List.splitOn_cons_eq_if_modifyHead] at hpiece
      obtain ⟨head, tail, hsplit⟩ := List.exists_cons_of_ne_nil (List.splitOn_ne_nil a rest)
      rw [hsplit] at hpiece ih
      split at hpiece
      · -- a separator: an empty piece in front of those of the rest
        rcases List.mem_cons.mp hpiece with rfl | hrest
        · cases hx
        · have := ih hrest hx
          exact ⟨List.mem_cons_of_mem _ this.1, this.2⟩
      · -- anything else goes in front of the first piece of the rest
        rename_i hfirst
        rw [List.modifyHead_cons] at hpiece
        rcases List.mem_cons.mp hpiece with rfl | hrest
        · rcases List.mem_cons.mp hx with rfl | hhead
          · exact ⟨List.mem_cons_self, by simpa using hfirst⟩
          · have := ih List.mem_cons_self hhead
            exact ⟨List.mem_cons_of_mem _ this.1, this.2⟩
        · have := ih (List.mem_cons_of_mem _ hrest) hx
          exact ⟨List.mem_cons_of_mem _ this.1, this.2⟩

theorem splitOn_eq (c : CodePoint) (t : Text) : splitOn c t = List.splitOn c t := by
  induction t with
  | nil => rfl
  | cons first rest ih =>
      rw [List.splitOn_cons_eq_if_modifyHead, splitOn, ih]
      by_cases h : first = c
      · simp [h]
      · simp only [h, beq_iff_eq, if_false]
        cases hrest : List.splitOn c rest with
        | nil => exact absurd hrest (List.splitOn_ne_nil c rest)
        | cons piece pieces => rfl

theorem intercalate_cons_cons (separator piece second : Text) (rest : List Text) :
    intercalate separator (piece :: second :: rest) =
      piece ++ separator ++ intercalate separator (second :: rest) := rfl

theorem intercalate_eq (separator : Text) (pieces : List Text) :
    intercalate separator pieces = List.intercalate separator pieces := by
  induction pieces with
  | nil => rfl
  | cons piece rest ih =>
      cases rest with
      | nil => simp [intercalate]
      | cons second rest => rw [intercalate_cons_cons, ih, List.intercalate_cons_cons]

/-- Joining the pieces of a text gives it back. -/
theorem intercalate_splitOn (separator : CodePoint) (t : Text) :
    intercalate [separator] (splitOn separator t) = t := by
  rw [intercalate_eq, splitOn_eq, List.intercalate_splitOn]

theorem intercalate_append (separator : Text) {pieces more : List Text} (hpieces : pieces ≠ [])
    (hmore : more ≠ []) : intercalate separator (pieces ++ more) =
      intercalate separator pieces ++ (separator ++ intercalate separator more) := by
  induction pieces with
  | nil => exact absurd rfl hpieces
  | cons piece rest ih =>
      cases rest with
      | nil =>
          obtain ⟨second, others, rfl⟩ := List.exists_cons_of_ne_nil hmore
          simp [intercalate]
      | cons second rest =>
          have hrest := ih (List.cons_ne_nil second rest)
          rw [List.cons_append] at hrest
          rw [List.cons_append, List.cons_append, intercalate_cons_cons, intercalate_cons_cons, hrest]
          simp only [List.append_assoc]

/-- The pieces of a text up to a separator come before those of the text behind it. -/
theorem splitOn_append (separator : CodePoint) (front rest : Text) :
    splitOn separator (front ++ separator :: rest) =
      splitOn separator front ++ splitOn separator rest := by
  rw [splitOn_eq, splitOn_eq, splitOn_eq]
  exact List.splitOnP_append_cons front rest (beq_self_eq_true separator)

/-- The pieces of a text are the first ones of another exactly if that goes on with a separator behind the
text, or is the text itself. -/
theorem splitOn_prefix_iff {separator : CodePoint} {t longer : Text} :
    splitOn separator t <+: splitOn separator longer ↔
      longer = t ∨ ∃ rest, longer = t ++ separator :: rest := by
  constructor
  · rintro ⟨more, hmore⟩
    have hlonger : longer = intercalate [separator] (splitOn separator t ++ more) := by
      rw [hmore, intercalate_splitOn]
    by_cases hnone : more = []
    · rw [hnone, List.append_nil, intercalate_splitOn] at hlonger
      exact .inl hlonger
    · rw [intercalate_append _ (splitOn_ne_nil separator t) hnone, intercalate_splitOn] at hlonger
      exact .inr ⟨_, hlonger⟩
  · rintro (rfl | ⟨rest, rfl⟩)
    · exact List.prefix_rfl
    · rw [splitOn_append]
      exact List.prefix_append _ _

namespace Utf8

variable {c : CodePoint} {bytes : Bytes}

/-! ## Bytes in ASCII -/

theorem isContinuation_ascii (hc : c.val < 0x80) : isContinuation (UInt8.ofNat c.val) = false := by
  rw [Bool.eq_false_iff]
  intro hcontinuation
  have hleast := (isContinuation_iff.mp hcontinuation).1
  rw [toNat_ofNat_of_lt (by omega)] at hleast
  omega

/-- A byte in ASCII continues no sequence, and so none goes beyond it. -/
theorem sequence?_append_ascii (hc : c.val < 0x80) (a : UInt8) (front rest : Bytes) :
    sequence? (a :: (front ++ UInt8.ofNat c.val :: rest)) = sequence? (a :: front) := by
  have hends := isContinuation_ascii hc
  -- a sequence has three more bytes at most, so the front decides once it has as many
  rcases front with _ | ⟨b, _ | ⟨d, _ | ⟨e, front⟩⟩⟩
  · rcases rest with _ | ⟨x, _ | ⟨y, rest⟩⟩ <;> simp [sequence?, hends]
  · rcases rest with _ | ⟨x, rest⟩ <;> simp [sequence?, hends]
  · simp [sequence?, hends]
  · simp [sequence?]

/-- What stands in front of a byte in ASCII decodes as it does alone. -/
theorem decode_append_ascii (hc : c.val < 0x80) (front rest : Bytes) :
    decode (front ++ UInt8.ofNat c.val :: rest) = decode front ++ c :: decode rest := by
  -- a sequence takes several bytes of the front at once, so the induction is on how many there are
  induction hlength : front.length using Nat.strongRecOn generalizing front with
  | ind n ih =>
      cases front with
      | nil => exact (decode_cons_eq_iff hc).mpr ⟨rfl, rfl⟩
      | cons a front =>
          rw [List.length_cons] at hlength
          rw [List.cons_append, decode, decodeFrom, sequence?_append_ascii hc, decode, decodeFrom]
          cases hsequence : sequence? (a :: front) with
          | none => exact congrArg (escape a :: ·) (ih front.length (by omega) front rfl)
          | some found =>
              obtain ⟨d, length⟩ := found
              obtain ⟨first, behind, hfirst, hfront, rfl⟩ := exists_sequence hsequence
              have hall : front.length + 1 = first.length + behind.length := by
                rw [← List.length_append, ← hfront, List.length_cons]
              have hdrop : first.length - 1 ≤ front.length := by omega
              have hshorter : (front.drop (first.length - 1)).length < n := by
                rw [List.length_drop]
                omega
              have hrest := ih _ hshorter _ rfl
              simp only [decodeFrom_eq_drop, List.drop_append_of_le_length hdrop, hrest,
                List.cons_append]

/-- Only its own byte decodes to a code point in ASCII. -/
theorem mem_decode_iff (hc : c.val < 0x80) : c ∈ decode bytes ↔ UInt8.ofNat c.val ∈ bytes := by
  constructor
  · unfold decode
    generalize 0 = skip
    intro hmem
    induction bytes generalizing skip with
    | nil => cases skip <;> cases hmem
    | cons a rest ih =>
        cases skip with
        | succ skip => exact List.mem_cons_of_mem _ (ih skip hmem)
        | zero =>
            rw [decodeFrom] at hmem
            cases hsequence : sequence? (a :: rest) with
            | none =>
                rw [hsequence] at hmem
                rcases List.mem_cons.mp hmem with rfl | hrest
                · exact absurd hc (escape_not_ascii a)
                · exact List.mem_cons_of_mem _ (ih 0 hrest)
            | some found =>
                rw [hsequence] at hmem
                rcases List.mem_cons.mp hmem with rfl | hrest
                · rw [(sequence?_eq_ascii hsequence hc).1]
                  exact List.mem_cons_self
                · exact List.mem_cons_of_mem _ (ih _ hrest)
  · intro hmem
    obtain ⟨front, rest, rfl⟩ := List.append_of_mem hmem
    rw [decode_append_ascii hc]
    simp

/-- Bytes can be cut at a byte in ASCII before or after they are decoded. -/
theorem decode_takeWhile (hc : c.val < 0x80) (bytes : Bytes) :
    decode (bytes.takeWhile (· != UInt8.ofNat c.val)) = before c (decode bytes) := by
  unfold before
  by_cases hmem : UInt8.ofNat c.val ∈ bytes
  · obtain ⟨front, rest, rfl, hfront⟩ := List.eq_append_cons_of_mem hmem
    have htext : c ∉ decode front := fun h => hfront ((mem_decode_iff hc).mp h)
    rw [takeWhile_append_cons hfront, decode_append_ascii hc, takeWhile_append_cons htext]
  · have htext : c ∉ decode bytes := fun h => hmem ((mem_decode_iff hc).mp h)
    rw [takeWhile_of_not_mem hmem, takeWhile_of_not_mem htext]

/-- Bytes can be split at a byte in ASCII before or after they are decoded. -/
theorem map_decode_splitOn (hc : c.val < 0x80) (bytes : Bytes) :
    (bytes.splitOn (UInt8.ofNat c.val)).map decode = splitOn c (decode bytes) := by
  rw [splitOn_eq]
  -- one separator after the other, so the induction is on the bytes that are left
  induction hlength : bytes.length using Nat.strongRecOn generalizing bytes with
  | ind n ih =>
      by_cases hmem : UInt8.ofNat c.val ∈ bytes
      · obtain ⟨front, rest, rfl, hfront⟩ := List.eq_append_cons_of_mem hmem
        have htext : c ∉ decode front := fun h => hfront ((mem_decode_iff hc).mp h)
        have hshorter : rest.length < n := by
          rw [← hlength, List.length_append, List.length_cons]
          omega
        rw [splitOn_append_cons hfront, List.map_cons, ih _ hshorter rest rfl,
          decode_append_ascii hc, splitOn_append_cons htext]
      · have htext : c ∉ decode bytes := fun h => hmem ((mem_decode_iff hc).mp h)
        rw [List.splitOn_eq_singleton hmem, List.splitOn_eq_singleton htext]
        rfl

end Utf8

end LineShell.Text
