import LineShell.Proofs.Line.Storage

/-!
# A buffer in use

A buffer is used for one line after another: lines are loaded, shortened, looked at and split, in any
order, and some of these uses are refused.  `InUse` keeps the buffer together with the vectors that were
made of its lines, and `InUse.after` is what a sequence of uses leaves.

Each use keeps the shape of the storage and lets no vector point outside it (`kept_step`), and the
generation goes up with each line that is accepted (`generation_step`).  The main result,
`representation_kept`, says so for every sequence of uses of a buffer that was new.
-/

namespace LineShell

namespace LineBuffer

/-- What can be done with a buffer. -/
inductive Use where
  | fill (chunk : Bytes)
  | stripNewline
  | find (byte : Int)
  | truncate (index : Int)
  | text
  | tokenize (marker : CodePoint)

/-- A line is accepted when it fits. -/
def Use.isAccepted (capacity : Nat) : Use → Bool
  | .fill chunk => chunk.length ≤ capacity
  | _ => false

/-- A buffer with the vectors that were made of its lines, in order. -/
structure InUse where
  buffer : LineBuffer
  vectors : List ArgumentVector

namespace InUse

/-- A new buffer. -/
def fresh (capacity : Nat) (size : Value) : InUse := ⟨blank capacity size, []⟩

/-- What is left when a line was to be loaded. -/
def loaded (s : InUse) : Except Failure (Nat × LineBuffer) → InUse
  | .ok (_, filled) => { s with buffer := filled }
  | .error _ => s

/-- What is left when a line was to be split. -/
def divided (s : InUse) : Except Failure (ArgumentVector × LineBuffer) → InUse
  | .ok (vector, split) => ⟨split, s.vectors ++ [vector]⟩
  | .error _ => s

/-- What a use leaves.  One that is refused changes nothing, and neither does one that only looks. -/
def step (s : InUse) : Use → InUse
  | .fill chunk => s.loaded (s.buffer.fill chunk)
  | .stripNewline => { s with buffer := s.buffer.stripNewline }
  | .find _ => s
  | .truncate index => { s with buffer := s.buffer.truncateAt index }
  | .text => s
  | .tokenize marker => s.divided (s.buffer.tokenize marker)

/-- What a sequence of uses leaves. -/
def after (s : InUse) (uses : List Use) : InUse := uses.foldl step s

end InUse

/-! ## One use -/

variable {b c : LineBuffer} {s : InUse} {chunk : Bytes} {capacity n : Nat}

/-- The failure for a line that does not fit. -/
def overflow (count : Nat) (size : Value) : Failure :=
  .badValue (("Line of " : Text) ++ Text.ofNat count ++ " bytes exceeds buffer capacity " ++
    size.render)

theorem fill_of_lt (h : b.capacity < chunk.length) :
    b.fill chunk = .error (overflow chunk.length b.size) := by
  rw [fill, if_pos h]
  rfl

theorem mem_spaceOffsets {line : Bytes} {start offset : Nat}
    (h : offset ∈ spaceOffsets start line) : start < offset ∧ offset ≤ start + line.length := by
  induction line generalizing start with
  | nil => simp [spaceOffsets] at h
  | cons byte rest ih =>
      simp only [spaceOffsets] at h
      simp only [List.length_cons]
      split at h
      · rcases List.mem_cons.mp h with rfl | hrest
        · omega
        · have := ih hrest
          omega
      · have := ih h
        omega

/-- The tokens of a line start inside it or right behind it. -/
theorem le_of_mem_offsets {marker : CodePoint} {v : ArgumentVector} (hshaped : b.Shaped)
    (h : b.tokenize marker = .ok (v, c)) {offset : Nat} (hoffset : offset ∈ v.offsets) :
    offset ≤ b.capacity := by
  obtain ⟨byte, heq⟩ := tokenize_eq_ok h
  have hcut := hshaped.cutAt byte
  have hinside : (b.cutAt byte).content.length ≤ b.capacity := by
    rw [length_content hcut.fits, ← (b.sameSize_cutAt byte).capacity]
    exact hcut.inside
  cases heq
  rcases List.mem_cons.mp hoffset with rfl | hspace
  · exact Nat.zero_le _
  · have := mem_spaceOffsets hspace
    omega

namespace InUse

/-- A buffer of a capacity in shape, and vectors that stay inside it. -/
structure Kept (capacity : Nat) (size : Value) (s : InUse) : Prop where
  sized : (blank capacity size).SameSize s.buffer
  shaped : s.buffer.Shaped
  vectors : ∀ v ∈ s.vectors, ∀ offset ∈ v.offsets, offset ≤ capacity

variable {size : Value}

theorem Kept.replace (h : s.Kept capacity size) (hsame : s.buffer.SameSize b) (hshaped : b.Shaped) :
    ({ s with buffer := b } : InUse).Kept capacity size :=
  ⟨h.sized.trans hsame, hshaped, h.vectors⟩

theorem kept_fresh (capacity : Nat) (size : Value) : (fresh capacity size).Kept capacity size :=
  ⟨.refl _, shaped_blank capacity size, nofun⟩

theorem kept_step (h : s.Kept capacity size) (use : Use) : (s.step use).Kept capacity size := by
  cases use with
  | fill chunk =>
      rw [step]
      cases hfill : s.buffer.fill chunk with
      | error e => exact h
      | ok loaded => exact h.replace (sameSize_fill hfill) (h.shaped.fill hfill)
  | stripNewline => exact h.replace (sameSize_stripNewline _) h.shaped.stripNewline
  | find byte => exact h
  | truncate index =>
      obtain ⟨place, heq⟩ := s.buffer.exists_truncate_truncateAt index
      rw [step, heq]
      exact h.replace (sameSize_truncate _ place) (h.shaped.truncate place)
  | text => exact h
  | tokenize marker =>
      rw [step]
      cases htokenize : s.buffer.tokenize marker with
      | error e => exact h
      | ok divided =>
          have hbuffer := h.replace (sameSize_tokenize htokenize) (h.shaped.tokenize htokenize)
          -- the vectors from before are untouched, and the new one starts inside the line
          refine ⟨hbuffer.sized, hbuffer.shaped, ?_⟩
          intro v hv offset hoffset
          rcases List.mem_append.mp hv with hold | hnew
          · exact h.vectors v hold offset hoffset
          · obtain rfl := List.mem_singleton.mp hnew
            have hle := le_of_mem_offsets h.shaped htokenize hoffset
            rwa [h.sized.capacity] at hle

/-- Only a line that is accepted begins a new generation. -/
theorem generation_step (s : InUse) (use : Use) :
    (s.step use).buffer.generation =
      s.buffer.generation + if use.isAccepted s.buffer.capacity then 1 else 0 := by
  cases use with
  | fill chunk =>
      by_cases hfit : chunk.length ≤ s.buffer.capacity
      · obtain ⟨filled, hfill⟩ := fill_of_le hfit
        obtain ⟨-, -, hfilled⟩ := fill_eq_ok hfill
        simp [step, hfill, loaded, hfilled, Use.isAccepted, hfit]
      · simp [step, fill_of_lt (Nat.lt_of_not_le hfit), loaded, Use.isAccepted, hfit]
  | stripNewline =>
      obtain ⟨index, heq⟩ := s.buffer.exists_truncate_stripNewline
      simp [step, heq, generation_truncate, Use.isAccepted]
  | find byte => rfl
  | truncate index =>
      obtain ⟨place, heq⟩ := s.buffer.exists_truncate_truncateAt index
      simp [step, heq, generation_truncate, Use.isAccepted]
  | text => rfl
  | tokenize marker =>
      rw [step]
      cases htokenize : s.buffer.tokenize marker with
      | error e => rfl
      | ok divided => exact generation_tokenize htokenize

/-! ## Any sequence of uses -/

theorem kept_after (h : s.Kept capacity size) (uses : List Use) :
    (s.after uses).Kept capacity size := by
  induction uses generalizing s with
  | nil => exact h
  | cons use rest ih => exact ih (kept_step h use)

theorem generation_after (h : s.Kept capacity size) (uses : List Use) :
    (s.after uses).buffer.generation =
      s.buffer.generation + uses.countP (Use.isAccepted capacity) := by
  induction uses generalizing s with
  | nil => rfl
  | cons use rest ih =>
      have hrest := ih (kept_step h use)
      have hcapacity : s.buffer.capacity = capacity := h.sized.capacity
      have hfirst := generation_step s use
      rw [hcapacity] at hfirst
      calc ((s.step use).after rest).buffer.generation
          = (s.step use).buffer.generation + rest.countP (Use.isAccepted capacity) := hrest
        _ = s.buffer.generation + (use :: rest).countP (Use.isAccepted capacity) := by
            rw [hfirst, List.countP_cons]
            omega

end InUse

/-- The representation of a line buffer.  Lines are accepted exactly when they fit, and a line that is
refused leaves everything as it was. -/
theorem representation_kept (capacity : Nat) (size : Value) (uses : List Use) :
    let s := (InUse.fresh capacity size).after uses
    s.buffer.storage.length = capacity + 1 ∧
      s.buffer.length ≤ capacity ∧
      s.buffer.storage[s.buffer.length]? = some nul ∧
      s.buffer.generation = uses.countP (Use.isAccepted capacity) ∧
      (∀ v ∈ s.vectors, ∀ offset ∈ v.offsets, offset ≤ capacity) ∧
      ∀ chunk,
        (chunk.length ≤ capacity → ∃ filled, s.buffer.fill chunk = .ok (chunk.length, filled)) ∧
        (capacity < chunk.length →
          s.buffer.fill chunk = .error (overflow chunk.length size) ∧ s.step (.fill chunk) = s) := by
  intro s
  have hkept : s.Kept capacity size := InUse.kept_after (InUse.kept_fresh capacity size) uses
  have hcapacity : s.buffer.capacity = capacity := hkept.sized.capacity
  have hgeneration := InUse.generation_after (InUse.kept_fresh capacity size) uses
  refine ⟨?_, ?_, hkept.shaped.ended, ?_, hkept.vectors, fun chunk => ⟨?_, ?_⟩⟩
  · rw [hkept.shaped.length_storage, hcapacity]
  · rw [← hcapacity]
    exact hkept.shaped.inside
  · rw [hgeneration]
    exact Nat.zero_add _
  · intro hfit
    exact fill_of_le (by rwa [hcapacity])
  · intro hlong
    have hrefused : s.buffer.fill chunk = .error (overflow chunk.length size) := by
      rw [fill_of_lt (by rwa [hcapacity]), hkept.sized.size]
      rfl
    exact ⟨hrefused, by rw [InUse.step, hrefused, InUse.loaded]⟩

end LineBuffer

end LineShell
