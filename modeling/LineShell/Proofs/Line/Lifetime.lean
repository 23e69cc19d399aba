import LineShell.Proofs.Line.Exactness

/-!
# How long a vector is good for

A vector remembers only where tokens start, and reads them from a buffer that goes on being used.  It is
protected by the generation it was made in: `Current` is a vector whose line is still there, and then every
token can be read, however much the line was shortened meanwhile (`readable_of_current`); otherwise each way to
read a token is refused before its place is looked at (`refused_of_replaced`).

Of all uses of a buffer only a line that is accepted begins a new generation, so a vector is refused exactly
when one was accepted since the vector was made (`refused_of_refilled`).  The vectors that were made stay as
they are (`InUse.vectors_prefix_after`).
-/

namespace LineShell

namespace ArgumentVector

variable {v : ArgumentVector} {b : LineBuffer}

/-- The failure of a vector whose line was replaced. -/
def replaced : Failure := .badState "Argument vector used after its line was replaced"

/-- One step of going through the tokens: the token at a place, and nothing behind the last one. -/
def next (v : ArgumentVector) (b : LineBuffer) (place : Nat) : Except Failure (Option Text) :=
  if place < v.count then some <$> v.get b place else .ok none

/-- Every way to read a token is refused, whatever its place. -/
structure Refused (v : ArgumentVector) (b : LineBuffer) : Prop where
  get : ∀ index, v.get b index = .error replaced
  command : v.command b = .error replaced
  tokens : v.tokens b = .error replaced
  takeTokens : ∀ n, v.takeTokens b n = .error replaced
  next : ∀ place < v.count, v.next b place = .error replaced

/-- Every way to read a token gives it, and only places where none is are refused. -/
structure Readable (v : ArgumentVector) (b : LineBuffer) (words : List Text) : Prop where
  count : words.length = v.count
  get : ∀ (place : Nat) (token : Text), words[place]? = some token →
    v.get b place = .ok token ∧ v.get b (place - v.count) = .ok token
  outside : ∀ index : Int, index < -v.count ∨ (v.count : Int) ≤ index →
    v.get b index = .error LineBuffer.outside
  command : ∃ token, words.head? = some token ∧ v.command b = .ok token
  tokens : v.tokens b = .ok words
  takeTokens : ∀ n, v.takeTokens b n = .ok (words.take n.toNat)
  next : ∀ place < v.count, ∃ token, words[place]? = some token ∧ v.next b place = .ok (some token)

/-! ## A vector in a generation -/

theorem checkCurrent_of_ne (h : b.generation ≠ v.generation) : v.checkCurrent b = .error replaced :=
  if_neg h

theorem checkCurrent_of_eq (h : b.generation = v.generation) : v.checkCurrent b = .ok () := if_pos h

theorem get_of_replaced (h : b.generation ≠ v.generation) (index : Int) :
    v.get b index = .error replaced := by
  rw [get, checkCurrent_of_ne h]
  rfl

/-- The generation is looked at first. -/
theorem refused_of_replaced (h : b.generation ≠ v.generation) : v.Refused b := by
  have htokens : v.tokens b = .error replaced := by
    rw [tokens, checkCurrent_of_ne h]
    rfl
  refine ⟨get_of_replaced h, get_of_replaced h 0, htokens, fun n => ?_, fun place hplace => ?_⟩
  · rw [takeTokens, htokens]
    rfl
  · rw [next, if_pos hplace, get_of_replaced h]
    rfl

/-- Wherever the line ends by now, a token that begins behind its end is read as an empty one. -/
theorem readable_of_current (h : b.generation = v.generation) (hcount : 0 < v.count) :
    ∃ words, v.Readable b words := by
  have htokens : v.tokens b =
      .ok ((List.range v.count).map fun place => Text.Utf8.decode (v.tokenBytes b place)) := by
    rw [tokens, checkCurrent_of_eq h]
    rfl
  -- a slice never fails, so all that can go wrong is a place that is not below the count
  have hplace : ∀ place < v.count,
      ((List.range v.count).map fun place => Text.Utf8.decode (v.tokenBytes b place))[place]? =
        some (Text.Utf8.decode (v.tokenBytes b place)) := by
    intro place hplace
    rw [List.getElem?_map, List.getElem?_range hplace]
    rfl
  refine ⟨_, ?_, ?_, fun index => LineBuffer.get_of_outside h, ?_, htokens, ?_, ?_⟩
  · rw [List.length_map, List.length_range]
  · intro place token htoken
    have hinside : place < v.count := by
      simpa using (List.getElem?_eq_some_iff.mp htoken).1
    rw [hplace place hinside] at htoken
    cases htoken
    have hget := LineBuffer.get_of_lt h hinside
    exact ⟨hget, (LineBuffer.get_sub_count hinside).trans hget⟩
  · refine ⟨_, ?_, LineBuffer.get_of_lt h hcount⟩
    rw [List.head?_eq_getElem?]
    exact hplace 0 hcount
  · intro n
    rw [takeTokens, htokens]
    rfl
  · intro place hinside
    refine ⟨_, hplace place hinside, ?_⟩
    rw [next, if_pos hinside, LineBuffer.get_of_lt h hinside]
    rfl

end ArgumentVector

namespace LineBuffer

/-! ## Vectors of a buffer in use -/

variable {capacity : Nat} {size : Value} {s : InUse} {b c : LineBuffer} {v : ArgumentVector}
  {marker : CodePoint}

theorem count_pos_of_tokenize (h : b.tokenize marker = .ok (v, c)) : 0 < v.count := by
  obtain ⟨byte, heq⟩ := tokenize_eq_ok h
  cases heq
  exact Nat.succ_pos _

theorem generation_of_tokenize (h : b.tokenize marker = .ok (v, c)) : v.generation = c.generation := by
  obtain ⟨byte, heq⟩ := tokenize_eq_ok h
  cases heq
  rfl

namespace InUse

theorem after_cons (s : InUse) (use : Use) (rest : List Use) :
    s.after (use :: rest) = (s.step use).after rest := List.foldl_cons ..

theorem after_append (s : InUse) (earlier later : List Use) :
    s.after (earlier ++ later) = (s.after earlier).after later := List.foldl_append

theorem vectors_prefix_step (s : InUse) (use : Use) : s.vectors <+: (s.step use).vectors := by
  cases use with
  | fill chunk =>
      rw [step]
      cases s.buffer.fill chunk <;> exact List.prefix_rfl
  | tokenize marker =>
      rw [step]
      cases s.buffer.tokenize marker with
      | error e => exact List.prefix_rfl
      | ok divided => exact List.prefix_append ..
  | _ => exact List.prefix_rfl

/-- The vectors that were made stay as they are, each at its place. -/
theorem vectors_prefix_after (s : InUse) (uses : List Use) : s.vectors <+: (s.after uses).vectors := by
  induction uses generalizing s with
  | nil => exact List.prefix_rfl
  | cons use rest ih => exact (s.vectors_prefix_step use).trans (ih (s.step use))

theorem step_tokenize (h : s.buffer.tokenize marker = .ok (v, c)) :
    s.step (.tokenize marker) = ⟨c, s.vectors ++ [v]⟩ := by
  rw [step, h]
  rfl

/-- A vector keeps its place among those that were made, and its generation falls behind that of the buffer by
one with each line that is accepted. -/
theorem vector_after (h : s.Kept capacity size) (hmade : s.buffer.tokenize marker = .ok (v, c))
    (later : List Use) :
    (s.after (.tokenize marker :: later)).vectors[s.vectors.length]? = some v ∧
      (s.after (.tokenize marker :: later)).buffer.generation =
        v.generation + later.countP (Use.isAccepted capacity) := by
  have hstep := step_tokenize hmade
  have hkept := kept_step h (.tokenize marker)
  rw [hstep] at hkept
  rw [after_cons, hstep]
  constructor
  · obtain ⟨rest, hrest⟩ := vectors_prefix_after ⟨c, s.vectors ++ [v]⟩ later
    rw [← hrest, List.getElem?_append_left (by simp), List.getElem?_concat_length]
  · rw [generation_after hkept later, generation_of_tokenize hmade]

end InUse

/-- A vector that was made along the way, and what becomes of it.  It stays the same with as many tokens as it
had, of which there is at least one.  When a line was accepted since, every way to read a token is refused;
when none was, every token can be read. -/
theorem refused_of_refilled (capacity : Nat) (size : Value) (earlier : List Use)
    (hmade : ((InUse.fresh capacity size).after earlier).buffer.tokenize marker = .ok (v, c))
    (later : List Use) :
    let made := ((InUse.fresh capacity size).after earlier).vectors.length
    let s := (InUse.fresh capacity size).after (earlier ++ .tokenize marker :: later)
    s.vectors[made]? = some v ∧ 0 < v.count ∧
      ((∃ use ∈ later, use.isAccepted capacity) → v.Refused s.buffer) ∧
      ((∀ use ∈ later, ¬ use.isAccepted capacity) → ∃ words, v.Readable s.buffer words) := by
  intro made s
  have hkept := InUse.kept_after (InUse.kept_fresh capacity size) earlier
  have hs : s = ((InUse.fresh capacity size).after earlier).after (.tokenize marker :: later) :=
    InUse.after_append _ earlier _
  obtain ⟨hvector, hgeneration⟩ := InUse.vector_after hkept hmade later
  rw [← hs] at hvector hgeneration
  have hcount := count_pos_of_tokenize hmade
  refine ⟨hvector, hcount, fun hrefilled => ?_, fun hquiet => ?_⟩
  · have hpos := List.countP_pos_iff.mpr hrefilled
    exact ArgumentVector.refused_of_replaced (by omega)
  · have hzero := List.countP_eq_zero.mpr hquiet
    exact ArgumentVector.readable_of_current (by omega) hcount

/-- A line of two words is loaded into a buffer of eight bytes. -/
def twoWords : List Use := [.fill [0x63, 0x64, 0x20, 0x62, 0x0A], .stripNewline]

/-- The line is cut before its second word, and another one is too long. -/
def shortened : List Use := [.truncate 1, .fill (List.replicate 9 0x65), .find 300, .tokenize 0x63]

/-- The two words can be read from what is left of the line, and not any more once another line is there. -/
theorem refused_of_refilled_of_shortened :
    ∃ v c, ((InUse.fresh 8 (.int 8)).after twoWords).buffer.tokenize 0x23 = .ok (v, c) ∧ v.count = 2 ∧
      (∃ words, v.Readable
        ((InUse.fresh 8 (.int 8)).after (twoWords ++ .tokenize 0x23 :: shortened)).buffer words) ∧
      v.Refused ((InUse.fresh 8 (.int 8)).after
        (twoWords ++ .tokenize 0x23 :: (shortened ++ [.fill []]))).buffer := by
  have hmade := tokenize_of_lt ((InUse.fresh 8 (.int 8)).after twoWords).buffer
    (show (0x23 : CodePoint).val < 256 by decide)
  obtain ⟨-, -, -, hreadable⟩ := refused_of_refilled 8 (.int 8) twoWords hmade shortened
  obtain ⟨-, -, hrefused, -⟩ := refused_of_refilled 8 (.int 8) twoWords hmade (shortened ++ [.fill []])
  have hquiet : ∀ use ∈ shortened, ¬ use.isAccepted 8 := by decide
  have hrefilled : ∃ use ∈ shortened ++ [.fill []], use.isAccepted 8 :=
    ⟨.fill [], List.mem_append_right _ (List.mem_singleton_self _), rfl⟩
  exact ⟨_, _, hmade, rfl, hreadable hquiet, hrefused hrefilled⟩

end LineBuffer

end LineShell
