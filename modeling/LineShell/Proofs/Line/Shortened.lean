import LineShell.Proofs.Line.Lifetime

/-!
# What is read from a shortened line

A vector is a view of its line: it keeps the places where tokens start and reads the rest from the buffer.  As
long as no other line is loaded the buffer still holds the line, but maybe only the front of it.  A use that
shortens the line writes one NUL where the line ends from then on, and since the spaces were overwritten when
the vector was made, no use writes anything else (`InUse.buffer_step_of_quiet`).  So a whole sequence of uses
comes to the places at which it ended the line, each in front of the one before (`InUse.cuts`,
`InUse.buffer_after_of_quiet`).

`Viewed` is what a vector reads then, token by token.  Each token but the last goes up to the next one, wherever
the line ends by now, with NUL at the places of it at which the line was ended; the last token goes up to the
end of the line.  There are two ways, then, in which a token changes: the last one is shortened with the line,
and another one has NUL written into it.  `tokens_kept` says that the tokens stay the same exactly when neither
happens.  That is so for a line that was not shortened, and for one with an empty token at the end that was
ended only where NUL stood already.
-/

namespace LineShell

/-- Where a token starts. -/
def ArgumentVector.start (v : ArgumentVector) (place : Nat) : Nat := v.offsets.getD place 0

namespace LineBuffer

variable {b c : LineBuffer} {v : ArgumentVector} {marker : CodePoint} {places : List Nat}
  {bytes : Bytes} {index start stop place : Nat}

/-! ## Where a line is ended -/

/-- The place in front of its end at which a use ends the line, if it does. -/
def Use.cut? (b : LineBuffer) : Use → Option Nat
  | .stripNewline => if b.content.getLast? = some newline then some (b.length - 1) else none
  | .truncate index => if 0 ≤ index ∧ index < b.length then some index.toNat else none
  | .tokenize marker => if marker.val < 256 then b.find? (UInt8.ofNat marker.val) else none
  | _ => none

/-- The places at which a sequence of uses ends the line, in order. -/
def InUse.cuts (s : InUse) : List Use → List Nat
  | [] => []
  | use :: rest => (use.cut? s.buffer).toList ++ (s.step use).cuts rest

theorem length_ne_zero_of_getLast? {byte : UInt8} (h : b.content.getLast? = some byte) :
    b.length ≠ 0 := by
  intro hzero
  rw [content, hzero] at h
  cases h

theorem lt_of_cut? {use : Use} (h : use.cut? b = some index) : index < b.length := by
  cases use with
  | stripNewline =>
      simp only [Use.cut?, Option.ite_none_right_eq_some, Option.some.injEq] at h
      obtain ⟨hlast, rfl⟩ := h
      have hne := length_ne_zero_of_getLast? hlast
      omega
  | truncate place =>
      simp only [Use.cut?, Option.ite_none_right_eq_some, Option.some.injEq] at h
      omega
  | tokenize marker =>
      simp only [Use.cut?, Option.ite_none_right_eq_some, find?] at h
      have hinside := (List.findIdx?_eq_some_iff_findIdx_eq.mp h.2).1
      exact Nat.lt_of_lt_of_le hinside (List.length_take_le _ _)
  | _ => cases h

theorem stripNewline_eq (h : b.Fits) :
    b.stripNewline = (Use.stripNewline.cut? b).elim b b.truncate := by
  rw [stripNewline, Use.cut?]
  by_cases hlast : b.content.getLast? = some newline
  · have hne := length_ne_zero_of_getLast? hlast
    rw [if_pos ⟨hne, by rwa [← getLast?_content h hne]⟩, if_pos hlast, Option.elim_some,
      truncate_of_lt (by omega)]
  · rw [if_neg hlast, if_neg fun hends => hlast (by rw [getLast?_content h hends.1, hends.2])]
    rfl

theorem truncateAt_eq (b : LineBuffer) (place : Int) :
    b.truncateAt place = ((Use.truncate place).cut? b).elim b b.truncate := by
  rw [truncateAt, Use.cut?]
  by_cases hfront : 0 ≤ place
  · by_cases hinside : place < b.length
    · rw [if_pos hfront, if_pos ⟨hfront, hinside⟩, Option.elim_some]
    · rw [if_pos hfront, if_neg fun h => hinside h.2, truncate_of_le (by omega)]
      rfl
  · rw [if_neg hfront, if_neg fun h => hfront h.1]
    rfl

/-- There is nothing to split in a line without a space. -/
theorem split_of_not_mem (h : space ∉ b.content) : b.split.2 = b := by
  have hline : blankSpaces b.content = b.content :=
    calc blankSpaces b.content
        = b.content.map id :=
          List.map_congr_left fun byte hbyte => if_neg (ne_of_mem_of_not_mem hbyte h)
      _ = b.content := List.map_id _
  rw [split, hline, content, List.take_append_drop]

/-- A line without a space is cut at the marker, and that is all. -/
theorem cutAt_split (hfits : b.Fits) (hplain : space ∉ b.content) (byte : UInt8) :
    (b.cutAt byte).split.2 = (b.find? byte).elim b b.truncate := by
  obtain ⟨hcut, -⟩ := content_cutAt hfits byte
  have hrest : space ∉ (b.cutAt byte).content := by
    rw [hcut]
    exact fun hmem => hplain (Line.mem_of_mem_before hmem)
  rw [split_of_not_mem hrest, cutAt]
  cases b.find? byte <;> rfl

namespace InUse

variable {s : InUse} {capacity : Nat} {size : Value} {uses : List Use}

/-- A use that loads no line comes to ending the one that is there, if that has no spaces. -/
theorem buffer_step_of_quiet {use : Use} (hquiet : ¬ use.isAccepted s.buffer.capacity)
    (hfits : s.buffer.Fits) (hplain : space ∉ s.buffer.content) :
    (s.step use).buffer = (use.cut? s.buffer).elim s.buffer s.buffer.truncate := by
  cases use with
  | fill chunk =>
      have hlong : s.buffer.capacity < chunk.length := by simpa [Use.isAccepted] using hquiet
      rw [step, fill_of_lt hlong]
      rfl
  | stripNewline => exact stripNewline_eq hfits
  | find byte => rfl
  | truncate place => exact truncateAt_eq _ place
  | text => rfl
  | tokenize marker =>
      by_cases hmarker : marker.val < 256
      · rw [step, tokenize_of_lt _ hmarker, Use.cut?, if_pos hmarker]
        exact cutAt_split hfits hplain _
      · rw [step, tokenize_of_not_lt _ hmarker, Use.cut?, if_neg hmarker]
        rfl

/-- Uses that load no line come to ending the one that is there, each time at a place inside what is left. -/
theorem buffer_after_of_quiet (h : s.Kept capacity size) (hplain : space ∉ s.buffer.content)
    (hquiet : ∀ use ∈ uses, ¬ use.isAccepted capacity) :
    (s.after uses).buffer = (s.cuts uses).foldl truncate s.buffer ∧
      (s.buffer.length :: s.cuts uses).Pairwise (· > ·) := by
  induction uses generalizing s with
  | nil => exact ⟨rfl, List.pairwise_singleton _ _⟩
  | cons use rest ih =>
      obtain ⟨hfirst, hrest⟩ := List.forall_mem_cons.mp hquiet
      rw [← show s.buffer.capacity = capacity from h.sized.capacity] at hfirst
      have hstep := buffer_step_of_quiet hfirst h.shaped.fits hplain
      have hkept := kept_step h use
      rw [after_cons, cuts]
      cases hcut : use.cut? s.buffer with
      | none =>
          rw [hcut, Option.elim_none] at hstep
          have hsame := ih hkept (by rwa [hstep]) hrest
          rwa [hstep] at hsame
      | some place =>
          have hinside := lt_of_cut? hcut
          rw [hcut, Option.elim_some] at hstep
          -- what is left of the line has no spaces either, so the next use finds it as this one did
          have hline : space ∉ (s.step use).buffer.content := by
            rw [hstep, content_truncate hinside]
            exact fun hmem => hplain (List.mem_of_mem_take hmem)
          have hlength : (s.step use).buffer.length = place := by rw [hstep, truncate_of_lt hinside]
          obtain ⟨hbuffer, hfalling⟩ := ih hkept hline hrest
          rw [hstep] at hbuffer
          rw [hlength] at hfalling
          refine ⟨hbuffer, List.pairwise_cons.mpr ⟨fun other hother => ?_, hfalling⟩⟩
          rcases List.mem_cons.mp hother with rfl | hlater
          · exact hinside
          · exact Nat.lt_trans ((List.pairwise_cons.mp hfalling).1 other hlater) hinside

end InUse

/-! ## Bytes of a line that was ended -/

/-- Bytes that start at a place of a line, with NUL at each place at which the line was ended. -/
def endedAt (places : List Nat) (start : Nat) (bytes : Bytes) : Bytes :=
  bytes.mapIdx fun i byte => if start + i ∈ places then nul else byte

theorem getElem?_endedAt (places : List Nat) (start : Nat) (bytes : Bytes) (i : Nat) :
    (endedAt places start bytes)[i]? =
      bytes[i]?.map fun byte => if start + i ∈ places then nul else byte := List.getElem?_mapIdx

/-- Nothing changes where NUL stood already. -/
theorem endedAt_eq_self_iff : endedAt places start bytes = bytes ↔
    ∀ i, start + i ∈ places → ∀ byte, bytes[i]? = some byte → byte = nul := by
  constructor
  · intro h i hi byte hbyte
    have hsame := getElem?_endedAt places start bytes i
    rw [h, hbyte, Option.map_some, if_pos hi] at hsame
    exact Option.some.inj hsame
  · intro h
    refine List.ext_getElem? fun i => ?_
    rw [getElem?_endedAt]
    cases hbyte : bytes[i]? with
    | none => rfl
    | some byte => rw [Option.map_some, ite_eq_right_iff.mpr fun hi => (h i hi byte hbyte).symm]

theorem endedAt_nil (start : Nat) (bytes : Bytes) : endedAt [] start bytes = bytes :=
  endedAt_eq_self_iff.mpr fun _ h => nomatch h

theorem endedAt_set (places : List Nat) (bytes : Bytes) (index : Nat) :
    endedAt places 0 (bytes.set index nul) = endedAt (index :: places) 0 bytes := by
  refine List.ext_getElem? fun i => ?_
  rw [getElem?_endedAt, getElem?_endedAt, List.getElem?_set', Nat.zero_add]
  by_cases hi : index = i
  · subst hi
    cases bytes[index]? <;> simp
  · simp [hi, Ne.symm hi]

theorem drop_take_endedAt (places : List Nat) (start stop : Nat) (bytes : Bytes) :
    ((endedAt places 0 bytes).take stop).drop start =
      endedAt places start ((bytes.take stop).drop start) := by
  refine List.ext_getElem? fun i => ?_
  rw [getElem?_endedAt, List.getElem?_drop, List.getElem?_drop, List.getElem?_take,
    List.getElem?_take, getElem?_endedAt, Nat.zero_add]
  split <;> rfl

/-- What lies in front of all the places is as it was. -/
theorem take_endedAt (h : ∀ place ∈ places, stop ≤ place) (bytes : Bytes) :
    (endedAt places 0 bytes).take stop = bytes.take stop := by
  refine List.ext_getElem? fun i => ?_
  rw [List.getElem?_take, List.getElem?_take, getElem?_endedAt, Nat.zero_add]
  split
  · have hother : i ∉ places := fun hi => absurd (h i hi) (by omega)
    simp [hother]
  · rfl

/-- A line that is ended at one place after the other, each inside what is left. -/
theorem foldl_truncate (h : (b.length :: places).Pairwise (· > ·)) :
    places.foldl truncate b =
      { b with front := endedAt places 0 b.front, length := places.getLastD b.length } := by
  induction places generalizing b with
  | nil =>
      rw [endedAt_nil]
      rfl
  | cons first rest ih =>
      obtain ⟨hinside, hrest⟩ := List.pairwise_cons.mp h
      have hshorter := truncate_of_lt (hinside first (List.mem_cons_self ..))
      rw [List.foldl_cons, hshorter, ih hrest, endedAt_set, List.getLastD_cons]

/-- The last of falling places lies in front of all the others. -/
theorem getLastD_le {n : Nat} (h : (n :: places).Pairwise (· > ·)) :
    places.getLastD n ≤ n ∧ ∀ place ∈ places, places.getLastD n ≤ place := by
  induction places generalizing n with
  | nil => exact ⟨Nat.le_refl n, nofun⟩
  | cons first rest ih =>
      obtain ⟨hfirst, hrest⟩ := List.pairwise_cons.mp h
      obtain ⟨hle, hbehind⟩ := ih hrest
      rw [List.getLastD_cons]
      have hinside := hfirst first (List.mem_cons_self ..)
      exact ⟨Nat.le_trans hle (Nat.le_of_lt hinside), List.forall_mem_cons.mpr ⟨hle, hbehind⟩⟩

/-! ## Tokens of a line that was ended -/

/-- What a vector reads from a buffer whose line was ended at some places since. -/
structure Viewed (cuts : List Nat) (v : ArgumentVector) (c b : LineBuffer) : Prop where
  falling : (c.length :: cuts).Pairwise (· > ·)
  ended : b.length = cuts.getLastD c.length
  inner : ∀ place, place + 1 < v.count →
    v.tokenBytes b place = endedAt cuts (v.start place) (v.tokenBytes c place)
  last : ∀ place, place + 1 = v.count →
    v.tokenBytes b place = (v.tokenBytes c place).take (b.length - v.start place)

variable {cuts : List Nat}

theorem tokenBytes_of_lt (h : place + 1 < v.count) (b : LineBuffer) :
    v.tokenBytes b place = (b.front.take (v.start (place + 1) - 1)).drop (v.start place) := by
  have hnext : v.offsets[place + 1]? = some (v.start (place + 1)) := by
    rw [ArgumentVector.start, List.getD_eq_getElem?_getD, List.getElem?_eq_getElem h,
      Option.getD_some]
  simp only [ArgumentVector.tokenBytes, hnext]
  rfl

theorem tokenBytes_of_eq (h : place + 1 = v.count) (b : LineBuffer) :
    v.tokenBytes b place = (b.front.take b.length).drop (v.start place) := by
  have hnone : v.offsets[place + 1]? = none := List.getElem?_eq_none (Nat.le_of_eq h.symm)
  simp only [ArgumentVector.tokenBytes, hnone]
  rfl

theorem viewed_foldl_truncate (h : (c.length :: cuts).Pairwise (· > ·)) (v : ArgumentVector) :
    Viewed cuts v c (cuts.foldl truncate c) := by
  obtain ⟨hle, hend⟩ := getLastD_le h
  rw [foldl_truncate h]
  refine ⟨h, rfl, fun place hplace => ?_, fun place hplace => ?_⟩
  · rw [tokenBytes_of_lt hplace, tokenBytes_of_lt hplace, drop_take_endedAt]
  · rw [tokenBytes_of_eq hplace, tokenBytes_of_eq hplace]
    dsimp only
    rw [take_endedAt hend, List.drop_take, List.drop_take, List.take_take,
      Nat.min_eq_left (Nat.sub_le_sub_right hle _)]

theorem Viewed.lt_length (h : Viewed cuts v c b) {cut : Nat} (hcut : cut ∈ cuts) : cut < c.length :=
  (List.pairwise_cons.mp h.falling).1 cut hcut

theorem Viewed.length_le (h : Viewed cuts v c b) {cut : Nat} (hcut : cut ∈ cuts) : b.length ≤ cut := by
  rw [h.ended]
  exact (getLastD_le h.falling).2 cut hcut

/-! ## A vector that was just made -/

/-- A vector and the line that was divided for it: no space is left there, and NUL stands in front of each token
but the first. -/
structure Made (v : ArgumentVector) (c : LineBuffer) : Prop where
  fits : c.Fits
  plain : space ∉ c.content
  count : 0 < v.count
  first : v.start 0 = 0
  divided : ∀ place, place + 1 < v.count → c.content[v.start (place + 1) - 1]? = some nul

/-- Each token but the first one starts behind a space. -/
theorem getElem?_of_mem_spaceOffsets {offset : Nat} (h : offset ∈ spaceOffsets start bytes) :
    ∃ i, offset = start + i + 1 ∧ bytes[i]? = some space := by
  induction bytes generalizing start with
  | nil => cases h
  | cons byte rest ih =>
      have hrest : offset ∈ spaceOffsets (start + 1) rest →
          ∃ i, offset = start + i + 1 ∧ (byte :: rest)[i]? = some space := by
        intro hmem
        obtain ⟨i, rfl, hi⟩ := ih hmem
        exact ⟨i + 1, by omega, hi⟩
      rw [spaceOffsets] at h
      split at h
      · rename_i hspace
        rcases List.mem_cons.mp h with rfl | hmem
        · exact ⟨0, rfl, congrArg some hspace⟩
        · exact hrest hmem
      · exact hrest h

theorem space_not_mem_blankSpaces (bytes : Bytes) : space ∉ blankSpaces bytes := by
  intro hmem
  obtain ⟨byte, -, hbyte⟩ := List.mem_map.mp hmem
  split at hbyte
  · cases hbyte
  · rename_i hother
    exact hother hbyte

theorem made_split (h : b.Shaped) : Made b.split.1 b.split.2 := by
  have hcontent := content_split h.fits
  refine ⟨h.split.fits, ?_, Nat.succ_pos _, rfl, fun place hplace => ?_⟩
  · rw [hcontent]
    exact space_not_mem_blankSpaces _
  · have hbehind : place < (spaceOffsets 0 b.content).length := Nat.lt_of_succ_lt_succ hplace
    obtain ⟨i, hoffset, hi⟩ := getElem?_of_mem_spaceOffsets (List.getElem_mem hbehind)
    have hnext : b.split.1.start (place + 1) = i + 1 := by
      change (spaceOffsets 0 b.content).getD place 0 = i + 1
      rw [List.getD_eq_getElem?_getD, List.getElem?_eq_getElem hbehind, Option.getD_some, hoffset,
        Nat.zero_add]
    rw [hnext, hcontent, Nat.add_sub_cancel, blankSpaces, List.getElem?_map, hi]
    rfl

theorem made_of_tokenize (h : b.Shaped) (hmade : b.tokenize marker = .ok (v, c)) : Made v c := by
  obtain ⟨byte, heq⟩ := tokenize_eq_ok hmade
  cases heq
  exact made_split (h.cutAt byte)

/-- On the way from the first value to the last one there is a step across any place between them. -/
theorem exists_step_of_lt {f : Nat → Nat} {x n : Nat} (hfirst : f 0 ≤ x) (hlast : x < f n) :
    ∃ i < n, f i ≤ x ∧ x < f (i + 1) := by
  induction n with
  | zero => omega
  | succ n ih =>
      by_cases hbefore : x < f n
      · obtain ⟨i, hi, hstep⟩ := ih hbefore
        exact ⟨i, Nat.lt_succ_of_lt hi, hstep⟩
      · exact ⟨n, Nat.lt_succ_self n, Nat.le_of_not_lt hbefore, hlast⟩

/-- A place in front of the last token holds NUL, or it lies in another token. -/
theorem Made.nul_or_inner (h : Made v c) {cut : Nat} (hcut : cut < v.start (v.count - 1)) :
    c.content[cut]? = some nul ∨
      ∃ place i, place + 1 < v.count ∧ v.start place + i = cut ∧
        (v.tokenBytes c place)[i]? = c.front[cut]? := by
  have hfirst : v.start 0 ≤ cut := by
    rw [h.first]
    exact Nat.zero_le cut
  obtain ⟨place, hplace, hstart, hstop⟩ := exists_step_of_lt hfirst hcut
  have hinner : place + 1 < v.count := by omega
  by_cases hnext : v.start (place + 1) = cut + 1
  · have hdivided := h.divided place hinner
    rw [hnext] at hdivided
    exact .inl hdivided
  · obtain ⟨i, rfl⟩ := Nat.exists_eq_add_of_le hstart
    refine .inr ⟨place, i, hinner, rfl, ?_⟩
    rw [tokenBytes_of_lt hinner, List.getElem?_drop, List.getElem?_take_of_lt (by omega)]

theorem Made.length_last (h : Made v c) :
    (v.tokenBytes c (v.count - 1)).length = c.length - v.start (v.count - 1) := by
  rw [tokenBytes_of_eq (Nat.sub_add_cancel h.count), List.length_drop, List.length_take,
    Nat.min_eq_left h.fits]

theorem getElem?_content (h : index < b.length) : b.content[index]? = b.front[index]? :=
  List.getElem?_take_of_lt h

/-! ## Tokens that are kept -/

/-- Of a shorter line the last token is kept only if it was empty. -/
theorem Viewed.le_start_last (h : Viewed cuts v c b) (hmade : Made v c) (hcuts : cuts ≠ [])
    (hkept : v.tokenBytes b (v.count - 1) = v.tokenBytes c (v.count - 1)) :
    c.length ≤ v.start (v.count - 1) := by
  obtain ⟨cut, hcut⟩ := List.exists_mem_of_ne_nil cuts hcuts
  have hshorter : b.length < c.length := Nat.lt_of_le_of_lt (h.length_le hcut) (h.lt_length hcut)
  have hlast := congrArg List.length (h.last (v.count - 1) (Nat.sub_add_cancel hmade.count))
  rw [hkept, List.length_take, hmade.length_last] at hlast
  omega

/-- The tokens are kept only if each place at which the line was ended held NUL: it lies in front of the last
token, which is empty, and the token it may lie in would have NUL there now. -/
theorem Viewed.nul_of_kept (h : Viewed cuts v c b) (hmade : Made v c)
    (hkept : ∀ place < v.count, v.tokenBytes b place = v.tokenBytes c place) {cut : Nat}
    (hcut : cut ∈ cuts) : c.content[cut]? = some nul := by
  have hinside := h.lt_length hcut
  have hbehind := h.le_start_last hmade (List.ne_nil_of_mem hcut)
    (hkept _ (Nat.sub_one_lt_of_lt hmade.count))
  rcases hmade.nul_or_inner (Nat.lt_of_lt_of_le hinside hbehind) with
    hnul | ⟨place, i, hplace, rfl, htoken⟩
  · exact hnul
  · -- the token that the place lies in has NUL there now, and had it at first since it was kept
    have hbyte := htoken.trans
      (List.getElem?_eq_getElem (Nat.lt_of_lt_of_le hinside hmade.fits))
    have hsame := (h.inner place hplace).symm.trans (hkept place (Nat.lt_of_succ_lt hplace))
    have hnul := endedAt_eq_self_iff.mp hsame i hcut _ hbyte
    rw [getElem?_content hinside, ← htoken, hbyte, hnul]

/-- With an empty token at the end the tokens are kept if each place at which the line was ended held NUL. -/
theorem Viewed.kept_of_nul (h : Viewed cuts v c b)
    (hlast : v.tokenBytes c (v.count - 1) = []) (hnul : ∀ cut ∈ cuts, c.content[cut]? = some nul)
    (hplace : place < v.count) : v.tokenBytes b place = v.tokenBytes c place := by
  rcases Nat.lt_or_eq_of_le (Nat.succ_le_of_lt hplace) with hinner | heq
  · rw [h.inner place hinner, endedAt_eq_self_iff]
    intro i hcut byte hbyte
    have hfront := hnul _ hcut
    rw [getElem?_content (h.lt_length hcut)] at hfront
    rw [tokenBytes_of_lt hinner, List.getElem?_drop, List.getElem?_take] at hbyte
    split at hbyte
    · rw [hfront] at hbyte
      exact (Option.some.inj hbyte).symm
    · cases hbyte
  · obtain rfl : place = v.count - 1 := by omega
    rw [h.last _ heq, hlast, List.take_nil]

theorem Viewed.kept_of_nil (h : Viewed [] v c b) (hmade : Made v c) (hplace : place < v.count) :
    v.tokenBytes b place = v.tokenBytes c place := by
  rcases Nat.lt_or_eq_of_le (Nat.succ_le_of_lt hplace) with hinner | heq
  · rw [h.inner place hinner, endedAt_nil]
  · obtain rfl : place = v.count - 1 := by omega
    have hlength : b.length = c.length := h.ended
    rw [h.last _ heq, hlength, ← hmade.length_last, List.take_length]

theorem Viewed.kept_iff (h : Viewed cuts v c b) (hmade : Made v c) :
    (∀ place < v.count, v.tokenBytes b place = v.tokenBytes c place) ↔
      cuts = [] ∨ v.tokenBytes c (v.count - 1) = [] ∧ ∀ cut ∈ cuts, c.content[cut]? = some nul := by
  constructor
  · intro hkept
    by_cases hcuts : cuts = []
    · exact .inl hcuts
    · have hbehind := h.le_start_last hmade hcuts (hkept _ (Nat.sub_one_lt_of_lt hmade.count))
      refine .inr ⟨List.eq_nil_of_length_eq_zero ?_, fun cut hcut => h.nul_of_kept hmade hkept hcut⟩
      rw [hmade.length_last, Nat.sub_eq_zero_of_le hbehind]
  · rintro (rfl | ⟨hlast, hnul⟩) place hplace
    · exact h.kept_of_nil hmade hplace
    · exact h.kept_of_nul hlast hnul hplace

/-! ## Vectors of a buffer in use -/

/-- The texts of all tokens in order. -/
def tokenTexts (v : ArgumentVector) (b : LineBuffer) : List Text :=
  ((List.range v.count).map (v.tokenBytes b)).map Text.Utf8.decode

theorem tokenTexts_eq_iff : tokenTexts v b = tokenTexts v c ↔
    ∀ place < v.count, v.tokenBytes b place = v.tokenBytes c place := by
  rw [tokenTexts, tokenTexts, List.map_inj_right fun _ _ => Text.Utf8.decode_inj.mp,
    List.map_inj_left]
  simp only [List.mem_range]

theorem getLast?_tokenTexts_eq_nil_iff (h : 0 < v.count) :
    (tokenTexts v c).getLast? = some [] ↔ v.tokenBytes c (v.count - 1) = [] := by
  rw [tokenTexts, List.getLast?_map, List.getLast?_map, List.getLast?_range, if_neg (by omega)]
  exact Option.some_inj.trans (Text.Utf8.decode_inj (b := []))

/-- A vector that was made along the way, and what it reads while no other line is accepted.  All its tokens can
be read, each as `Viewed` says.  They are those that it read at first exactly if the line was not shortened, or
the last token is empty and the line was ended only at places that held NUL. -/
theorem tokens_kept (capacity : Nat) (size : Value) (earlier : List Use)
    (hmade : ((InUse.fresh capacity size).after earlier).buffer.tokenize marker = .ok (v, c))
    (later : List Use) (hquiet : ∀ use ∈ later, ¬ use.isAccepted capacity) :
    let made := (InUse.fresh capacity size).after (earlier ++ [.tokenize marker])
    let cuts := made.cuts later
    let b := (made.after later).buffer
    made.buffer = c ∧ Viewed cuts v c b ∧
      v.tokens c = .ok (tokenTexts v c) ∧ v.tokens b = .ok (tokenTexts v b) ∧
      (v.tokens b = v.tokens c ↔ cuts = [] ∨
        (tokenTexts v c).getLast? = some [] ∧ ∀ cut ∈ cuts, c.content[cut]? = some nul) := by
  intro made cuts b
  have hearlier := InUse.kept_after (InUse.kept_fresh capacity size) earlier
  have hnew := made_of_tokenize hearlier.shaped hmade
  have hcurrent := generation_of_tokenize hmade
  have hbuffer : made.buffer = c := by
    change ((InUse.fresh capacity size).after (earlier ++ [.tokenize marker])).buffer = c
    rw [InUse.after_append, InUse.after_cons, InUse.step_tokenize hmade]
    rfl
  have hkept : made.Kept capacity size := InUse.kept_after (InUse.kept_fresh capacity size) _
  -- no line is loaded, so all that happened to the buffer is a number of cuts
  obtain ⟨hb, hfalling⟩ := InUse.buffer_after_of_quiet hkept (hbuffer.symm ▸ hnew.plain) hquiet
  rw [hbuffer] at hb hfalling
  change b = cuts.foldl truncate c at hb
  have hview : Viewed cuts v c b := hb ▸ viewed_foldl_truncate hfalling v
  have hfirst : v.tokens c = .ok (tokenTexts v c) := tokens_of_current hcurrent.symm
  have hnow : v.tokens b = .ok (tokenTexts v b) := by
    apply tokens_of_current
    rw [hb, foldl_truncate hfalling, hcurrent]
  refine ⟨hbuffer, hview, hfirst, hnow, ?_⟩
  rw [hnow, hfirst, Except.ok.injEq, tokenTexts_eq_iff, hview.kept_iff hnew,
    getLast?_tokenTexts_eq_nil_iff hnew.count]

/-- A line of two words with a space behind each is loaded into a buffer of eight bytes. -/
def spaced : List Use := [.fill [0x61, 0x62, 0x20, 0x63, 0x20]]

/-- The line is ended behind its first word, and nothing comes of what is tried then. -/
def endedBehind : List Use :=
  [.truncate 2, .fill (List.replicate 9 0x65), .stripNewline, .find 300, .truncate 7, .tokenize 0x63,
    .text]

/-- Only the first word is left of the line, and the vector still reads all three tokens. -/
theorem tokens_kept_of_spaced :
    ∃ v c, ((InUse.fresh 8 (.int 8)).after spaced).buffer.tokenize 0x23 = .ok (v, c) ∧
      (∀ use ∈ endedBehind, ¬ use.isAccepted 8) ∧
      let b := (((InUse.fresh 8 (.int 8)).after (spaced ++ [.tokenize 0x23])).after endedBehind).buffer
      b.content = [0x61, 0x62] ∧ v.tokens b = v.tokens c ∧
        v.tokens b = .ok [[0x61, 0x62], [0x63], []] := by
  have hmade := tokenize_of_lt ((InUse.fresh 8 (.int 8)).after spaced).buffer
    (show (0x23 : CodePoint).val < 256 by decide)
  have hquiet : ∀ use ∈ endedBehind, ¬ use.isAccepted 8 := by decide
  obtain ⟨-, -, hfirst, -, hkept⟩ := tokens_kept 8 (.int 8) spaced hmade endedBehind hquiet
  have hsame := hkept.mpr (.inr ⟨rfl, by decide⟩)
  exact ⟨_, _, hmade, hquiet, rfl, hsame, hsame.trans hfirst⟩

/-- A line of two words is loaded. -/
def listing : List Use := [.fill [0x6C, 0x73, 0x20, 0x2D, 0x6C]]

/-- No other line is loaded, and yet the vector reads only a part of its last token, in which the line was
ended. -/
theorem tokens_ne_of_listing :
    ∃ v c, ((InUse.fresh 8 (.int 8)).after listing).buffer.tokenize 0x23 = .ok (v, c) ∧
      (∀ use ∈ [Use.truncate 4], ¬ use.isAccepted 8) ∧
      let b := (((InUse.fresh 8 (.int 8)).after (listing ++ [.tokenize 0x23])).after [.truncate 4]).buffer
      v.tokens c = .ok [[0x6C, 0x73], [0x2D, 0x6C]] ∧ v.tokens b = .ok [[0x6C, 0x73], [0x2D]] ∧
        v.tokens b ≠ v.tokens c := by
  have hmade := tokenize_of_lt ((InUse.fresh 8 (.int 8)).after listing).buffer
    (show (0x23 : CodePoint).val < 256 by decide)
  refine ⟨_, _, hmade, by decide, rfl, rfl, fun hsame => ?_⟩
  have hwords : ([[0x6C, 0x73], [0x2D]] : List Text) = [[0x6C, 0x73], [0x2D, 0x6C]] :=
    Except.ok.inj hsame
  exact absurd hwords (by decide)

end LineBuffer

end LineShell
