import LineShell.Proofs.Services.HostRun

/-!
# What a read takes

A host reads a line byte by byte, and this is what it comes to.  `IsLine` says which bytes a line in a
capacity is: as many as fit, and none behind a newline.  `Host.received` are the bytes that the calls of
a read gave, in order: a read returns just these, whatever became of the single calls
(`Host.received_readLine`), so that nothing behind the line is taken from the source.

In memory a line is not read but cut from a slice.  A slice may be given by places that are counted from
the end of the bytes, and a negative capacity can lead to one.  Elsewhere the two come to the same: the
main result is `Host.readLine_isLine`, and `Host.readLine_ne_slicedLine` shows where they part.
-/

namespace LineShell

open Program

/-! ## Lines -/

/-- The line at the front of some bytes: the longest part of them that fits into a capacity and has no
newline before its last byte. -/
structure IsLine (bytes : Bytes) (capacity : Int) (line : Bytes) : Prop where
  front : line <+: bytes
  fits : line.length ≤ capacity.toNat
  single : LineBuffer.newline ∉ line.dropLast
  longest : ∀ other, other <+: bytes → other.length ≤ capacity.toNat →
    LineBuffer.newline ∉ other.dropLast → other.length ≤ line.length

/-- Without a capacity nothing fits, and from nothing nothing is taken. -/
theorem IsLine.eq_nil {bytes line : Bytes} {capacity : Int} (h : IsLine bytes capacity line)
    (hnone : capacity ≤ 0 ∨ bytes = []) : line = [] := by
  rcases hnone with hcapacity | rfl
  · have hfits := h.fits
    exact List.eq_nil_of_length_eq_zero (by omega)
  · exact List.prefix_nil.mp h.front

namespace InMemory

theorem newline_not_mem_dropLast_firstLine (bytes : Bytes) :
    LineBuffer.newline ∉ (firstLine bytes).dropLast := by
  induction bytes with
  | nil => exact List.not_mem_nil
  | cons byte rest ih =>
      rw [firstLine]
      split
      · exact List.not_mem_nil
      · next hbyte =>
          cases hline : firstLine rest with
          | nil => exact List.not_mem_nil
          | cons next more =>
              rw [List.dropLast_cons_of_ne_nil (List.cons_ne_nil next more), ← hline]
              exact List.not_mem_cons_of_ne_of_not_mem (Ne.symm hbyte) ih

/-- No other part with one line is longer than the first line. -/
theorem length_le_length_firstLine {bytes other : Bytes} (hfront : other <+: bytes)
    (hsingle : LineBuffer.newline ∉ other.dropLast) : other.length ≤ (firstLine bytes).length := by
  induction bytes generalizing other with
  | nil =>
      rw [List.prefix_nil.mp hfront]
      exact Nat.zero_le _
  | cons byte rest ih =>
      cases other with
      | nil => exact Nat.zero_le _
      | cons first more =>
          obtain ⟨rfl, hmore⟩ := List.cons_prefix_cons.mp hfront
          rw [firstLine]
          cases more with
          | nil => split <;> simp
          | cons second more =>
              rw [List.dropLast_cons_of_ne_nil (List.cons_ne_nil second more), List.mem_cons, not_or]
                at hsingle
              -- the first byte is not the last one, so it is no newline
              have hbyte : first ≠ 0x0A := Ne.symm hsingle.1
              rw [if_neg hbyte, List.length_cons, List.length_cons]
              exact Nat.succ_le_succ (ih hmore hsingle.2)

/-- What is read from memory is the line at the offset. -/
theorem isLine_lineAt (source : Bytes) (offset : Nat) (capacity : Int) :
    IsLine (source.drop offset) capacity (lineAt source offset capacity) where
  front := (prefix_firstLine _).trans (List.take_prefix _ _)
  fits := length_lineAt_le
  single := newline_not_mem_dropLast_firstLine _
  longest other hfront hfits hsingle := by
    refine length_le_length_firstLine ?_ hsingle
    exact List.prefix_take_iff.mpr ⟨hfront, hfits⟩

/-! ## Slices -/

/-- The place in some bytes that a number stands for: below zero it is counted from the end. -/
def placeIn (bytes : Bytes) (i : Int) : Nat := if i < 0 then (bytes.length + i).toNat else i.toNat

/-- The bytes from one place to another. -/
def slice (bytes : Bytes) (start stop : Int) : Bytes :=
  (bytes.take (placeIn bytes stop)).drop (placeIn bytes start)

/-- The line that is cut from the slice of a capacity. -/
def slicedLine (source : Bytes) (offset capacity : Int) : Bytes :=
  firstLine (slice source offset (offset + capacity))

/-- Where a slice does not end below zero, it is the line that is read. -/
theorem slicedLine_eq_lineAt (source : Bytes) {offset : Nat} {capacity : Int}
    (h : 0 ≤ offset + capacity) : slicedLine source offset capacity = lineAt source offset capacity := by
  have hstart : placeIn source offset = offset := if_neg (by omega)
  have hstop : placeIn source (offset + capacity) = (offset + capacity).toNat := if_neg (by omega)
  have hlength : (offset + capacity).toNat - offset = capacity.toNat := by omega
  rw [slicedLine, slice, hstart, hstop, List.drop_take, hlength, lineAt, Int.toNat_natCast]

end InMemory

/-! ## The bytes that are taken -/

namespace Host

open OsCall
open OsWorld (answer Moved)

/-- The bytes that reads from a descriptor gave, in order. -/
def received (fd : Int) (events : List (Event OsCall.Reply)) : Bytes :=
  events.flatMap fun
    | .called (.readBytes other _) (.ok bytes) => if other = fd then bytes else []
    | _ => []

theorem received_append (fd : Int) (events more : List (Event OsCall.Reply)) :
    received fd (events ++ more) = received fd events ++ received fd more := List.flatMap_append

variable {σ : Type} {fd : Int}

/-- What is returned is what was received on top of what was received before. -/
theorem ensures_readUpTo (count : Nat) (before : Bytes) :
    Ensures answer (fun past (_ : σ) _ => received fd past = before) (readUpTo fd count)
      (fun line past _ _ => received fd past = before ++ line) (fun _ _ _ _ => True) Never := by
  induction count generalizing before with
  | zero => exact Ensures.done fun _ _ _ h => h.trans (List.append_nil before).symm
  | succ count ih =>
      have hname : (OsCall.readBytes fd 1).name ≠ .waitpid := nofun
      refine Ensures.bind (m := fun byte past _ _ => received fd past = before ++ byte) ?_ fun byte => ?_
      · refine Ensures.request_alone (OsWorld.answer_inner_of_ne hname) (fun past s w byte h _ => ?_)
          fun _ _ _ _ _ _ => trivial
        have hbyte : received fd [.called (.readBytes fd 1) (.ok byte)] = byte :=
          (List.append_nil _).trans (if_pos rfl)
        rw [received_append, h, hbyte]
      · cases byte with
        | nil => exact Ensures.done fun _ _ _ h => h
        | cons first rest =>
            dsimp only
            split
            · exact Ensures.done fun _ _ _ h => h
            · refine Ensures.bind (ih _) fun line => Ensures.done fun _ _ _ h => ?_
              rw [h, List.append_assoc]

theorem footprint_rewind (offset : Int) :
    (rewind fd offset : Program σ OsCall.Reply Unit).Footprint (scope [.seek]) := by
  refine Footprint.bind (Footprint.bind (Footprint.attempt (footprint_ask rfl)) fun place => ?_)
    fun seekable => ?_
  · rcases place with e | place
    · cases e with
      | os errno text => exact Footprint.done _
      | _ => exact Footprint.fail _
    · exact Footprint.done _
  · split
    · exact Footprint.bind (footprint_ask rfl) fun _ => Footprint.done _
    · exact Footprint.done _

/-- Nothing is received on the way to the place to read from. -/
theorem ensures_rewind (offset : Int) :
    Ensures answer (fun past (_ : σ) _ => received fd past = []) (rewind fd offset)
      (fun _ past _ _ => received fd past = []) (fun _ past _ _ => received fd past = []) Never := by
  refine (footprint_rewind offset).ensures (fun c hc past s w h => ?_)
    (fun _ _ _ _ hchange => hchange.elim) (fun entry _ past s w h => ?_)
    fun hstops => absurd hstops Bool.false_ne_true
  · cases c with
    | seek other place whence =>
        have hname : (OsCall.seek other place whence).name ≠ .waitpid := nofun
        rw [received_append, h, OsWorld.answer_inner_of_ne hname]
        rfl
    | _ => cases hc
  · rw [received_append, h]
    rfl

/-- A read returns the bytes that it received, whatever became of the single calls. -/
theorem received_readLine {s : σ} {w : OsWorld} {rounds : Nat} {offset : Int} {capacity : Value}
    {line : Bytes} (h : ((readLine rounds fd offset capacity).run answer s w).ending = .returned line) :
    received fd ((readLine rounds fd offset capacity).run answer s w).events = line := by
  have hensures : Ensures answer (fun past (_ : σ) _ => received fd past = [])
      (readLine rounds fd offset capacity) (fun line past _ _ => received fd past = line)
      (fun _ _ _ _ => True) Never := by
    rw [readLine_eq]
    refine Ensures.bind ((ensures_rewind offset).mono_fails fun _ _ _ _ _ => trivial) fun _ => ?_
    refine Ensures.bind (m := fun _ past _ _ => received fd past = [])
      (Ensures.ofExcept (fun _ _ _ _ _ h => h) fun _ _ _ _ _ _ => trivial) fun count => ?_
    exact ensures_readUpTo count []
  have hrun := hensures [] s w rfl
  rwa [h] at hrun

/-- A read takes one line from its source and nothing else, from the offset where the source can seek
and from where it is otherwise.  It is the line that is cut from a slice, unless the slice ends below
zero, and the line that is read from memory. -/
theorem readLine_isLine (s : σ) (rounds : Nat) {w : OsWorld} (hfaults : w.faults = []) {content : Bytes}
    {position : Nat} (hsource : w.sources.lookup fd = some ⟨content, position⟩) (offset : Nat)
    (capacity : Int) :
    let place := if fd = 0 ∧ w.stdinPipe then position else offset
    ∃ line v events,
      (readLine rounds fd offset (.int capacity)).run answer s w = ⟨.returned line, s, v, events⟩ ∧
      IsLine (content.drop place) capacity line ∧
      (capacity ≤ 0 ∨ content.length ≤ place → line = []) ∧
      Moved fd ⟨content, place + line.length⟩ w v ∧
      received fd events = line ∧
      (0 ≤ place + capacity → line = InMemory.slicedLine content place capacity ∧
        ∀ m : InMemory, m.faults = [] → m.sources.lookup fd = some content →
          (InMemory.answer (.readLine fd place (.int capacity)) m).outcome = .ok line) := by
  intro place
  have hpipe : fd = 0 ∧ w.stdinPipe → (position : Int) = place := fun h => by
    simp only [place, if_pos h]
  have hfree : ¬(fd = 0 ∧ w.stdinPipe) → offset = place := fun h => by
    simp only [place, if_neg h]
  have hsize : (Value.int capacity).toInt? = some capacity := rfl
  -- a pipe is read from where it is, any other source from the offset
  obtain ⟨v, events, hrun, hmoved⟩ := run_readLine_from s rounds hsize hfaults hsource hpipe hfree
  have hline := InMemory.isLine_lineAt content place capacity
  have hreceived : received fd ((readLine rounds fd offset (.int capacity)).run answer s w).events =
      InMemory.lineAt content place capacity := received_readLine (by rw [hrun])
  rw [hrun] at hreceived
  refine ⟨_, v, events, hrun, hline, fun hnone => ?_, hmoved, hreceived,
    fun hends => ⟨?_, fun m hm hhere => ?_⟩⟩
  · exact hline.eq_nil (hnone.imp_right List.drop_eq_nil_of_le)
  · exact (InMemory.slicedLine_eq_lineAt content hends).symm
  · rw [InMemory.answer_of_faults_nil hm]
    simp only [InMemory.serve, hhere, Value.toInt?]

/-- A host on which standard input, with some bytes, was read up to a place. -/
def hostReading (content : Bytes) (position : Nat) (pipe : Bool) : OsWorld :=
  { OsWorld.bare with sources := [(standardInput, ⟨content, position⟩)], stdinPipe := pipe }

/-- On a pipe, which was read up to its second line, the offset makes no difference, and the newline is
the last byte that fits. -/
theorem readLine_isLine_of_pipe :
    let content : Bytes := [0x61, 0x0A, 0x62, 0x63, 0x0A, 0x64]
    let o := (readLine 0 standardInput 7 (.int 3)).run answer () (hostReading content 2 true)
    o.ending = .returned [0x62, 0x63, 0x0A] ∧ received standardInput o.events = [0x62, 0x63, 0x0A] ∧
      IsLine (content.drop 2) 3 [0x62, 0x63, 0x0A] ∧
      Moved standardInput ⟨content, 5⟩ (hostReading content 2 true) o.world ∧
      InMemory.slicedLine content 2 3 = [0x62, 0x63, 0x0A] := by
  intro content o
  have hsource : (hostReading content 2 true).sources.lookup standardInput =
      some ⟨content, (2 : Nat)⟩ := rfl
  obtain ⟨line, v, events, hrun, hline, -, hmoved, hreceived, hsliced⟩ :=
    readLine_isLine () 0 rfl hsource 7 3
  have hslice : InMemory.slicedLine content 2 3 = [0x62, 0x63, 0x0A] := by decide
  obtain rfl : line = [0x62, 0x63, 0x0A] := (hsliced (by decide)).1.trans hslice
  have ho : o = ⟨.returned [0x62, 0x63, 0x0A], (), v, events⟩ := hrun
  rw [ho]
  exact ⟨rfl, hreceived, hline, hmoved, hslice⟩

/-- With a capacity below zero nothing is read, whereas the slice ends one byte before the end. -/
theorem readLine_ne_slicedLine :
    ∃ line, ((readLine 0 standardInput 0 (.int (-1))).run answer ()
        (hostReading [0x61, 0x62] 0 false)).ending = .returned line ∧
      line ≠ InMemory.slicedLine [0x61, 0x62] 0 (-1) :=
  ⟨[], rfl, by decide⟩

end Host

end LineShell
