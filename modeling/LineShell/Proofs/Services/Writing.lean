import LineShell.Proofs.Services.Delivery

/-!
# How a write goes on

Each call of a write may take a part of the bytes only, and then the write goes on with the rest.
`Host.Written` is what can be seen of it: one call after another takes something, until nothing is left
or a call fails.  Where each call takes something, a write goes on in this way and comes to an end
(`Host.written_writeAll`).

Nothing is lost and nothing is written twice: what was taken and what is left are the bytes of the text,
and when a call fails the bytes taken before it are their front part.  The main result is
`Host.write_losesNothing`.
-/

namespace LineShell

open Program

namespace Host

open OsCall
open OsWorld (answer)
open Text.Utf8 (encode?)

/-- What is seen of writing some bytes to a descriptor, and how it ends. -/
inductive Written (fd : Int) :
    (bytes : Bytes) → (events : List (Event OsCall.Reply)) → Ending Unit → Prop
  /-- Nothing is left. -/
  | finished : Written fd [] [] (.returned ())
  /-- Some bytes are taken, and the others are written. -/
  | taken {bytes : Bytes} {count : Nat} {events : List (Event OsCall.Reply)} {ending : Ending Unit}
      (hleft : bytes ≠ []) (hcount : 0 < count) (hrest : Written fd (bytes.drop count) events ending) :
      Written fd bytes (.called (.writeBytes fd bytes) (.ok count) :: events) ending
  /-- A call fails, and so does the write. -/
  | refused {bytes : Bytes} {e : Failure} (hleft : bytes ≠ []) :
      Written fd bytes [.called (.writeBytes fd bytes) (.error e)] (.failed e)

/-- A part of some bytes that is written to a descriptor, and that is taken. -/
def Took (fd : Int) (event : Event OsCall.Reply) : Prop :=
  ∃ bytes count, event = .called (.writeBytes fd bytes) (.ok count) ∧ bytes ≠ [] ∧ 0 < count

variable {σ : Type} {fd : Int} {bytes : Bytes} {events : List (Event OsCall.Reply)}
  {ending : Ending Unit}

/-- A write ends with all of the bytes taken, or with the failure of the last call, before which their
front part was taken. -/
theorem Written.parts (h : Written fd bytes events ending) :
    (ending = .returned () ∧ (∀ event ∈ events, Took fd event) ∧ delivered fd events = bytes ∧
      (events = [] ↔ bytes = [])) ∨
    ∃ before left e, events = before ++ [.called (.writeBytes fd left) (.error e)] ∧ ending = .failed e ∧
      (∀ event ∈ before, Took fd event) ∧ delivered fd before ++ left = bytes ∧ left ≠ [] := by
  induction h with
  | finished => exact .inl ⟨rfl, List.forall_mem_nil _, rfl, iff_of_true rfl rfl⟩
  | @taken bytes count events ending hleft hcount _ ih =>
      have htook : Took fd (.called (.writeBytes fd bytes) (.ok count)) :=
        ⟨bytes, count, rfl, hleft, hcount⟩
      rcases ih with ⟨rfl, hall, hrest, -⟩ | ⟨before, left, e, rfl, rfl, hall, hrest, hne⟩
      · refine .inl ⟨rfl, List.forall_mem_cons.mpr ⟨htook, hall⟩, ?_, iff_of_false nofun hleft⟩
        rw [delivered_cons_taken, hrest, List.take_append_drop]
      · refine .inr ⟨_ :: before, left, e, rfl, rfl, List.forall_mem_cons.mpr ⟨htook, hall⟩, ?_, hne⟩
        rw [delivered_cons_taken, List.append_assoc, hrest, List.take_append_drop]
  | @refused bytes e hleft => exact .inr ⟨[], bytes, e, rfl, rfl, List.forall_mem_nil _, rfl, hleft⟩

theorem run_writeAll_nil (s : σ) (w : OsWorld) (rounds : Nat) :
    (writeAll fd rounds []).run answer s w = ⟨.returned (), s, w, []⟩ := by
  cases rounds <;> rfl

/-- Where each call takes something, as many rounds as there are bytes are enough for a write. -/
theorem written_writeAll (s : σ) {w : OsWorld} {rounds : Nat} (hrounds : bytes.length ≤ rounds)
    (htakes : w.writeMax ≠ some 0) :
    Written fd bytes ((writeAll fd rounds bytes).run answer s w).events
      ((writeAll fd rounds bytes).run answer s w).ending := by
  induction rounds generalizing bytes w with
  | zero =>
      obtain rfl := List.eq_nil_of_length_eq_zero (Nat.le_zero.mp hrounds)
      rw [run_writeAll_nil]
      exact .finished
  | succ rounds ih =>
      cases bytes with
      | nil =>
          rw [run_writeAll_nil]
          exact .finished
      | cons byte rest =>
          have hleft := List.cons_ne_nil byte rest
          have hname : (OsCall.writeBytes fd (byte :: rest)).name ≠ .waitpid := nofun
          have hstep : (writeAll fd (rounds + 1) (byte :: rest) : Program σ OsCall.Reply Unit) =
              (ask (.writeBytes fd (byte :: rest))).bind fun taken =>
                writeAll fd rounds ((byte :: rest).drop taken) := rfl
          rw [hstep, run_bind, ask, run_request, OsWorld.answer_inner_of_ne hname]
          cases houtcome : (answer (.writeBytes fd (byte :: rest)) w).outcome with
          | error e => exact .refused hleft
          | ok taken =>
              have htaken : 0 < taken := OsWorld.answer_writeBytes_pos htakes hleft houtcome
              -- the rounds that are left are enough for the bytes that are left
              have hroom : ((byte :: rest).drop taken).length ≤ rounds := by
                rw [List.length_drop]
                exact Nat.le_of_lt_succ (Nat.lt_of_lt_of_le (Nat.sub_lt (Nat.succ_pos _) htaken) hrounds)
              have hstill : (answer (.writeBytes fd (byte :: rest)) w).world.writeMax ≠ some 0 := by
                rwa [OsWorld.answer_writeMax]
              exact .taken hleft htaken (ih hroom hstill)

/-- Where each call takes something, writing a text comes to an end.  For a text without bytes no call is
made.  Otherwise it returns when all of its bytes were taken, in order and nothing else; or a call fails,
which is the last one and the failure of the write, and the bytes taken before it are the front part of
the text. -/
theorem write_losesNothing (s : σ) (spare : Nat) (fd : Int) (text : Text) {w : OsWorld}
    (htakes : w.writeMax ≠ some 0) :
    let o := (write spare fd text).run answer s w
    o.ending ≠ .outOfRounds ∧
    (text = [] → o.ending = .returned () ∧ o.events = []) ∧
    (encode? text = none → o.ending = .failed .unencodable ∧ o.events = []) ∧
    ∀ bytes, encode? text = some bytes →
      (o.ending = .returned () ∧ (∀ event ∈ o.events, Took fd event) ∧ delivered fd o.events = bytes ∧
        (o.events = [] ↔ bytes = [])) ∨
      ∃ before left e, o.events = before ++ [.called (.writeBytes fd left) (.error e)] ∧
        o.ending = .failed e ∧ (∀ event ∈ before, Took fd event) ∧ delivered fd before ++ left = bytes ∧
        left ≠ [] := by
  intro o
  have hempty : text = [] → o.ending = .returned () ∧ o.events = [] := by
    rintro rfl
    have ho : o = ⟨.returned (), s, w, []⟩ := run_writeAll_nil s w (0 + spare)
    rw [ho]
    exact ⟨rfl, rfl⟩
  -- a text without bytes is refused before anything is written
  cases hencode : encode? text with
  | none =>
      have ho : o = ⟨.failed .unencodable, s, w, []⟩ := by
        simp only [o, write, hencode, run_fail]
      rw [ho] at hempty ⊢
      refine ⟨fun hstops => ?_, hempty, fun _ => ⟨rfl, rfl⟩, fun bytes hbytes => ?_⟩
      · cases hstops
      · cases hbytes
  | some bytes =>
      have ho : o = (writeAll fd (bytes.length + spare) bytes).run answer s w := by
        simp only [o, write, hencode]
      have hwritten : Written fd bytes o.events o.ending := by
        rw [ho]
        exact written_writeAll s (Nat.le_add_right _ spare) htakes
      refine ⟨fun hstops => ?_, hempty, fun hnone => ?_, fun _ hbytes => ?_⟩
      · rcases hwritten.parts with ⟨hend, -⟩ | ⟨_, _, _, -, hend, -⟩
        · cases hend.symm.trans hstops
        · cases hend.symm.trans hstops
      · cases hnone
      · cases hbytes
        exact hwritten.parts

/-- Two bytes are taken at a time, and the second call fails: the text of four bytes is broken off inside
its second character. -/
theorem write_losesNothing_of_brokenOff :
    let w : OsWorld := { OsWorld.bare with
      writeMax := some 2
      faults := [⟨.writeBytes, 2, .os (some 28) "No space left on device"⟩] }
    let o := (write 0 standardOutput [0x61, 0x20AC]).run answer () w
    delivered standardOutput o.events = [0x61, 0xE2] ∧
      ∃ before left e, o.events = before ++ [.called (.writeBytes standardOutput left) (.error e)] ∧
        o.ending = .failed e ∧ (∀ event ∈ before, Took standardOutput event) ∧
        delivered standardOutput before ++ left = [0x61, 0xE2, 0x82, 0xAC] ∧ left ≠ [] := by
  intro w o
  have hfailed : o.ending = .failed (.os (some 28) "No space left on device") := rfl
  obtain ⟨-, -, -, hparts⟩ := write_losesNothing () 0 standardOutput [0x61, 0x20AC] (w := w) (by decide)
  rcases hparts [0x61, 0xE2, 0x82, 0xAC] (by decide) with ⟨hreturned, -⟩ | hbroken
  · cases hfailed.symm.trans hreturned
  · exact ⟨by decide, hbroken⟩

end Host

end LineShell
