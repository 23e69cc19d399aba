import LineShell.Proofs.Services.View
import LineShell.Proofs.Text.RoundTrip

/-!
# What a write delivers

The bytes of a text are written until all of them are taken, however few of them each call takes.  What
a descriptor was `delivered` is the bytes that were taken, in order.

A write that returns has delivered the bytes of its text and nothing else, whatever became of the single
calls (`Host.delivered_writeAll`), and where writing goes through it does return (`Host.run_writeAll`).
`Host.Delivers` says both, together with what the text is encoded as.  Text that was decoded delivers
the bytes that it came from, and so does text that was put together from such pieces
(`Host.delivers_flatMap`).
-/

namespace LineShell

open Program

/-- The bytes that a descriptor was delivered: of those that were written the ones that were taken. -/
def delivered (fd : Int) (events : List (Event OsCall.Reply)) : Bytes :=
  events.flatMap fun
    | .called (.writeBytes other bytes) (.ok taken) => if other = fd then bytes.take taken else []
    | _ => []

theorem delivered_append (fd : Int) (events more : List (Event OsCall.Reply)) :
    delivered fd (events ++ more) = delivered fd events ++ delivered fd more := List.flatMap_append

/-- Of what is written first that part is delivered that is taken. -/
theorem delivered_cons_taken (fd : Int) (bytes : Bytes) (taken : Nat) (events : List (Event OsCall.Reply)) :
    delivered fd (.called (.writeBytes fd bytes) (.ok taken) :: events) =
      bytes.take taken ++ delivered fd events := by
  change (if fd = fd then bytes.take taken else []) ++ delivered fd events = _
  rw [if_pos rfl]

/-- What is seen of a run from outside is what standard output was delivered. -/
theorem output_eq_delivered (events : List (Event OsCall.Reply)) :
    View.system.output events = delivered standardOutput events := rfl

/-- Writing goes through: it is not to be hit by a fault, and each call takes something. -/
structure OsWorld.Accepts (w : OsWorld) : Prop where
  unhit : ∀ f ∈ w.faults, f.call ≠ .writeBytes
  takes : w.writeMax ≠ some 0

theorem OsWorld.accepts_of_faults_nil {w : OsWorld} (h : w.faults = []) (htakes : w.writeMax ≠ some 0) :
    w.Accepts := by
  refine ⟨?_, htakes⟩
  rw [h]
  exact List.forall_mem_nil _

namespace Host

open OsCall
open OsWorld (answer)
open Text.Utf8 (encode? decode)

/-- A text comes out as some bytes. -/
structure Delivers (text : Text) (bytes : Bytes) : Prop where
  encoded : encode? text = some bytes
  exact : ∀ {σ : Type} (spare : Nat) (fd : Int) (s : σ) (w : OsWorld),
    ((write spare fd text).run answer s w).ending = .returned () →
      delivered fd ((write spare fd text).run answer s w).events = bytes
  returns : ∀ {σ : Type} (spare : Nat) (fd : Int) (s : σ) (w : OsWorld), w.Accepts →
    ∃ events, (write spare fd text).run answer s w = ⟨.returned (), s, w, events⟩

variable {σ : Type} (s : σ) {w : OsWorld} (fd : Int) {rounds : Nat} {bytes : Bytes} {text : Text}

/-- What was written when all of it was taken is what was to be written. -/
theorem delivered_writeAll (h : ((writeAll fd rounds bytes).run answer s w).ending = .returned ()) :
    delivered fd ((writeAll fd rounds bytes).run answer s w).events = bytes := by
  induction rounds generalizing bytes w with
  | zero =>
      cases bytes with
      | nil => rfl
      | cons byte rest => cases h
  | succ rounds ih =>
      cases bytes with
      | nil => rfl
      | cons byte rest =>
          have hstep : (writeAll fd (rounds + 1) (byte :: rest) : Program σ OsCall.Reply Unit) =
              (ask (.writeBytes fd (byte :: rest))).bind fun taken =>
                writeAll fd rounds ((byte :: rest).drop taken) := rfl
          have hname : (OsCall.writeBytes fd (byte :: rest)).name ≠ .waitpid := nofun
          rw [hstep, run_bind, ask, run_request, OsWorld.answer_inner_of_ne hname] at h ⊢
          cases houtcome : (answer (.writeBytes fd (byte :: rest)) w).outcome with
          | error e =>
              rw [houtcome] at h
              cases h
          | ok taken =>
              rw [houtcome] at h
              have hlater := ih h
              -- what this call took and what is left make up the bytes
              calc delivered fd (.called (.writeBytes fd (byte :: rest)) (.ok taken) ::
                      ((writeAll fd rounds ((byte :: rest).drop taken)).run answer s
                        (answer (.writeBytes fd (byte :: rest)) w).world).events)
                  = (byte :: rest).take taken ++
                      delivered fd ((writeAll fd rounds ((byte :: rest).drop taken)).run answer s
                        (answer (.writeBytes fd (byte :: rest)) w).world).events :=
                    delivered_cons_taken fd _ taken _
                _ = (byte :: rest).take taken ++ (byte :: rest).drop taken := by rw [hlater]
                _ = byte :: rest := List.take_append_drop taken _

/-- Where writing goes through all bytes are taken, and nothing else is done. -/
theorem run_writeAll (hrounds : bytes.length ≤ rounds) (hw : w.Accepts) :
    ∃ events, (writeAll fd rounds bytes).run answer s w = ⟨.returned (), s, w, events⟩ ∧
      View.system.deeds events = [] := by
  induction rounds generalizing bytes with
  | zero =>
      cases bytes with
      | nil => exact ⟨[], rfl, rfl⟩
      | cons => simp at hrounds
  | succ rounds ih =>
      cases bytes with
      | nil => exact ⟨[], rfl, rfl⟩
      | cons byte rest =>
          obtain ⟨taken, hserve⟩ : ∃ taken : Nat,
              w.serve (.writeBytes fd (byte :: rest)) = (.ok taken, w) := ⟨_, rfl⟩
          have hname : (OsCall.writeBytes fd (byte :: rest)).name ≠ .waitpid := nofun
          have hanswer : answer (.writeBytes fd (byte :: rest)) w = ⟨.ok taken, w, []⟩ := by
            rw [OsWorld.answer_of_unhit hw.unhit hname, hserve]
          have hpos : 0 < taken :=
            OsWorld.answer_writeBytes_pos hw.takes (List.cons_ne_nil byte rest) (by rw [hanswer])
          -- with every round there is one byte less at least, so the rounds last
          have hleft : ((byte :: rest).drop taken).length ≤ rounds := by
            rw [List.length_cons] at hrounds
            rw [List.length_drop, List.length_cons]
            omega
          obtain ⟨events, hrun, hdeeds⟩ := ih hleft
          refine ⟨.called (.writeBytes fd (byte :: rest)) (.ok taken) :: events, ?_, hdeeds⟩
          unfold writeAll
          simp only [ask, bind_eq_bind, run_bind, run_request, hanswer, endingOf, Outcome.andThen, hrun]
          rfl

/-- A text delivers the bytes that it is encoded as. -/
theorem delivers_of_encode? (h : encode? text = some bytes) : Delivers text bytes where
  encoded := h
  exact spare fd s w hreturned := by
    simp only [write, h] at hreturned ⊢
    exact delivered_writeAll s fd hreturned
  returns spare fd s w hw := by
    obtain ⟨events, hrun, -⟩ := run_writeAll s fd (Nat.le_add_right bytes.length spare) hw
    refine ⟨events, ?_⟩
    simp only [write, h]
    exact hrun

/-- A text with bytes is written, and its bytes are all that is seen. -/
theorem run_write (spare : Nat) (htext : encode? text = some bytes) (hw : w.Accepts) :
    ∃ events, (write spare standardOutput text).run answer s w = ⟨.returned (), s, w, events⟩ ∧
      View.system.output events = bytes ∧ View.system.deeds events = [] := by
  obtain ⟨events, hrun, hdeeds⟩ :=
    run_writeAll s standardOutput (Nat.le_add_right bytes.length spare) hw
  have hall : delivered standardOutput
      ((writeAll standardOutput (bytes.length + spare) bytes).run answer s w).events = bytes :=
    delivered_writeAll s standardOutput (by rw [hrun])
  rw [hrun] at hall
  refine ⟨events, ?_, (output_eq_delivered events).trans hall, hdeeds⟩
  simp only [write, htext]
  exact hrun

/-- Text that was decoded delivers the bytes that it came from. -/
theorem delivers_decode (bytes : Bytes) : Delivers (decode bytes) bytes :=
  delivers_of_encode? (Text.Utf8.encode?_decode bytes)

/-- Text that was put together from decoded pieces and others with bytes delivers the bytes of all. -/
theorem delivers_flatMap {parts : List (Text × Bytes)}
    (h : ∀ part ∈ parts, part.1 = decode part.2 ∨ encode? part.1 = some part.2) :
    Delivers (parts.flatMap Prod.fst) (parts.flatMap Prod.snd) := by
  refine delivers_of_encode? (Text.Utf8.encode?_flatMap fun part hpart => ?_)
  rcases h part hpart with hdecoded | hencoded
  · rw [hdecoded, Text.Utf8.encode?_decode]
  · exact hencoded

end Host

end LineShell
