import LineShell.Proofs.Line.Pieces
import LineShell.Proofs.Line.Tokens
import LineShell.Proofs.Shell.Footprint
import LineShell.Proofs.Shell.Seen
import LineShell.Proofs.Shell.Start

/-!
# Reading a source

What a shell hands to the built-in commands is made visible by commands that leave a note of it
(`Builtin.noted`), since the hand-over is no call.

`ReadOn` is what holds between two lines of a source: the pieces read so far and the pieces behind
the offset are all the pieces, and the tokens of each were handed over, but for the lines that are
still pending.  It is kept by whatever has nothing to do with the source (`ReadOn.aside`), and a read
and a hand-over lead from one line to the next.
-/

namespace LineShell

open Program LineShell.Action

/-! ## Notes of what is handed over -/

namespace Builtin

/-- The subsystem that leaves the notes. -/
def notedSubsystem : Text := "dispatch"

/-- The note that some tokens are handed to the built-in commands. -/
def handing (tokens : List Text) : Log.Entry :=
  ⟨.debug, notedSubsystem, [], none, [("tokens", .list (tokens.map .text))]⟩

/-- Whether a log entry is a note of what is handed over. -/
def isHanding (entry : Log.Entry) : Bool := entry.subsystem == notedSubsystem

/-- Built-in commands that leave a note of what they are handed. -/
def noted (dispatch : List Text → Action Verdict) (tokens : List Text) : Action Verdict :=
  (Program.log (handing tokens)).bind fun _ => dispatch tokens

@[simp] theorem isHanding_handing (tokens : List Text) : isHanding (handing tokens) = true :=
  beq_self_eq_true notedSubsystem

/-- The shell itself leaves no such notes. -/
theorem isHanding_eq_false {entry : Log.Entry} (h : entry.subsystem ∈ Shell.subsystems) :
    isHanding entry = false := by
  simp only [Shell.subsystems, List.mem_cons, List.not_mem_nil, or_false] at h
  rcases h with h | h <;> rw [isHanding, h] <;> rfl

end Builtin

/-! ## What a run shows of a source -/

/-- The notes of what was handed over. -/
def handings (events : List (Event ServiceCall.Reply)) : List Log.Entry :=
  (Event.entries events).filter Builtin.isHanding

@[simp] theorem handings_append (events more : List (Event ServiceCall.Reply)) :
    handings (events ++ more) = handings events ++ handings more := by
  simp [handings, Event.entries]

@[simp] theorem handings_called (c : ServiceCall) (outcome : Except Failure c.Reply) :
    handings [.called c outcome] = [] := rfl

/-- An event that is neither a read nor a note. -/
def Event.Aside : Event ServiceCall.Reply → Prop
  | .called c _ => c.name ≠ .readLine
  | .logged entry => Builtin.isHanding entry = false

theorem chunks_of_aside {e : Event ServiceCall.Reply} (h : e.Aside) : chunks [e] = [] := by
  cases e with
  | called c outcome =>
      cases c with
      | readLine fd offset size => exact absurd rfl h
      | _ => rfl
  | logged entry => rfl

theorem handings_of_aside {e : Event ServiceCall.Reply} (h : e.Aside) : handings [e] = [] := by
  cases e with
  | called c outcome => rfl
  | logged entry => exact List.filter_cons_of_neg (Bool.eq_false_iff.mp h)

/-- Splitting a line changes nothing but the buffer, and comes to the tokens of the line where the line
fits and the marker is a byte.  There are no calls, so it makes no difference how they are carried out. -/
theorem Shell.run_tokenize_cases {Call World : Type} {Reply : Call → Type}
    (answer : (c : Call) → World → Answer World Reply c)
    (carryOut : (c : ServiceCall) → Program Session Reply c.Reply) (shell : Shell) (chunk : Bytes)
    (s : Session) (w : World) :
    ∃ ending line, s.line.SameSize line ∧
      ((shell.tokenize chunk).interpret carryOut).run answer s w =
        ⟨ending, { s with line := line }, w, []⟩ ∧
      (ending = .returned (Line.tokens (UInt8.ofNat shell.marker.val) chunk) ∨
        ∃ e, ending = .failed e ∧ ¬(shell.marker.val < 256 ∧ chunk.length ≤ s.line.capacity)) := by
  cases hfill : s.line.fill chunk with
  | error e =>
      refine ⟨.failed e, s.line, LineBuffer.SameSize.refl _, ?_, .inr ⟨e, rfl, fun h => ?_⟩⟩
      · simp only [tokenize, bind_eq_bind, interpret_bind, interpret_state, interpret_ofExcept,
          run_bind, run_state, Outcome.andThen, hfill, run_ofExcept_error, List.append_nil]
      · obtain ⟨filled, hfilled⟩ := LineBuffer.fill_of_le h.2
        rw [hfilled] at hfill
        cases hfill
  | ok loaded =>
      obtain ⟨count, filled⟩ := loaded
      have hstripped := (LineBuffer.sameSize_fill hfill).trans filled.sameSize_stripNewline
      by_cases hmarker : shell.marker.val < 256
      · obtain ⟨vector, split, htokenize, htokens⟩ := LineBuffer.tokens_of_fill hmarker hfill
        refine ⟨_, split, hstripped.trans (LineBuffer.sameSize_tokenize htokenize), ?_, .inl rfl⟩
        simp only [tokenize, bind_eq_bind, interpret_bind, interpret_state, interpret_ofExcept,
          interpret_update, run_bind, run_state, Outcome.andThen, hfill, run_ofExcept_ok, run_update,
          htokenize, htokens, List.append_nil]
      -- the line is in the buffer by now, so it has changed
      · obtain ⟨e, htokenize⟩ : ∃ e, filled.stripNewline.tokenize shell.marker = .error e :=
          ⟨_, filled.stripNewline.tokenize_of_not_lt hmarker⟩
        refine ⟨.failed e, filled.stripNewline, hstripped, ?_, .inr ⟨e, rfl, fun h => hmarker h.1⟩⟩
        simp only [tokenize, bind_eq_bind, interpret_bind, interpret_state, interpret_ofExcept,
          interpret_update, run_bind, run_state, Outcome.andThen, hfill, run_ofExcept_ok, run_update,
          htokenize, run_ofExcept_error, List.append_nil]

/-- A line that fits is split into its tokens. -/
theorem Shell.run_tokenize {World : Type}
    (answer : (c : ServiceCall) → World → Answer World ServiceCall.Reply c) {shell : Shell}
    (hmarker : shell.marker.val < 256) {chunk : Bytes} {s : Session}
    (hfit : chunk.length ≤ s.line.capacity) (w : World) :
    ∃ line, s.line.SameSize line ∧ (shell.tokenize chunk).run answer s w =
      ⟨.returned (Line.tokens (UInt8.ofNat shell.marker.val) chunk), { s with line := line }, w, []⟩ := by
  rw [← interpret_self (shell.tokenize chunk)]
  obtain ⟨ending, line, hsame, hrun, hends⟩ := run_tokenize_cases answer request shell chunk s w
  rcases hends with rfl | ⟨e, -, hnot⟩
  · exact ⟨line, hsame, hrun⟩
  · exact absurd ⟨hmarker, hfit⟩ hnot

/-- Splitting a line that fits keeps whatever does not depend on what the buffer holds. -/
theorem Shell.ensures_tokens {World : Type}
    {answer : (c : ServiceCall) → World → Answer World ServiceCall.Reply c} {shell : Shell}
    (hmarker : shell.marker.val < 256) {chunk : Bytes}
    {I : Assertion Session World ServiceCall.Reply}
    (hfit : ∀ past s w, I past s w → chunk.length ≤ s.line.capacity)
    (hkept : ∀ past s w line, I past s w → s.line.SameSize line → I past { s with line := line } w) :
    Ensures answer I (shell.tokenize chunk)
      (fun tokens past s w => tokens = Line.tokens (UInt8.ofNat shell.marker.val) chunk ∧ I past s w)
      (fun _ => Never) Never := by
  intro past s w h
  obtain ⟨line, hsame, hrun⟩ := run_tokenize answer hmarker (hfit past s w h) w
  rw [hrun, List.append_nil]
  exact ⟨rfl, hkept past s w line h hsame⟩

/-! ## Between two lines -/

/-- A source that is read with a buffer of a size. -/
structure Reader where
  marker : UInt8
  buffer : LineBuffer
  fd : Int
  content : Bytes

namespace Reader

/-- The pieces of the source. -/
def pieces (r : Reader) : List Bytes := Line.pieces r.buffer.capacity r.content

/-- The note of the tokens of a line. -/
def note (r : Reader) (chunk : Bytes) : Log.Entry := Builtin.handing (Line.tokens r.marker chunk)

/-- Every read so far was one of the source, behind all the lines read before it. -/
def Placed (r : Reader) (past : List (Event ServiceCall.Reply)) : Prop :=
  ∀ before fd offset size outcome after,
    past = before ++ .called (.readLine fd offset size) outcome :: after →
      fd = r.fd ∧ size = r.buffer.size ∧ offset = ((chunks before).flatten.length : Int)

/-- What holds between two steps of reading a source up to an offset: lines that were read but not
handed over yet are pending, and the budget bounds the rounds that are still needed. -/
structure ReadOn (r : Reader) (offset : Nat) (pending : List Bytes) (budget : Nat)
    (past : List (Event ServiceCall.Reply)) (s : Session) (w : InMemory) : Prop where
  buffer : r.buffer.SameSize s.line
  content : w.sources.lookup r.fd = some r.content
  pieces : r.pieces = chunks past ++ Line.pieces r.buffer.capacity (r.content.drop offset)
  passed : (chunks past).flatten.length = offset
  inside : offset ≤ r.content.length
  handed : handings past ++ pending.map r.note = (chunks past).map r.note
  placed : r.Placed past
  budget : w.faults.length + (r.content.length - offset) ≤ budget

variable {r : Reader} {past : List (Event ServiceCall.Reply)} {s t : Session} {w v : InMemory}
  {offset budget : Nat} {pending : List Bytes}

theorem Placed.concat {e : Event ServiceCall.Reply}
    (he : ∀ fd offset size outcome, e ≠ .called (.readLine fd offset size) outcome)
    (h : r.Placed past) : r.Placed (past ++ [e]) := by
  intro before fd offset size outcome after hsplit
  rcases concat_eq_append_cons hsplit with ⟨-, -, hlast⟩ | ⟨rest, -, hpast⟩
  · exact absurd hlast (he fd offset size outcome)
  · exact h before fd offset size outcome rest hpast

theorem Placed.read {outcome : Except Failure Bytes} (h : r.Placed past)
    (hoffset : (chunks past).flatten.length = offset) :
    r.Placed (past ++ [.called (.readLine r.fd offset r.buffer.size) outcome]) := by
  intro before fd place size outcome' after hsplit
  rcases concat_eq_append_cons hsplit with ⟨-, rfl, hlast⟩ | ⟨rest, -, hpast⟩
  · cases hlast
    exact ⟨rfl, rfl, by rw [hoffset]⟩
  · exact h before fd place size outcome' rest hpast

/-- An event that is seen neither as a line that was read nor as a note. -/
theorem ReadOn.concat {e : Event ServiceCall.Reply} (hchunks : chunks [e] = [])
    (hhandings : handings [e] = []) (hplaced : r.Placed (past ++ [e]))
    (h : ReadOn r offset pending budget past s w) :
    ReadOn r offset pending budget (past ++ [e]) s w := by
  have hread : chunks (past ++ [e]) = chunks past := by rw [chunks_append, hchunks, List.append_nil]
  have hnoted : handings (past ++ [e]) = handings past := by
    rw [handings_append, hhandings, List.append_nil]
  refine { h with pieces := ?_, passed := ?_, handed := ?_, placed := hplaced }
  · rw [hread]
    exact h.pieces
  · rw [hread]
    exact h.passed
  · rw [hread, hnoted]
    exact h.handed

/-- An event aside, with a change that concerns neither the buffer nor the source. -/
theorem ReadOn.aside {e : Event ServiceCall.Reply} (he : e.Aside)
    (hbuffer : s.line.SameSize t.line) (hsources : v.sources = w.sources)
    (hfaults : v.faults.length ≤ w.faults.length) (h : ReadOn r offset pending budget past s w) :
    ReadOn r offset pending budget (past ++ [e]) t v := by
  have hplaced : r.Placed (past ++ [e]) := h.placed.concat fun fd offset size outcome heq => by
    subst heq
    exact he rfl
  exact { h.concat (chunks_of_aside he) (handings_of_aside he) hplaced with
    buffer := h.buffer.trans hbuffer
    content := by rw [hsources]; exact h.content
    budget := Nat.le_trans (Nat.add_le_add_right hfaults _) h.budget }

/-- A read that brings nothing. -/
theorem ReadOn.readNothing {outcome : Except Failure Bytes}
    (hnone : chunks [.called (.readLine r.fd offset r.buffer.size) outcome] = [])
    (hsources : v.sources = w.sources)
    (hbudget : v.faults.length + (r.content.length - offset) ≤ budget) {larger : Nat}
    (h : ReadOn r offset [] larger past s w) :
    ReadOn r offset [] budget (past ++ [.called (.readLine r.fd offset r.buffer.size) outcome]) s v :=
  { h.concat hnone rfl (h.placed.read h.passed) with
    content := by rw [hsources]; exact h.content
    budget := hbudget }

/-- A read that brings the next piece. -/
theorem ReadOn.readPiece {chunk : Bytes} (hr : r.buffer.Sized) (hne : chunk ≠ [])
    (hchunk : chunk = InMemory.lineAt r.content offset r.buffer.capacity)
    (hsources : v.sources = w.sources) (hfaults : v.faults.length ≤ w.faults.length)
    (h : ReadOn r offset [] (budget + 1) past s w) :
    ReadOn r (offset + chunk.length) [chunk] budget
      (past ++ [.called (.readLine r.fd offset r.buffer.size) (.ok chunk)]) s v := by
  have hread : chunks [.called (.readLine r.fd offset r.buffer.size) (.ok chunk)] = [chunk] := by
    cases chunk with
    | nil => exact absurd rfl hne
    | cons => rfl
  -- the pieces behind the offset are this one and the pieces behind it
  have hnext := @InMemory.pieces_eq_lineAt_cons r.content offset r.buffer.capacity
    (Int.natCast_pos.mpr hr.pos) (hchunk ▸ hne)
  rw [← hchunk, Int.toNat_natCast, Int.toNat_natCast] at hnext
  have hlength : 0 < chunk.length := List.length_pos_iff.mpr hne
  have hinside : offset + chunk.length ≤ r.content.length := by
    rw [hchunk]
    exact InMemory.add_length_lineAt_le h.inside
  have hbudget := h.budget
  constructor
  · exact h.buffer
  · rw [hsources]
    exact h.content
  · rw [chunks_append, hread, List.append_assoc, List.singleton_append, ← hnext]
    exact h.pieces
  · rw [chunks_append, hread, List.flatten_append, List.length_append, h.passed]
    simp
  · exact hinside
  · -- nothing was pending before, so all that was read before was handed over
    have hhanded := h.handed
    rw [List.map_nil, List.append_nil] at hhanded
    rw [chunks_append, hread, handings_append, handings_called, List.append_nil, hhanded,
      List.map_append]
  · exact h.placed.read h.passed
  · omega

/-- The pending line is handed over. -/
theorem ReadOn.handOver {chunk : Bytes} (h : ReadOn r offset [chunk] budget past s w) :
    ReadOn r offset [] budget (past ++ [.logged (r.note chunk)]) s w := by
  have hnote : handings [.logged (r.note chunk)] = [r.note chunk] :=
    List.filter_cons_of_pos (Builtin.isHanding_handing _)
  have hchunks : chunks (past ++ [.logged (r.note chunk)]) = chunks past := by
    rw [chunks_append]
    exact List.append_nil _
  refine ⟨h.buffer, h.content, ?_, ?_, h.inside, ?_, ?_, h.budget⟩
  · rw [hchunks]
    exact h.pieces
  · rw [hchunks]
    exact h.passed
  · rw [hchunks, handings_append, hnote, List.map_nil, List.append_nil]
    exact h.handed
  · exact h.placed.concat fun _ _ _ _ heq => by cases heq

end Reader

end LineShell
