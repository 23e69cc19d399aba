import LineShell.Proofs.Program.Ensures
import LineShell.Proofs.Services.InMemory
import LineShell.Proofs.Shell.Footprint

/-!
# Enough rounds

The loop over the lines of a source goes on after a line that was read, which leaves less of the source
to be read, and after an interrupt at the prompt, which is a fault that does not come again.  The bytes
that are left and the faults that are left, taken together, get fewer with each round
(`Shell.ensures_reading`), so a loop with more rounds than that ends before its rounds are used up.

No source is longer than the longest one at the start, and no run meets more faults than there were at
the start.  The main result is `Shell.run_ne_outOfRounds`: with more rounds than these two together no
run stops for want of rounds, whatever its calls are answered with.
-/

namespace LineShell

open Program LineShell.Action

namespace InMemory

/-- The number of bytes of a source behind an offset. -/
def unread (w : InMemory) (fd offset : Int) : Nat :=
  ((w.sources.lookup fd).getD []).length - offset.toNat

/-- No source is longer than the longest one, whatever is opened. -/
def Roomy (rounds : Nat) (w : InMemory) : Prop := w.longestSource + w.faults.length < rounds

variable {w : InMemory} {fd offset : Int} {rounds left : Nat}

theorem unread_le_longestSource (w : InMemory) (fd offset : Int) :
    w.unread fd offset ≤ w.longestSource := by
  rw [unread]
  cases hsource : w.sources.lookup fd with
  | none => simp
  | some content =>
      have hlength : content.length ≤ w.longestSource := length_source_le hsource
      simp only [Option.getD_some]
      omega

theorem Roomy.answer (c : ServiceCall) (h : w.Roomy rounds) : (answer c w).world.Roomy rounds := by
  have hlongest := longestSource_answer_le c w
  have hfaults := length_faults_answer_le c w
  unfold Roomy at *
  omega

/-- A line that was read is behind the offset no more. -/
theorem unread_of_answer_readLine {size : Value} {byte : UInt8} {rest : Bytes} (hoffset : 0 ≤ offset)
    (h : (InMemory.answer (.readLine fd offset size) w).outcome = .ok (byte :: rest)) :
    (InMemory.answer (.readLine fd offset size) w).world.unread fd (offset + (byte :: rest).length) <
      w.unread fd offset := by
  have hsources := answer_sources (c := .readLine fd offset size) nofun nofun w
  rw [unread, unread, hsources]
  rcases answer_cases (.readLine fd offset size) w with ⟨e, hc⟩ | hc
  · rw [hc] at h
    cases h
  rw [hc] at h
  simp only [serve] at h
  cases hsource : (w.ready (ServiceCall.readLine fd offset size).name).sources.lookup fd with
  | none =>
      rw [hsource] at h
      cases h
  | some content =>
      cases hsize : size.toInt? with
      | none =>
          rw [hsource, hsize] at h
          cases h
      | some n =>
          rw [hsource, hsize] at h
          have hline : lineAt content offset n = byte :: rest := Except.ok.inj h
          have hsource : w.sources.lookup fd = some content := hsource
          rw [hsource, Option.getD_some]
          -- some of the content is behind the offset, since the line is from there
          have hroom : offset.toNat < content.length := by
            refine Nat.lt_of_not_le fun hend => ?_
            rw [lineAt, List.drop_eq_nil_of_le hend, List.take_nil] at hline
            cases hline
          have hlength : (byte :: rest).length = rest.length + 1 := List.length_cons
          omega

/-- An interrupt at a read is a fault. -/
theorem faults_of_answer_interrupt {size : Value}
    (h : (InMemory.answer (.readLine fd offset size) w).outcome = .error .interrupt) :
    (InMemory.answer (.readLine fd offset size) w).world.faults.length < w.faults.length := by
  cases hhit : Fault.hit? w.faults (ServiceCall.readLine fd offset size).name with
  | some e =>
      rw [answer_hit hhit]
      exact Fault.length_advance_lt hhit
  | none =>
      rw [answer_miss hhit] at h
      simp only [serve] at h
      split at h <;> cases h

end InMemory

namespace Shell

variable {shell : Shell} {fd offset : Int} {rounds left : Nat}

/-- A world with room for all that is to come. -/
def Room (rounds : Nat) : Assertion Session InMemory ServiceCall.Reply :=
  fun _ _ w => w.Roomy rounds

/-- Besides, what is left of a source and of the faults is bounded. -/
def Left (rounds : Nat) (fd offset : Int) (left : Nat) :
    Assertion Session InMemory ServiceCall.Reply :=
  fun _ _ w => w.Roomy rounds ∧ w.unread fd offset + w.faults.length < left

theorem ensures_room {α : Type} {p : Action α} {names : List ServiceCall.Name}
    {parts : List Session.Part} (hp : p.Footprint (scope names parts)) :
    Ensures InMemory.answer (Room rounds) p (fun _ => Room rounds) (fun _ => Room rounds) Never :=
  hp.ensures (fun c _ _ _ _ h => h.answer c) (fun _ _ _ _ _ h => h) (fun _ _ _ _ _ h => h)
    fun hstops => nomatch hstops

/-- What opens and closes nothing leaves the source as it is. -/
theorem ensures_left {α : Type} {p : Action α} {names : List ServiceCall.Name}
    {parts : List Session.Part} (hp : p.Footprint (scope names parts))
    (hnames : names.all sourceServices.contains) :
    Ensures InMemory.answer (Left rounds fd offset left) p (fun _ => Left rounds fd offset left)
      (fun _ => Room rounds) Never := by
  have hkept : Ensures InMemory.answer (Left rounds fd offset left) p
      (fun _ => Left rounds fd offset left) (fun _ => Left rounds fd offset left) Never := by
    refine hp.ensures (fun c hc past s w h => ⟨h.1.answer c, ?_⟩) (fun _ _ _ _ _ h => h)
      (fun _ _ _ _ _ h => h) fun hstops => nomatch hstops
    have hmem : sourceServices.contains c.name :=
      List.all_eq_true.mp hnames _ (List.contains_iff_mem.mp hc)
    have hopen : c.name ≠ .openReadOnly := name_ne_of_mem hmem rfl
    have hclose : c.name ≠ .close := name_ne_of_mem hmem rfl
    have hfaults := InMemory.length_faults_answer_le c w
    have hleft := h.2
    rw [InMemory.unread] at hleft ⊢
    rw [InMemory.answer_sources hopen hclose]
    omega
  exact hkept.mono_fails fun _ _ _ _ h => h.1

/-- After a line, and after an interrupt, less is left than before. -/
theorem ensures_reading (interactive : Bool) (hoffset : 0 ≤ offset) :
    Ensures InMemory.answer (Left rounds fd offset (left + 1)) (readLine interactive fd offset)
      (fun reading =>
        match reading with
        | .line chunk => Left rounds fd (offset + chunk.length) left
        | .interrupted => Left rounds fd offset left
        | .exhausted => Room rounds)
      (fun _ => Room rounds) Never := by
  refine Ensures.state_bind fun s => Ensures.weaken ?_ fun _ _ _ h => h.2
  have hread : Ensures InMemory.answer (Left rounds fd offset (left + 1))
      (ask (.readLine fd offset s.line.size))
      (fun (chunk : Bytes) past t w => w.Roomy rounds ∧
        (chunk ≠ [] → Left rounds fd (offset + chunk.length) left past t w))
      (fun e past t w => w.Roomy rounds ∧ (e = .interrupt → Left rounds fd offset left past t w))
      Never := by
    refine Ensures.request_alone (InMemory.answer_inner _) (fun past t w chunk h hchunk => ?_)
      fun past t w e h he => ?_
    · refine ⟨h.1.answer _, fun hne => ⟨h.1.answer _, ?_⟩⟩
      obtain ⟨byte, rest, rfl⟩ := List.exists_cons_of_ne_nil hne
      -- a line takes a byte from what is unread
      have hunread := InMemory.unread_of_answer_readLine hoffset hchunk
      have hfaults := InMemory.length_faults_answer_le (.readLine fd offset s.line.size) w
      have hleft := h.2
      omega
    · refine ⟨h.1.answer _, fun hinterrupt => ⟨h.1.answer _, ?_⟩⟩
      subst hinterrupt
      -- an interrupt takes a fault
      have hfaults := InMemory.faults_of_answer_interrupt he
      have hsources := InMemory.answer_sources (c := .readLine fd offset s.line.size) nofun nofun w
      have hleft := h.2
      rw [InMemory.unread] at hleft ⊢
      rw [hsources]
      omega
  refine Ensures.bind hread.attempt fun outcome => ?_
  rcases outcome with e | chunk
  · cases e with
    | interrupt =>
        cases interactive with
        | false => exact Ensures.fail fun _ _ _ h => h.1
        | true =>
            refine Ensures.bind ((ensures_left (footprint_print "\n") rfl).weaken
              fun _ _ _ h => h.2 rfl) fun _ => ?_
            exact Ensures.done fun _ _ _ h => h
    | os errno text =>
        have hsay : (say .error (("Read failed: " : Text) ++ Failure.osMessage errno text)
            [("fd", .int fd)]).Footprint (scope [] []) := footprint_say _ _ _
        refine Ensures.bind ((ensures_room hsay).weaken fun _ _ _ h => h.1) fun _ => ?_
        exact Ensures.done fun _ _ _ h => h
    | _ => exact Ensures.fail fun _ _ _ h => h.1
  · cases chunk with
    | nil => exact Ensures.done fun _ _ _ h => h.1
    | cons byte rest => exact Ensures.done fun _ _ _ h => h.2 (List.cons_ne_nil _ _)

/-- Each round but the last leaves less for the next one. -/
theorem runFrom_withinRounds (interactive : Bool) (hoffset : 0 ≤ offset) :
    Ensures InMemory.answer (Left rounds fd offset left)
      (shell.runFrom (Builtin.dispatch shell.home) fd interactive left offset)
      (fun _ => Room rounds) (fun _ => Room rounds) Never := by
  induction left generalizing offset with
  | zero => exact Ensures.outOfRounds fun _ _ _ h => Nat.not_lt_zero _ h.2
  | succ left ih =>
      refine Ensures.bind (ensures_left (shell.footprint_announce interactive) rfl) fun _ => ?_
      refine Ensures.bind (ensures_reading interactive hoffset) fun reading => ?_
      cases reading with
      | exhausted => exact Ensures.done fun _ _ _ h => h
      | interrupted => exact ih hoffset
      | line chunk =>
          refine Ensures.bind (ensures_left (shell.footprint_runLine interactive chunk) rfl)
            fun next => ?_
          cases next with
          | leaveAll => exact Ensures.done fun _ _ _ h => h.1
          | leaveSource => exact Ensures.done fun _ _ _ h => h.1
          | goOn => exact ih (by omega)

theorem runSource_withinRounds (fd : Int) (interactive : Bool) :
    Ensures InMemory.answer (Room rounds) (shell.runSource rounds fd interactive)
      (fun _ => Room rounds) (fun _ => Room rounds) Never := by
  refine (runFrom_withinRounds interactive (Int.le_refl 0)).weaken fun _ _ w h => ⟨h, ?_⟩
  exact Nat.lt_of_le_of_lt (Nat.add_le_add_right (w.unread_le_longestSource fd 0) _) h

theorem runScript_withinRounds (script : Text) :
    Ensures InMemory.answer (Room rounds) (shell.runScript rounds script) (fun _ => Room rounds)
      (fun _ => Room rounds) Never := by
  refine Ensures.state_bind fun s => Ensures.weaken ?_ fun _ _ _ h => h.2
  refine Ensures.bind (ensures_room (@footprint_ask [.getPath] [] false .getPath rfl))
    fun searchPath => ?_
  refine Ensures.bind (ensures_room (footprint_resolve script s.cwd searchPath)) fun path => ?_
  refine Ensures.bind (ensures_room (footprint_openScript path)) fun opened => ?_
  cases opened with
  | none => exact Ensures.done fun _ _ _ h => h
  | some fd =>
      refine Ensures.bind (ensures_room (@footprint_say [] [] false _ _ _)) fun _ => ?_
      have hclose := @ensures_room rounds _ _ _ _ (@footprint_ask [.close] [] false (.close fd) rfl)
      exact Ensures.andFinally (runSource_withinRounds fd false) (fun _ => hclose) fun _ => hclose

theorem runScripts_withinRounds (scripts : List Text) :
    Ensures InMemory.answer (Room rounds) (shell.runScripts rounds scripts) (fun _ => Room rounds)
      (fun _ => Room rounds) Never := by
  induction scripts with
  | nil => exact Ensures.done fun _ _ _ h => h
  | cons script rest ih =>
      refine Ensures.bind (runScript_withinRounds script) fun goOn => ?_
      cases goOn with
      | true => exact ih
      | false => exact Ensures.done fun _ _ _ h => h

theorem run_withinRounds (scripts : List Text) :
    Ensures InMemory.answer (Room rounds) (shell.run rounds scripts) (fun _ => Room rounds)
      (fun _ => Room rounds) Never := by
  refine Ensures.bind (ensures_room footprint_publishCwd) fun _ => ?_
  refine Ensures.orElse (m := fun _ => Room rounds) ?_ fun e => ?_
  · refine Ensures.bind (runScripts_withinRounds scripts) fun goOn => ?_
    cases goOn with
    | false => exact Ensures.done fun _ _ _ h => h
    | true =>
        refine Ensures.bind (runSource_withinRounds standardInput true) fun _ => ?_
        exact Ensures.done fun _ _ _ h => h
  · cases e with
    | interrupt =>
        refine Ensures.bind (ensures_room (@footprint_say [] [] false _ _ _)) fun _ => ?_
        refine Ensures.bind (ensures_room (footprint_print "\n")) fun _ => ?_
        exact Ensures.done fun _ _ _ h => h
    | _ => exact Ensures.fail fun _ _ _ h => h

/-- With a round for each byte of the longest source and for each fault, and one to spare, a run ends
of its own. -/
theorem run_ne_outOfRounds (shell : Shell) {rounds : Nat} (s : Session) {w : InMemory}
    (hrounds : w.longestSource + w.faults.length < rounds) (scripts : List Text) :
    ((shell.run rounds scripts).run InMemory.answer s w).ending ≠ .outOfRounds := by
  intro hend
  have hrun := @run_withinRounds shell rounds scripts [] s w hrounds
  rw [hend] at hrun
  exact hrun

end Shell

end LineShell
