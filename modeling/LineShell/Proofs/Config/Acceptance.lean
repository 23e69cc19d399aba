import LineShell.Proofs.Config.Reading
import LineShell.Proofs.Line.Tokens
import LineShell.Proofs.Shell.Start

/-!
# What can be done with a configuration that was accepted

The checks on a configuration compare a size and count characters.  A shell asks for more: its size has
to be an integer for which there is memory, and its marker a text.  `Unstartable` are the settings that
pass the checks and are still of no use, each with the failure that starting a shell ends with.

A shell that did start takes every line that its buffer has room for; but it can split a line only when
its marker is a byte.  `start_accepted` puts this together for every file that is loaded.
-/

namespace LineShell

namespace LineBuffer

variable {memory : Nat} {n : Int}

/-! ## Buffers of an accepted size -/

theorem le_of_accepted (h : (Value.int n).ltInt? 2 = some false) : 2 ≤ n := by
  simp only [Value.ltInt?, Option.some.injEq, decide_eq_false_iff_not] at h
  omega

theorem ofSetting_of_memory_le (hsize : 2 ≤ n) (hstorage : n < largestStorage) (h : memory ≤ n) :
    ofSetting memory (.int n) = .error .outOfMemory := by
  have hsmall : ¬n < 1 := by omega
  have hlarge : ¬largestStorage < n + 1 := by omega
  have hroom : (memory : Int) < n + 1 := by omega
  simp [ofSetting, Value.ltInt?, Value.toInt?, hsmall, hlarge, hroom]

theorem ofSetting_of_largestStorage_le (h : largestStorage ≤ n) :
    ofSetting memory (.int n) = .error (.tooLarge "cannot fit 'int' into an index-sized integer") := by
  have hsmall : ¬n < 1 := by simp only [largestStorage] at h; omega
  have hlarge : largestStorage < n + 1 := by omega
  simp [ofSetting, Value.ltInt?, Value.toInt?, hsmall, hlarge]

/-- A size that the checks accept is an integer or of the wrong kind. -/
theorem ofSetting_of_not_int {size : Value} (hsize : size.ltInt? 2 = some false)
    (h : ∀ n, size ≠ .int n) : ofSetting memory size = .error .wrongKind := by
  have hone : size.ltInt? 1 = some false := Value.ltInt?_mono (by decide) hsize
  cases size with
  | bool b => cases b <;> simp [Value.ltInt?] at hsize
  | int n => exact absurd rfl (h n)
  | float x => simp [ofSetting, hone, Value.toInt?]
  | _ => cases hsize

theorem markerOfSetting_of_ne {v : Value} (h : ∀ marker, v ≠ .text [marker]) :
    markerOfSetting v = .error .wrongKind := by
  unfold markerOfSetting
  split
  · exact absurd rfl (h _)
  · rfl

end LineBuffer

namespace Shell

open Program LineShell.Action LineBuffer

variable {World : Type} {answer : (c : ServiceCall) → World → Answer World ServiceCall.Reply c}
  {memory nesting : Nat} {shell : Config.ShellSettings} {process : Config.ProcessSettings} {s : Session}
  {w : World} {e : Failure}

/-! ## Settings that a shell can be started with -/

/-- Settings that the checks accept and no shell can be started with where there is memory for so many bytes,
with the failure of the start. -/
inductive Unstartable (memory : Nat) (shell : Config.ShellSettings) : Failure → Prop where
  /-- The size is no integer. -/
  | noSize (h : ∀ n, shell.lineBufferSize ≠ .int n) : Unstartable memory shell .wrongKind
  /-- There is no storage of the size. -/
  | noStorage {n : Int} (hsize : shell.lineBufferSize = .int n) (h : largestStorage ≤ n) :
      Unstartable memory shell (.tooLarge "cannot fit 'int' into an index-sized integer")
  /-- There is no memory for the storage. -/
  | noMemory {n : Int} (hsize : shell.lineBufferSize = .int n) (hstorage : n < largestStorage)
      (h : memory ≤ n) : Unstartable memory shell .outOfMemory
  /-- The marker is no character. -/
  | noMarker {n : Int} (hsize : shell.lineBufferSize = .int n) (hstorage : n < largestStorage)
      (hmemory : n < memory) (h : ∀ marker, shell.commentChar ≠ .text [marker]) :
      Unstartable memory shell .wrongKind

theorem Unstartable.fails (haccept : shell.lineBufferSize.ltInt? 2 = some false)
    (h : Unstartable memory shell e) : ((start memory shell process).run answer s w).ending = .failed e := by
  have htwo {n : Int} (hsize : shell.lineBufferSize = .int n) : 2 ≤ n := le_of_accepted (hsize ▸ haccept)
  cases h with
  | noSize h => exact run_start_of_size_error (ofSetting_of_not_int haccept h)
  | noStorage hsize h =>
      apply run_start_of_size_error
      rw [hsize, ofSetting_of_largestStorage_le h]
  | noMemory hsize hstorage h =>
      apply run_start_of_size_error
      rw [hsize, ofSetting_of_memory_le (htwo hsize) hstorage h]
  | @noMarker n hsize hstorage hmemory h =>
      have hline : ofSetting memory shell.lineBufferSize = .ok (blank n.toNat (.int n)) := by
        rw [hsize, ofSetting_of_lt (htwo hsize) hstorage hmemory]
      exact run_start_of_marker_error hline (markerOfSetting_of_ne h)

/-- All other settings have a size that there is memory for, and one character as the marker. -/
theorem not_unstartable_iff :
    (∀ e, ¬Unstartable memory shell e) ↔
      ∃ (n : Int) (marker : CodePoint), shell.lineBufferSize = .int n ∧ n < largestStorage ∧
        n < memory ∧ shell.commentChar = .text [marker] := by
  constructor
  · intro h
    by_cases hsize : ∃ n, shell.lineBufferSize = .int n
    · obtain ⟨n, hn⟩ := hsize
      have hstorage : n < largestStorage := Int.not_le.mp fun hle => h _ (.noStorage hn hle)
      have hmemory : n < memory := Int.not_le.mp fun hle => h _ (.noMemory hn hstorage hle)
      by_cases hmarker : ∃ marker, shell.commentChar = .text [marker]
      · obtain ⟨marker, hm⟩ := hmarker
        exact ⟨n, marker, hn, hstorage, hmemory, hm⟩
      · exact absurd (.noMarker hn hstorage hmemory fun marker hm => hmarker ⟨marker, hm⟩) (h _)
    · exact absurd (.noSize fun n hn => hsize ⟨n, hn⟩) (h _)
  · rintro ⟨n, marker, hn, hstorage, hmemory, hmarker⟩ e he
    cases he with
    | noSize h => exact h n hn
    | noStorage hm h =>
        cases hn.symm.trans hm
        omega
    | noMemory hm _ h =>
        cases hn.symm.trans hm
        omega
    | noMarker _ _ _ h => exact h marker hmarker

/-- For every configuration file that is loaded, in every world that knows its working directory.  Unless
the settings are unstartable, which ends the start with a failure, a shell is started, with a buffer of
the size and the marker that the settings give.  A line of at most that size can then be loaded,
whatever was in the buffer before; splitting it succeeds for a marker that is a byte, and for any other
marker it fails. -/
theorem start_accepted (memory : Nat) {l : Config.Loader} {disk : Disk} {path : Text} {c : Config}
    (haccepted : (l.load nesting disk path).1 = .ok c) :
    ∃ shell process logging, c = ⟨.settings shell, .settings process, .settings logging⟩ ∧
      ∀ {World : Type} (answer : (c : ServiceCall) → World → Answer World ServiceCall.Reply c)
        (s : Session) (w : World) (cwd : Text), (answer .getPwd w).outcome = .ok cwd →
        (∀ e, Unstartable memory shell e →
          ((start memory shell process).run answer s w).ending = .failed e) ∧
        ((∀ e, ¬Unstartable memory shell e) →
          ∃ (sh : Shell) (line : LineBuffer),
            ((start memory shell process).run answer s w).ending = .returned sh ∧
            ((start memory shell process).run answer s w).state = ⟨cwd, none, line⟩ ∧
            shell.lineBufferSize = .int line.capacity ∧
            shell.commentChar = .text [sh.marker] ∧
            ∀ (b : LineBuffer) (chunk : Bytes), b.capacity = line.capacity →
              chunk.length ≤ line.capacity →
              ∃ filled, b.fill chunk = .ok (chunk.length, filled) ∧
                (sh.marker.val < 256 →
                  ∃ v d, filled.stripNewline.tokenize sh.marker = .ok (v, d)) ∧
                (¬sh.marker.val < 256 → filled.stripNewline.tokenize sh.marker =
                  .error (.badValue "byte must be in range(0, 256)"))) := by
  obtain ⟨data, hdata⟩ := Config.exists_ofFields_of_load haccepted
  obtain ⟨rfl, haccept⟩ := Config.ofFields_eq_ok hdata
  refine ⟨Config.shellOf data, Config.processOf data, Config.loggingOf data, rfl, ?_⟩
  intro World answer s w cwd hcwd
  refine ⟨fun e he => he.fails haccept.size, ?_⟩
  intro hstartable
  -- nothing keeps the shell from starting, so the settings are a size and a marker
  obtain ⟨n, marker, hn, hstorage, hmemory, hmarker⟩ := not_unstartable_iff.mp hstartable
  have htwo : 2 ≤ n := le_of_accepted (hn ▸ haccept.size)
  have hline : ofSetting memory (Config.shellOf data).lineBufferSize = .ok (blank n.toNat (.int n)) := by
    rw [hn, ofSetting_of_lt htwo hstorage hmemory]
  have hread : markerOfSetting (Config.shellOf data).commentChar = .ok marker := by
    rw [hmarker]
    rfl
  rw [run_start_of_ok (Config.processOf data) s hline hread hcwd]
  refine ⟨_, blank n.toNat (.int n), rfl, rfl, ?_, hmarker, ?_⟩
  · rw [hn, blank, Int.toNat_of_nonneg (by omega)]
  · intro b chunk hcapacity hlength
    obtain ⟨filled, hfill⟩ := fill_of_le (hcapacity ▸ hlength)
    exact ⟨filled, hfill, fun h => ⟨_, _, tokenize_of_lt _ h⟩, fun h => tokenize_of_not_lt _ h⟩

/-- A disk with a configuration whose comment marker is the euro sign. -/
def euroDisk : Disk :=
  ⟨[(["c.json"], Text.Utf8.encode? "\x7b\"shell\": \x7b\"comment_char\": \"\u20ac\"\x7d\x7d")]⟩

/-- A line with the euro sign as its comment marker cannot be split. -/
theorem start_accepted_of_euro :
    ∃ shell process logging,
      (Config.Loader.load {} 2 euroDisk "c.json").1 =
        .ok ⟨.settings shell, .settings process, .settings logging⟩ ∧
      ∃ sh : Shell,
        ((start 1024 shell process).run InMemory.answer Session.unstarted
          (InMemory.create [] [] "/home/user" "/bin" [] [] [] false false [])).ending =
            .returned sh ∧
        sh.marker = 0x20AC ∧
        ∃ filled, (LineBuffer.empty 256).fill [0x6C, 0x73, 0x0A] = .ok (3, filled) ∧
          filled.stripNewline.tokenize sh.marker =
            .error (.badValue "byte must be in range(0, 256)") := by
  have haccepted : (Config.Loader.load {} 2 euroDisk "c.json").1 =
      .ok ⟨.settings { commentChar := .text [0x20AC] }, .settings {}, .settings {}⟩ :=
    eq_ok_of_toOption (by decide +kernel)
  obtain ⟨shell, process, logging, hsections, hstart⟩ := start_accepted 1024 haccepted
  cases hsections
  have hstartable : ∀ e, ¬Unstartable 1024 { commentChar := .text [0x20AC] } e :=
    not_unstartable_iff.mpr ⟨256, 0x20AC, rfl, by decide, by decide, rfl⟩
  obtain ⟨sh, line, hreturned, -, hcapacity, hsh, hlines⟩ :=
    (hstart InMemory.answer Session.unstarted
      (InMemory.create [] [] "/home/user" "/bin" [] [] [] false false []) "/home/user" rfl).2 hstartable
  have hline : line.capacity = 256 := by
    have h : (256 : Int) = line.capacity := Value.int.inj hcapacity
    omega
  have heuro : sh.marker = 0x20AC := by simpa using hsh.symm
  obtain ⟨filled, hfill, -, hsplit⟩ :=
    hlines (LineBuffer.empty 256) [0x6C, 0x73, 0x0A] hline.symm (by rw [hline]; decide)
  exact ⟨_, _, _, haccepted, sh, hreturned, heuro, filled, hfill, hsplit (by rw [heuro]; decide)⟩

end Shell

end LineShell
