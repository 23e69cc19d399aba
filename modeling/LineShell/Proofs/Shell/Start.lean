import LineShell.Proofs.Program.Run
import LineShell.Proofs.Services.InMemory
import LineShell.Shell

/-!
# Starting a shell

A shell starts when its settings can be used and the working directory is known, and it then has
that working directory (`run_start`).  The default settings can be used (`run_start_default`).
-/

namespace LineShell

open Program LineShell.Action

/-- The shell of the default settings. -/
def Shell.default : Shell := ⟨.text "$ ", .text "/home", 0x23, .int 0, .int 1⟩

/-- The session of the default settings, started in a directory. -/
def Session.default (cwd : Text) : Session := ⟨cwd, none, .empty 256⟩

/-- A size that can be used is a positive integer, and the buffer has that capacity. -/
theorem LineBuffer.ofSetting_ok {memory : Nat} {size : Value} {line : LineBuffer}
    (h : ofSetting memory size = .ok line) :
    line = blank line.capacity size ∧ size.toInt? = some (line.capacity : Int) ∧
      0 < line.capacity := by
  unfold ofSetting at h
  cases hlt : size.ltInt? 1 with
  | none => rw [hlt] at h; cases h
  | some small =>
      cases small with
      | true => rw [hlt] at h; cases h
      | false =>
          cases hn : size.toInt? with
          | none => rw [hlt, hn] at h; cases h
          | some n =>
              rw [hlt, hn] at h
              -- truth values count as numbers, and the smaller one was refused
              have hpos : 1 ≤ n := by
                cases size with
                | bool b =>
                    cases hn
                    cases b <;> simp_all [Value.ltInt?]
                | int m => cases hn; simpa [Value.ltInt?] using hlt
                | _ => cases hn
              simp only at h
              split at h
              · cases h
              · split at h
                · cases h
                · cases h
                  refine ⟨rfl, ?_, ?_⟩
                  · rw [blank, Int.toNat_of_nonneg (by omega)]
                  · simp only [blank]
                    omega

/-- A size that there is storage and memory for is that of the buffer. -/
theorem LineBuffer.ofSetting_of_lt {memory : Nat} {n : Int} (hsize : 2 ≤ n) (hstorage : n < largestStorage)
    (hmemory : n < memory) :
    ofSetting memory (.int n) = .ok (blank n.toNat (.int n)) := by
  have hsmall : ¬n < 1 := by omega
  have hlarge : ¬largestStorage < n + 1 := by omega
  have hroom : ¬(memory : Int) < n + 1 := by omega
  simp [ofSetting, Value.ltInt?, Value.toInt?, hsmall, hlarge, hroom]

/-- The size of the buffer is its capacity. -/
structure LineBuffer.Sized (b : LineBuffer) : Prop where
  size : b.size.toInt? = some (b.capacity : Int)
  pos : 0 < b.capacity

theorem LineBuffer.sized_of_setting {memory : Nat} {size : Value} {line : LineBuffer}
    (h : ofSetting memory size = .ok line) : line.Sized := by
  obtain ⟨hblank, hcapacity, hpos⟩ := ofSetting_ok h
  have hsize : line.size = size := by rw [hblank]; rfl
  exact ⟨hsize ▸ hcapacity, hpos⟩

namespace Shell

section

variable {World : Type} {answer : (c : ServiceCall) → World → Answer World ServiceCall.Reply c}
  {memory : Nat} {shell : Config.ShellSettings} {process : Config.ProcessSettings} {s : Session} {w : World}
  {line : LineBuffer} {marker : CodePoint} {cwd : Text} {e : Failure}

theorem run_start_of_size_error (h : LineBuffer.ofSetting memory shell.lineBufferSize = .error e) :
    ((start memory shell process).run answer s w).ending = .failed e := by
  simp only [start, bind_eq_bind, h, run_bind, run_ofExcept_error, Outcome.andThen]

theorem run_start_of_marker_error (hline : LineBuffer.ofSetting memory shell.lineBufferSize = .ok line)
    (h : LineBuffer.markerOfSetting shell.commentChar = .error e) :
    ((start memory shell process).run answer s w).ending = .failed e := by
  simp only [start, bind_eq_bind, hline, h, run_bind, run_ofExcept_ok, run_ofExcept_error,
    Outcome.andThen]

theorem run_start_of_cwd_error (hline : LineBuffer.ofSetting memory shell.lineBufferSize = .ok line)
    (hmarker : LineBuffer.markerOfSetting shell.commentChar = .ok marker)
    (h : (answer .getPwd w).outcome = .error e) :
    ((start memory shell process).run answer s w).ending = .failed e := by
  simp only [start, bind_eq_bind, hline, hmarker, run_bind, run_ofExcept_ok, Outcome.andThen, ask,
    run_request, h, endingOf]

/-- With a buffer, a marker and the working directory a shell has all that it needs. -/
theorem run_start_of_ok (process : Config.ProcessSettings) (s : Session)
    (hline : LineBuffer.ofSetting memory shell.lineBufferSize = .ok line)
    (hmarker : LineBuffer.markerOfSetting shell.commentChar = .ok marker)
    (hcwd : (answer .getPwd w).outcome = .ok cwd) :
    (start memory shell process).run answer s w =
      ⟨.returned ⟨shell.promptSuffix, shell.homeDirectory, marker, process.waitTimeout,
          process.execFailureStatus⟩,
        ⟨cwd, none, line⟩, (answer .getPwd w).world,
        .called .getPwd (.ok cwd) :: (answer .getPwd w).inner⟩ := by
  simp only [start, bind_eq_bind, pure_eq_done, hline, hmarker, run_bind, run_ofExcept_ok,
    Outcome.andThen, ask, run_request, hcwd]
  simp [endingOf, run_update]

end

/-- A start that went well took over the working directory of the services and the size of the
buffer, and did nothing else. -/
theorem run_start {memory : Nat} {settings : Config.ShellSettings} {process : Config.ProcessSettings}
    {s : Session} {w : InMemory} {shell : Shell}
    (h : ((start memory settings process).run InMemory.answer s w).ending = .returned shell) :
    ∃ line, LineBuffer.ofSetting memory settings.lineBufferSize = .ok line ∧
      LineBuffer.markerOfSetting settings.commentChar = .ok shell.marker ∧
      (start memory settings process).run InMemory.answer s w =
        ⟨.returned shell, ⟨w.pwd, none, line⟩, w.ready .getPwd, [.called .getPwd (.ok w.pwd)]⟩ := by
  cases hline : LineBuffer.ofSetting memory settings.lineBufferSize with
  | error e =>
      rw [run_start_of_size_error hline] at h
      cases h
  | ok line =>
  cases hmarker : LineBuffer.markerOfSetting settings.commentChar with
  | error e =>
      rw [run_start_of_marker_error hline hmarker] at h
      cases h
  | ok marker =>
  rcases InMemory.answer_cases .getPwd w with ⟨e, hc⟩ | hc
  · rw [run_start_of_cwd_error hline hmarker (congrArg Answer.outcome hc)] at h
    cases h
  · have hrun := run_start_of_ok process s hline hmarker (congrArg Answer.outcome hc)
    rw [hrun] at h
    cases h
    rw [hc] at hrun
    exact ⟨line, rfl, rfl, hrun⟩

theorem run_start_default {memory : Nat} (hmemory : 256 < memory) {s : Session} {w : InMemory}
    (h : Fault.hit? w.faults .getPwd = none) :
    (start memory {} {}).run InMemory.answer s w =
      ⟨.returned .default, .default w.pwd, w.ready .getPwd, [.called .getPwd (.ok w.pwd)]⟩ := by
  have hanswer := InMemory.answer_miss (c := .getPwd) (w := w) h
  have hline : LineBuffer.ofSetting memory ({} : Config.ShellSettings).lineBufferSize =
      .ok (LineBuffer.empty 256) :=
    LineBuffer.ofSetting_of_lt (by decide) (by decide) (by omega)
  have hmarker : LineBuffer.markerOfSetting ({} : Config.ShellSettings).commentChar =
      .ok 0x23 := rfl
  have hrun := run_start_of_ok {} s hline hmarker (congrArg Answer.outcome hanswer)
  rw [hanswer] at hrun
  exact hrun

end Shell

end LineShell
