import LineShell.Proofs.Services.Mirror
import LineShell.Proofs.Services.Waiting
import LineShell.Proofs.Shell.Start

/-!
# A shell that is interrupted

An interrupt that arrives while the shell waits for a child is handed on to the child.  As long as the
signals for it fail at most where the child has gone, nothing is lost: each wait comes to what the
child's statuses call for, and the shell does all that it does without interrupts.

A signal that fails in another way ends the wait: what the wait then comes to is decided by that failure
and no longer by the child.
-/

namespace LineShell.Shell

open Program
open OsWorld (answer SignalForEach)
open Host (SameButInterrupts waitpid seen verdict abandoned givenBack onHost)

/-- What becomes of interrupts.  A wait hands each of them on and gives the handler back; it comes to
what the statuses call for unless a signal fails though the child is there, and is abandoned with that
failure otherwise.  And as long as no signal fails so, a shell goes on as if there were no interrupts. -/
theorem run_interrupted (spare : Nat) (w : OsWorld) (hmain : w.mainThread = true)
    (hfaults : ∀ f ∈ w.faults, f.call = .kill) (hspare : w.waits.length < spare) :
    (∀ (pid : Int) (timeout : Value) (s : Session),
      let o := (waitpid spare pid timeout).run answer s w
      SignalForEach pid w.waits o.world.waits o.events ∧ o.world.handler = givenBack w.handler ∧
        ((Unhindered o.events ∧ o.ending = endingOf (verdict (seen timeout w))) ∨
          ∃ e, StruckBy e o.events ∧ o.ending = endingOf (abandoned e))) ∧
    ∀ (shell : Shell) (rounds : Nat) (scripts : List Text) (s : Session),
      let o := (onHost spare (shell.run rounds scripts)).run answer s w
      Unhindered o.events → SameButInterrupts o
        ((onHost spare (shell.run rounds scripts)).run answer s w.undisturbed) := by
  have hkills : w.KillsFail fun _ => True := fun f hf => ⟨hfaults f hf, trivial⟩
  refine ⟨fun pid timeout s => ?_, fun shell rounds scripts s hunhindered => ?_⟩
  · obtain ⟨result, hending, hwaited⟩ := Host.waited_of_run spare pid timeout s w hmain hkills hspare
    refine ⟨hwaited.forwarded.sent, hwaited.handler, ?_⟩
    rw [hending]
    rcases hwaited.came with ⟨hunhindered, rfl⟩ | ⟨e, hstruck, rfl⟩
    · exact .inl ⟨hunhindered, rfl⟩
    · exact .inr ⟨e, hstruck, rfl⟩
  · exact Host.Agrees.sameButInterrupts (Host.agrees_onHost spare _) s hmain hkills hunhindered

/-- A host with a command on standard input, whose child is interrupted twice and has gone when the
second signal is sent. -/
def interruptedHost : OsWorld :=
  { (InMemory.create [] [] "/" "/bin" [0x6C, 0x73, 0x0A] [7] [] false false []).asHost false none
      [.interrupt, .interrupt, .status 7 0x100] with
    faults := [⟨.kill, 2, .os (some Failure.noSuchProcess) "No such process"⟩] }

/-- The shell reads the command, waits for the child, which is sent two signals, and reads on to the end
of its input as it does without interrupts. -/
theorem run_interrupted_of_command :
    let o := (onHost 4 (Shell.default.run 8 [])).run answer (.default "/") interruptedHost
    let calm := (onHost 4 (Shell.default.run 8 [])).run answer (.default "/")
      interruptedHost.undisturbed
    SameButInterrupts o calm ∧ signalsSent o.events = [(7, 2), (7, 2)] ∧ o.ending = .returned 0 := by
  intro o calm
  have hfaults : ∀ f ∈ interruptedHost.faults, f.call = .kill := by
    intro f hf
    obtain rfl := List.mem_singleton.mp hf
    rfl
  have hunhindered : Unhindered o.events := by
    have hfailures : signalFailures o.events =
        [.os (some Failure.noSuchProcess) "No such process"] := rfl
    intro e he
    rw [hfailures] at he
    rw [List.mem_singleton.mp he]
    rfl
  refine ⟨(run_interrupted 4 interruptedHost rfl hfaults (by decide)).2 Shell.default 8 [] _
    hunhindered, ?_, ?_⟩
  · rfl
  · rfl

end LineShell.Shell
