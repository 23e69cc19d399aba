import LineShell.Proofs.Services.Mirror
import LineShell.Proofs.Shell.Refusals
import LineShell.Proofs.Shell.Start

/-!
# Bytes pass through unchanged

A line is read as bytes, handled as text, and given away as bytes: to whoever reads what is written, and
to the operating system as the path and the arguments of a program.  Nothing is lost on the way, whether
the line is UTF-8 or not, and wherever it was cut when it was read.

What was shown of the single stations is put together here, for one line in any world
(`bytes_unchanged`).
-/

namespace LineShell.Shell

open Program
open OsWorld (answer)
open Text.Utf8 (encode? decode)

/-- Decoded bytes, alone or joined with other text, are delivered as they were; a line is executed as it
is written; and where it is `cd` the directory that was refused is reported byte for byte. -/
theorem bytes_unchanged (shell : Shell) (spare : Nat) (s : Session) (w : OsWorld)
    (interactive : Bool) :
    (∀ bytes, Host.Delivers (decode bytes) bytes) ∧
    (∀ parts : List (Text × Bytes),
      (∀ part ∈ parts, part.1 = decode part.2 ∨ encode? part.1 = some part.2) →
        Host.Delivers (parts.flatMap Prod.fst) (parts.flatMap Prod.snd)) ∧
    ∀ chunk : Bytes,
      let tokens := Line.rawTokens (UInt8.ofNat shell.marker.val) chunk
      let o := (Host.onHost spare
        (shell.runLine (Builtin.dispatch shell.home) interactive chunk)).run answer s w
      AllAsWritten w tokens o.events ∧
      (w.Tells → tokens.headD [] = Builtin.cdBytes → ∀ target,
        Builtin.targetBytes? shell.home s.cwd tokens.tail = some target →
          (Refused o.events → o.ending = .returned .goOn ∧
              delivered standardOutput o.events = Builtin.complaint target) ∧
            (¬Refused o.events → delivered standardOutput o.events = [])) := by
  refine ⟨Host.delivers_decode, fun parts => Host.delivers_flatMap, fun chunk => ?_⟩
  refine ⟨shell.allAsWritten spare s w interactive chunk, ?_⟩
  intro hw hcommand target htarget
  exact shell.run_cd spare hw hcommand htarget interactive

/-- A host on which nothing is found, and on which the next process is a child. -/
def bareHost : OsWorld :=
  (InMemory.create [] [] "/home" "/bin" [] [0] [] false false []).asHost false none []

/-- Bytes that are no UTF-8 are written as they are, a command with such bytes is executed as it is
written, and so is a directory reported that is not there. -/
theorem bytes_unchanged_of_undecodable :
    let run := fun chunk => (Host.onHost 0
      (Shell.default.runLine (Builtin.dispatch Shell.default.home) true chunk)).run answer
        (.default "/home") bareHost
    Host.Delivers (decode [0xC3, 0x28]) [0xC3, 0x28] ∧
    Host.Delivers (("$ " : Text) ++ decode [0xC3]) [0x24, 0x20, 0xC3] ∧
    (∃ path argv, .executed path argv ∈ View.system.deeds (run [0x6C, 0xFF, 0x20, 0xFE, 0x0A]).events ∧
      bareHost.AsWritten [[0x6C, 0xFF], [0xFE]] path argv) ∧
    delivered standardOutput
        (run [0x63, 0x64, 0x20, 0x2F, 0x6D, 0x69, 0x73, 0x73, 0x69, 0x6E, 0x67, 0xFF, 0x0A]).events =
      Builtin.complaint [0x2F, 0x6D, 0x69, 0x73, 0x73, 0x69, 0x6E, 0x67, 0xFF] := by
  intro run
  obtain ⟨hdecode, hjoined, hlines⟩ :=
    bytes_unchanged Shell.default 0 (.default "/home") bareHost true
  refine ⟨hdecode _, ?_, ?_, ?_⟩
  · refine hjoined [("$ ", [0x24, 0x20]), (decode [0xC3], [0xC3])] ?_
    exact List.forall_mem_cons.mpr ⟨.inr rfl, List.forall_mem_singleton.mpr (.inl rfl)⟩
  · obtain ⟨hwritten, -⟩ := hlines [0x6C, 0xFF, 0x20, 0xFE, 0x0A]
    have htokens : Line.rawTokens (UInt8.ofNat Shell.default.marker.val)
        [0x6C, 0xFF, 0x20, 0xFE, 0x0A] = [[0x6C, 0xFF], [0xFE]] := by decide
    obtain ⟨path, argv, hdeeds⟩ :
        ∃ path argv, View.system.deeds (run [0x6C, 0xFF, 0x20, 0xFE, 0x0A]).events =
          [.forked 0, .executed path argv] := ⟨_, _, rfl⟩
    -- the only program that was started is the one of the line
    have hmem : .executed path argv ∈ View.system.deeds (run [0x6C, 0xFF, 0x20, 0xFE, 0x0A]).events := by
      rw [hdeeds]
      exact List.mem_cons_of_mem _ List.mem_cons_self
    rw [htokens] at hwritten
    exact ⟨path, argv, hmem, hwritten path argv hmem⟩
  · obtain ⟨-, hcd⟩ := hlines
      [0x63, 0x64, 0x20, 0x2F, 0x6D, 0x69, 0x73, 0x73, 0x69, 0x6E, 0x67, 0xFF, 0x0A]
    have htells : bareHost.Tells := ⟨⟨nofun, nofun⟩, nofun⟩
    refine ((hcd htells (by decide) _ (by decide)).1 ?_).2
    exact ⟨_, List.mem_cons_self, rfl⟩

end LineShell.Shell
