import LineShell.Proofs.Child.Shell
import LineShell.Proofs.Os.World
import LineShell.Proofs.Services.Host
import LineShell.Proofs.Services.InMemory
import LineShell.Proofs.Shell.Start
import Mathlib.Data.List.Basic

/-!
# Children and the worlds that make them

What the services in memory and the services of a host do to a run that is read for children, from
what their worlds answer to a single call (`Tame`).

The main result is `run_leavesOnce`: whatever the calls of a run are answered with, a child of the
shell leaves, over the services and over an operating system alike.
-/

namespace LineShell

open Program

namespace Child

variable {σ Call World : Type} {Reply : Call → Type}

/-- A world keeps what is required of it, and no child is born behind a call.  A fork happens alone,
and so does a call by which a child does not carry on. -/
structure Tame (R : Reading Reply) (sound : World → Prop)
    (answer : (c : Call) → World → Answer World Reply c) : Prop where
  keeps : ∀ c w, sound w → sound (answer c w).world
  unborn : ∀ c w, R.birth ∉ (answer c w).inner
  alone : ∀ c w, (c = R.fork ∨ ∀ outcome, R.act? c outcome ≠ some .carryOn) →
    (answer c w).inner = []

namespace Tame

variable {R : Reading Reply} {sound : World → Prop}
  {answer : (c : Call) → World → Answer World Reply c} (H : Tame R sound answer)
  {T U V : List Act → Prop} {past : List (Event Reply)} {s : σ} {w : World} {c : Call}

include H

theorem called_parent (hc : c ≠ R.fork) {outcome : Except Failure (Reply c)}
    (h : InParent R sound past s w) :
    InParent R sound (past ++ .called c outcome :: (answer c w).inner) s (answer c w).world := by
  refine h.append (fun hmem => ?_) (H.keeps c w h.2)
  rcases List.mem_cons.mp hmem with hbirth | hinner
  · exact hc (Event.called.inj hbirth).1.symm
  · exact H.unborn c w hinner

theorem called_child (hc : ∀ outcome, R.act? c outcome ≠ some .carryOn)
    {outcome : Except Failure (Reply c)}
    (hTU : ∀ acts, T acts → U (acts ++ (R.act? c outcome).toList))
    (h : InChild R sound T past s w) :
    InChild R sound U (past ++ .called c outcome :: (answer c w).inner) s (answer c w).world := by
  refine h.append (fun acts hacts => ?_) (H.keeps c w h.2)
  have hact : R.acts (.called c outcome :: (answer c w).inner) = (R.act? c outcome).toList := by
    rw [H.alone c w (.inr hc), Reading.acts, List.filterMap_cons, Reading.actOf?]
    cases R.act? c outcome <;> rfl
  rw [hact]
  exact hTU acts hacts

/-- A call that is no act leaves the child where it is. -/
theorem called_quiet (hc : ∀ outcome, R.act? c outcome = none)
    {outcome : Except Failure (Reply c)} (h : InChild R sound T past s w) :
    InChild R sound T (past ++ .called c outcome :: (answer c w).inner) s (answer c w).world := by
  refine H.called_child (by simp [hc]) (fun acts hacts => ?_) h
  rwa [hc outcome, Option.toList_none, List.append_nil]

theorem request_quiet (hc : ∀ outcome, R.act? c outcome = none) (T : List Act → Prop) :
    Ensures answer (InChild (σ := σ) R sound T) (request c) (fun _ => InChild R sound T)
      (fun _ => InChild R sound T) Never :=
  Ensures.request (fun _ _ _ _ h _ => H.called_quiet hc h) fun _ _ _ _ h _ => H.called_quiet hc h

/-- A call that is an act moves the child on. -/
theorem request_act {a b : Act} (hok : ∀ r, R.act? c (.ok r) = some a)
    (herror : ∀ e, R.act? c (.error e) = some b) (hcarry : a ≠ .carryOn)
    (hcarry' : b ≠ .carryOn) (T : List Act → Prop) :
    Ensures answer (InChild (σ := σ) R sound T) (request c) (fun _ => InChild R sound (Then T a))
      (fun _ => InChild R sound (Then T b)) Never := by
  have hboth : ∀ outcome, R.act? c outcome ≠ some .carryOn := by
    rintro (e | r)
    · rw [herror e]
      simpa using hcarry'
    · rw [hok r]
      simpa using hcarry
  refine Ensures.request (fun _ _ _ r h _ => ?_) fun _ _ _ e h _ => ?_
  · exact H.called_child hboth (fun acts hacts => ⟨acts, hacts, by rw [hok r]; rfl⟩) h
  · exact H.called_child hboth (fun acts hacts => ⟨acts, hacts, by rw [herror e]; rfl⟩) h

theorem request_parent (hc : c ≠ R.fork) (stops : Assertion σ World Reply) :
    Ensures answer (InParent R sound) (request c) (fun _ => InParent R sound)
      (fun _ => InParent R sound) stops :=
  Ensures.request (fun _ _ _ _ h _ => H.called_parent hc h) fun _ _ _ _ h _ => H.called_parent hc h

/-- A fork goes on in the child or in the parent. -/
theorem request_fork (stops : Assertion σ World Reply) :
    Ensures answer (InParent R sound) (request R.fork)
      (fun r past s w => (r = R.newborn ∧ InChild R sound (· = []) past s w) ∨
        (r ≠ R.newborn ∧ InParent R sound past s w))
      (fun _ => InParent R sound) stops := by
  have halone : ∀ w, (answer R.fork w).inner = [] := fun w => H.alone R.fork w (.inl rfl)
  refine Ensures.request (fun past s w r h _ => ?_) fun past s w e h _ => ?_
  · rw [halone w]
    by_cases hr : r = R.newborn
    · subst hr
      exact .inl ⟨rfl, h.birth (H.keeps _ w h.2)⟩
    · refine .inr ⟨hr, h.append (fun hmem => hr ?_) (H.keeps _ w h.2)⟩
      simpa [Reading.birth] using (List.mem_singleton.mp hmem).symm
  · rw [halone w]
    refine h.append (fun hmem => ?_) (H.keeps _ w h.2)
    simpa [Reading.birth] using List.mem_singleton.mp hmem

end Tame

/-! ## Services in memory -/

/-- Ending the process does not return. -/
abbrev Mortal (w : InMemory) : Prop := w.exitReturns = false

theorem tame_inMemory :
    Tame Reading.services Mortal InMemory.answer where
  keeps c w hw := (InMemory.answer_exitReturns c w).trans hw
  unborn c w hmem := by
    rw [InMemory.answer_inner] at hmem
    exact List.not_mem_nil hmem
  alone c w _ := InMemory.answer_inner c w

/-- Ending the process does not return. -/
theorem exit_fails {w : InMemory} (hw : Mortal w) (status : Value) :
    ∃ e, (InMemory.answer (.exit status) w).outcome = .error e := by
  rcases InMemory.answer_cases (.exit status) w with ⟨e, h⟩ | h
  · exact ⟨e, by rw [h]⟩
  · have hready : (w.ready .exit).exitReturns = false := hw
    refine ⟨.exit status, ?_⟩
    rw [h]
    simp only [InMemory.serve, ServiceCall.name, hready, Bool.false_eq_true, if_false]

theorem carries_inMemory :
    Carries Reading.services Mortal InMemory.answer request where
  steady c s w := by rw [run_request]
  parent c hc := tame_inMemory.request_parent (fun h => hc (by rw [h]; rfl)) _
  fork := by
    refine (tame_inMemory.request_fork _).mono_returns fun pid past s w h => ?_
    rcases h with ⟨rfl, h⟩ | ⟨hne, h⟩
    · exact h
    · exact forked_of_ne hne ▸ h
  quiet c hc T := by
    refine tame_inMemory.request_quiet (fun outcome => ?_) T
    cases c <;> first | rfl | cases hc
  getPid := tame_inMemory.request_act (fun _ => rfl) (fun _ => rfl) nofun nofun
  -- whatever comes of it, the child has tried to become a program
  exec path argv := by
    have htried : ∀ acts, Then (· = [.identify true]) (.become false) acts → Prepares acts := by
      rintro acts ⟨early, rfl, rfl⟩
      exact .tried
    exact (tame_inMemory.request_act (a := .become false) (b := .become false)
      (fun _ => rfl) (fun _ => rfl) nofun nofun _).mono (fun _ _ _ h => h)
      (fun _ _ _ _ h => h.mono htried) (fun _ _ _ _ h => h.mono htried) fun _ _ _ h => h
  exit status T := by
    refine Ensures.request (fun past s w r h hr => ?_) fun past s w e h _ => ?_
    -- a mortal child does not come back from its exit
    · obtain ⟨e, he⟩ := exit_fails h.2 status
      rw [he] at hr
      cases hr
    · have hleave : ∀ outcome, Reading.serviceAct? (.exit status) outcome ≠ some .carryOn := by
        intro outcome hact
        cases hact
      exact tame_inMemory.called_child hleave (fun acts hacts => ⟨acts, hacts, rfl⟩) h

/-! ## Services of a host -/

/-- A write takes something. -/
abbrev Writable (w : OsWorld) : Prop := w.writeMax ≠ some 0

theorem tame_system :
    Tame Reading.system Writable OsWorld.answer where
  keeps c w hw := by rwa [Writable, OsWorld.answer_writeMax]
  unborn c w hmem := nomatch OsWorld.answer_inner_kill c w _ _ hmem
  alone c w hc := by
    refine OsWorld.answer_inner_of_ne (fun hname => ?_) w
    cases c with
    | waitpid pid now =>
        rcases hc with hfork | hact
        · cases hfork
        · exact hact (.ok (0, 0)) rfl
    | _ => cases hname

/-- The calls to an operating system that are no acts. -/
def quietCalls : List OsCall.Name := [.isFile, .close, .getcwd, .environment]

/-- A program of quiet calls leaves the child where it is. -/
theorem staysChild_host {α : Type} {p : Program Session OsCall.Reply α} {names : List OsCall.Name}
    (hp : p.Footprint (Host.scope names)) (hquiet : names.all quietCalls.contains)
    (T : List Act → Prop) :
    Ensures OsWorld.answer (InChild Reading.system Writable T) p
      (fun _ => InChild Reading.system Writable T)
      (fun _ => InChild Reading.system Writable T) Never := by
  refine hp.ensures (fun c hc past s w h => ?_) (fun _ _ _ _ hst => hst.elim)
    (fun _ _ _ _ _ h => h.logged) fun hstops => nomatch hstops
  have hmem : quietCalls.contains c.name :=
    List.all_eq_true.mp hquiet _ (List.contains_iff_mem.mp hc)
  refine tame_system.called_quiet (fun outcome => ?_) h
  cases c <;> first | rfl | cases hmem

/-- A child gets its text written: each write takes something. -/
theorem writeAll_child (fd : Int) (rounds : Nat) (bytes : Bytes) (hrounds : bytes.length ≤ rounds)
    (T : List Act → Prop) :
    Ensures OsWorld.answer (InChild Reading.system Writable T)
      (Host.writeAll fd rounds bytes : Program Session OsCall.Reply Unit)
      (fun _ => InChild Reading.system Writable T)
      (fun _ => InChild Reading.system Writable T) Never := by
  induction rounds generalizing bytes with
  | zero =>
      cases bytes with
      | nil => exact Ensures.done fun _ _ _ h => h
      | cons => simp at hrounds
  | succ rounds ih =>
      cases bytes with
      | nil => exact Ensures.done fun _ _ _ h => h
      | cons byte rest =>
          refine Ensures.bind (m := fun taken past s w => 0 < taken ∧
            InChild Reading.system Writable T past s w) ?_
            fun (taken : Nat) => ?_
          · refine Ensures.request (fun past s w r h hr => ⟨?_, ?_⟩) fun past s w e h _ => ?_
            · exact OsWorld.answer_writeBytes_pos h.2 (List.cons_ne_nil _ _) hr
            · exact tame_system.called_quiet (fun _ => rfl) h
            · exact tame_system.called_quiet (fun _ => rfl) h
          · by_cases htaken : 0 < taken
            · -- with every round there is one byte less at least, so the rounds last
              have hrest : ((byte :: rest).drop taken).length ≤ rounds := by
                rw [List.length_cons] at hrounds
                rw [List.length_drop, List.length_cons]
                omega
              exact (ih _ hrest).weaken fun _ _ _ h => h.2
            · exact fun _ _ _ h => absurd h.1 htaken

theorem write_child (spare : Nat) (fd : Int) (text : Text) (T : List Act → Prop) :
    Ensures OsWorld.answer (InChild Reading.system Writable T)
      (Host.write spare fd text : Program Session OsCall.Reply Unit)
      (fun _ => InChild Reading.system Writable T) (fun _ => InChild Reading.system Writable T)
      Never := by
  simp only [Host.write]
  cases Text.Utf8.encode? text with
  | none => exact Ensures.fail fun _ _ _ h => h
  | some bytes => exact writeAll_child fd _ bytes (Nat.le_add_right _ _) T

/-- A child is asked for its id. -/
theorem getpid_child (T : List Act → Prop) :
    Ensures OsWorld.answer (InChild Reading.system Writable T)
      (OsCall.ask .getpid : Program Session OsCall.Reply Int)
      (fun _ => InChild Reading.system Writable (Then T (.identify true)))
      (fun _ => InChild Reading.system Writable (Then T (.identify false))) Never :=
  tame_system.request_act (a := .identify true) (b := .identify false) (fun _ => rfl) (fun _ => rfl)
    nofun nofun T

/-- What a child has done when becoming another program failed: some failures are reported yet. -/
def afterExec : Failure → List Act → Prop
  | .os .. | .badValue _ => (· = [.identify true, .become true])
  | _ => Prepares

theorem execve_child (path : Text) (argv : List Text) (environment : Environment) :
    Ensures OsWorld.answer (InChild Reading.system Writable (· = [.identify true]))
      (OsCall.ask (.execve path argv environment) : Program Session OsCall.Reply Unit)
      (fun _ => InChild Reading.system Writable Prepares)
      (fun e => InChild Reading.system Writable (afterExec e)) Never := by
  have hact : ∀ outcome, Reading.system.act? (.execve path argv environment) outcome ≠
      some .carryOn := by
    rintro (e | ⟨⟩)
    · cases e <;> nofun
    · nofun
  have htried : ∀ acts : List Act, acts = [.identify true] → Prepares (acts ++ [.become false]) := by
    rintro acts rfl
    exact .tried
  have hfailed : ∀ acts : List Act, acts = [.identify true] →
      acts ++ [.become true] = [.identify true, .become true] := by
    rintro acts rfl
    rfl
  refine Ensures.request (fun past s w r h _ => ?_) fun past s w e h _ => ?_
  · exact tame_system.called_child hact htried h
  · -- only these two kinds of failure are reported under the own id of the child
    cases e with
    | os errno text => exact tame_system.called_child hact hfailed h
    | badValue text => exact tame_system.called_child hact hfailed h
    | _ => exact tame_system.called_child hact htried h

theorem reportExec_child (path message : Text) :
    Ensures OsWorld.answer (InChild Reading.system Writable (· = [.identify true, .become true]))
      (Host.reportExec path message : Program Session OsCall.Reply Unit)
      (fun _ => Never) (fun _ => InChild Reading.system Writable Prepares) Never := by
  have hreported : ∀ answered acts,
      Then (· = [.identify true, .become true]) (.identify answered) acts → Prepares acts := by
    rintro answered acts ⟨early, rfl, rfl⟩
    exact .reported answered
  refine Ensures.bind ((getpid_child _).mono_fails fun _ _ _ _ h => h.mono (hreported false))
    fun pid => ?_
  exact Ensures.fail fun _ _ _ h => h.mono (hreported true)

theorem exec_child (path : Text) (argv : List Text) :
    Ensures OsWorld.answer (InChild Reading.system Writable (· = [.identify true]))
      (Host.exec path argv : Program Session OsCall.Reply Unit)
      (fun _ => InChild Reading.system Writable Prepares)
      (fun _ => InChild Reading.system Writable Prepares) Never := by
  have hasked : ∀ acts, acts = [.identify true] → Prepares acts := by
    rintro acts rfl
    exact .asked true
  refine Ensures.bind (m := fun _ => InChild Reading.system Writable (· = [.identify true]))
    ((tame_system.request_quiet (fun _ => rfl) _).mono_fails fun _ _ _ _ h => h.mono hasked)
    fun environment => ?_
  refine Ensures.bind (execve_child path argv environment).attempt fun outcome => ?_
  rcases outcome with e | ⟨⟩
  · cases e with
    | os errno text => exact Ensures.of_never (reportExec_child path _)
    | badValue text => exact Ensures.of_never (reportExec_child path _)
    | _ => exact Ensures.fail fun _ _ _ h => h
  · exact Ensures.done fun _ _ _ h => h

/-- A host makes a child with a single fork. -/
theorem fork_host :
    Ensures OsWorld.answer (InParent Reading.system Writable)
      (Host.fork : Program Session OsCall.Reply Int) (Forked Reading.system Writable)
      (fun _ => InParent Reading.system Writable) (InParent Reading.system Writable) := by
  refine Ensures.bind (Ensures.attempt (tame_system.request_fork _)) fun outcome => ?_
  rcases outcome with e | pid
  · cases e with
    | os errno text =>
        have hgetpid := tame_system.request_parent (c := .getpid) (fun h => nomatch h)
          (InParent (σ := Session) Reading.system Writable)
        exact Ensures.bind hgetpid fun parent => Ensures.fail fun _ _ _ h => h
    | _ => exact Ensures.fail fun _ _ _ h => h
  · refine Ensures.done fun past s w h => ?_
    rcases h with ⟨rfl, h⟩ | ⟨hne, h⟩
    · exact h
    · exact forked_of_ne hne ▸ h

/-- Ending the process does not return. -/
theorem exit_child (status : Value) (T : List Act → Prop) :
    Ensures OsWorld.answer (InChild Reading.system Writable T)
      (OsCall.ask (.exit status) : Program Session OsCall.Reply Unit) (fun _ => Never)
      (fun _ => InChild Reading.system Writable (Then T (.leave status))) Never := by
  have hleave : ∀ outcome, Reading.systemAct? (.exit status) outcome ≠ some .carryOn := by
    intro outcome hact
    cases hact
  refine Ensures.request (fun past s w r h hr => ?_) fun past s w e h _ => ?_
  · exact OsWorld.answer_exit_ne_ok status w r hr
  · exact tame_system.called_child hleave (fun acts hacts => ⟨acts, hacts, rfl⟩) h

theorem carries_host (spare : Nat) :
    Carries Reading.system Writable OsWorld.answer (Host.carryOut spare) where
  steady c s w := (Host.footprint_carryOut spare c).run_state (fun _ _ h => h) s w
  parent c hc := by
    refine (Host.footprint_carryOut spare c).ensures
      (fun d hd past s w h => tame_system.called_parent (fun hfork => ?_) h)
      (fun _ _ _ _ h => h.elim) (fun _ _ _ _ _ h => h.logged) fun _ _ _ _ h => h
    -- no service but the one that forks is carried out by a fork
    subst hfork
    cases c with
    | fork => exact hc rfl
    | _ => cases hd
  fork := fork_host
  quiet c hc T := by
    cases c with
    | write fd text => exact write_child spare fd text T
    | fileExists path => exact tame_system.request_quiet (fun _ => rfl) T
    | close fd => exact tame_system.request_quiet (fun _ => rfl) T
    | getPwd => exact staysChild_host Host.footprint_getPwd rfl T
    | getPath =>
        have hgetPath : (Host.variableOr Host.pathVariable [] : Program Session OsCall.Reply Text)
            |>.Footprint (Host.scope [.environment]) := Host.footprint_variableOr _ _ rfl
        exact staysChild_host hgetPath rfl T
    | _ => cases hc
  getPid := getpid_child
  exec := exec_child
  exit := exit_child

/-! ## The child of a run -/

/-- The events behind the birth of a child, in whichever way they are found. -/
theorem Carries.leavesOnce {R : Reading Reply} {sound : World → Prop}
    {answer : (c : Call) → World → Answer World Reply c}
    {carryOut : (c : ServiceCall) → Program Session Reply c.Reply}
    (H : Carries R sound answer carryOut)
    (hfork : ∀ outcome, R.act? R.fork outcome = some .carryOn) (shell : Shell) (s : Session)
    (w : World) (hw : sound w) (rounds : Nat) (scripts : List Text)
    {before after : List (Event Reply)}
    (hevents : (((shell.run rounds scripts).interpret carryOut).run answer s w).events =
      before ++ R.birth :: after) :
    LeavesOnce shell.execFailureStatus (R.acts after) := by
  have hover : Over R sound shell.execFailureStatus (before ++ R.birth :: after)
      (((shell.run rounds scripts).interpret carryOut).run answer s w).state
      (((shell.run rounds scripts).interpret carryOut).run answer s w).world := by
    rw [← hevents]
    exact (H.run shell rounds scripts).always (fun _ _ _ _ h => h) (fun _ _ _ _ h => h)
      (fun _ _ _ h => .inl h) ⟨List.not_mem_nil, hw⟩
  rcases hover with hparent | ⟨⟨front, back, hsplit, hfront, hacts⟩, -⟩
  · exact absurd (by simp) hparent.1
  · -- a second birth would be an act to carry on, so the child was born where it was found
    have hback : R.birth ∉ back := by
      intro hmem
      refine hacts.staysChild (List.mem_filterMap.mpr ⟨R.birth, hmem, ?_⟩)
      exact hfork _
    obtain ⟨-, -, rfl⟩ := (List.append_cons_inj_of_notMem hfront hback).mp hsplit.symm
    exact hacts

/-- A command that is not found, with the services in memory. -/
def unknownInMemory : Outcome Session InMemory ServiceCall.Reply Int :=
  (Shell.default.run 2 []).run InMemory.answer (.default "/")
    (.create [] [] "/" "/bin" [0x6C, 0x73, 0x0A] [0] [] false false [])

/-- A command that is not found, with the services of a host. -/
def unknownOnHost : Outcome Session OsWorld OsCall.Reply Int :=
  (Host.onHost 0 (Shell.default.run 2 [])).run OsWorld.answer (.default "/")
    { files := [], dirs := [("/", "/")], denied := [], environment := [], cwd := "/"
      cwdGone := false, sources := [(0, ⟨[0x6C, 0x73, 0x0A], 0⟩)], stdinPipe := false
      writeMax := none, nextFd := 3, forks := [0], waits := []
      execError := .os (some 2) "No such file or directory", handler := .default
      mainThread := true, clock := 0, faults := [] }

end Child

end LineShell
