import LineShell.Proofs.Program.Custody
import LineShell.Proofs.Shell.Completion
import LineShell.Proofs.Shell.Rounds

/-!
# Descriptors of scripts

A script is opened, run and closed, and the closing comes whichever way the script ends: at its end,
with `exit`, without a child, or with a failure of any call.  So a descriptor that was given out is held
until it is closed, and nothing else is opened while it is held (`run_atRest`).

Descriptors only ever count up, so none is given out twice and none is that of standard input
(`run_fresh`).  Together this makes `Tidy` of every run that ends, which is the main result
(`Shell.run_tidy`).
-/

namespace LineShell

open Program LineShell.Action

/-- The descriptors that were given out. -/
def descriptorsOpened (events : List (Event ServiceCall.Reply)) : List Int :=
  events.filterMap fun
    | .called (.openReadOnly _) (.ok fd) => some fd
    | _ => none

/-- The descriptors that were asked to be closed. -/
def descriptorsClosed (events : List (Event ServiceCall.Reply)) : List Int :=
  events.filterMap fun
    | .called (.close fd) _ => some fd
    | _ => none

theorem descriptorsOpened_append (events more : List (Event ServiceCall.Reply)) :
    descriptorsOpened (events ++ more) = descriptorsOpened events ++ descriptorsOpened more :=
  List.filterMap_append

theorem descriptorsClosed_append (events more : List (Event ServiceCall.Reply)) :
    descriptorsClosed (events ++ more) = descriptorsClosed events ++ descriptorsClosed more :=
  List.filterMap_append

/-- A call that failed opened nothing. -/
theorem descriptorsOpened_error (c : ServiceCall) (e : Failure) :
    descriptorsOpened [.called c (.error e)] = [] := by
  cases c <;> rfl

/-- Whether an event is a call that opens or closes something. -/
def Event.ConcernsDescriptors : Event ServiceCall.Reply → Prop
  | .called c _ => c.name = .openReadOnly ∨ c.name = .close
  | .logged _ => False

/-- Each descriptor that was given out was closed just once, and nothing was opened or closed in
between; only descriptors that were given out before were closed, and never that of standard input; and
one at most was open at any time. -/
structure Tidy (events : List (Event ServiceCall.Reply)) : Prop where
  closedOnce : ∀ before path fd after,
    events = before ++ .called (.openReadOnly path) (.ok fd) :: after →
      fd ≠ standardInput ∧ fd ∉ descriptorsClosed before ∧ ∃ middle outcome rest,
        after = middle ++ .called (.close fd) outcome :: rest ∧
          (∀ e ∈ middle, ¬e.ConcernsDescriptors) ∧ fd ∉ descriptorsClosed rest
  opened : ∀ before fd outcome after, events = before ++ .called (.close fd) outcome :: after →
    fd ∈ descriptorsOpened before
  single : ∀ before after, events = before ++ after →
    ∃ held : Option Int, descriptorsOpened before = descriptorsClosed before ++ held.toList

namespace Descriptors

open Shell

/-- A file that is opened is taken, and closing its descriptor gives it back.  When a file is opened no
other one may be held. -/
def custody : Custody ServiceCall.Reply where
  taken?
    | .called (.openReadOnly _) (.ok fd) => some fd
    | _ => none
  given?
    | .called (.close fd) _ => some fd
    | _ => none
  bare
    | .called c _ => c.name = .openReadOnly
    | .logged _ => False

theorem custody_taken (events : List (Event ServiceCall.Reply)) :
    custody.taken events = descriptorsOpened events := rfl

theorem custody_given (events : List (Event ServiceCall.Reply)) :
    custody.given events = descriptorsClosed events := rfl

/-- What is neither bare nor gives anything back concerns no descriptor. -/
theorem not_concerns {e : Event ServiceCall.Reply} (hbare : ¬custody.bare e)
    (hgiven : custody.given? e = none) : ¬e.ConcernsDescriptors := by
  cases e with
  | logged entry => exact id
  | called c outcome =>
      intro h
      rcases h with hopen | hclose
      · exact hbare hopen
      · cases c with
        | close fd => cases hgiven
        | _ => cases hclose

/-- Only closing gives a descriptor back. -/
theorem eq_close_of_given {e : Event ServiceCall.Reply} {fd : Int} (h : custody.given? e = some fd) :
    ∃ outcome, e = .called (.close fd) outcome := by
  cases e with
  | logged entry => cases h
  | called c outcome =>
      cases c with
      | close other =>
          cases h
          exact ⟨outcome, rfl⟩
      | _ => cases h

theorem aside_called {c : ServiceCall} (hopen : c.name ≠ .openReadOnly) (hclose : c.name ≠ .close)
    (outcome : Except Failure c.Reply) : custody.Aside (.called c outcome) := by
  cases c with
  | openReadOnly path => exact absurd rfl hopen
  | close fd => exact absurd rfl hclose
  | _ => exact ⟨rfl, rfl, nofun⟩

theorem aside_logged (entry : Log.Entry) : custody.Aside (.logged entry) := ⟨rfl, rfl, id⟩

/-! ## Opening and closing in turn -/

variable {shell : Shell} {held : Option Int}

/-- One descriptor or none is open. -/
def Open (held : Option Int) : Assertion Session InMemory ServiceCall.Reply :=
  fun past _ _ => custody.At held past

/-- What neither opens nor closes anything leaves it as it is, even if its rounds are used up. -/
theorem ensures_open {α : Type} {p : Action α} {names : List ServiceCall.Name}
    {parts : List Session.Part} {stops : Bool} (hp : p.Footprint (scope names parts stops))
    (hnames : names.all sourceServices.contains) :
    Ensures InMemory.answer (Open held) p (fun _ => Open held) (fun _ => Open held)
      fun past s w => ∃ held, Open held past s w := by
  refine (Custody.ensures_aside hp InMemory.answer_inner ?_ aside_logged).mono (fun _ _ _ h => h)
    (fun _ _ _ _ h => h) (fun _ _ _ _ h => h) fun _ _ _ h => ⟨held, h.2⟩
  intro c hc outcome
  have hmem : sourceServices.contains c.name :=
    List.all_eq_true.mp hnames _ (List.contains_iff_mem.mp hc)
  exact aside_called (name_ne_of_mem hmem rfl) (name_ne_of_mem hmem rfl) outcome

/-- A file that was opened is held from then on. -/
theorem ensures_openScript (path : Text) :
    Ensures InMemory.answer (Open none) (openScript path) Open (fun _ => Open none)
      fun past s w => ∃ held, Open held past s w := by
  have hopen : Ensures InMemory.answer (Open none) (ask (.openReadOnly path))
      (fun (fd : Int) => Open (some fd)) (fun _ => Open none) Never := by
    apply Ensures.request_alone (InMemory.answer_inner _)
    · intro past s w fd h _
      exact Custody.At.take rfl rfl h
    · intro past s w e h _
      exact Custody.At.miss rfl rfl h
  refine Ensures.bind (Ensures.attempt (hopen.part fun _ _ _ _ h => h)) fun outcome => ?_
  cases outcome with
  | ok fd => exact Ensures.done fun _ _ _ h => h
  | error e =>
      dsimp only
      cases e.reportOf? .fileNotFound with
      | none => exact Ensures.fail fun _ _ _ h => h
      | some report =>
          refine Ensures.bind (ensures_open (@footprint_say [] [] false _ _ _) rfl) fun _ => ?_
          exact Ensures.done fun _ _ _ h => h

/-- Closing gives the descriptor back even if it fails. -/
theorem ensures_close (fd : Int) :
    Ensures InMemory.answer (Open (some fd)) (ask (.close fd)) (fun _ => Open none)
      (fun _ => Open none) fun past s w => ∃ held, Open held past s w := by
  have hclose : ∀ {past s} {w : InMemory} (outcome : Except Failure Unit) (v : InMemory),
      Open (some fd) past s w → Open none (past ++ [.called (.close fd) outcome]) s v := by
    intro past s w outcome v h
    exact Custody.At.give (nofun : ¬custody.bare (.called (.close fd) outcome)) rfl rfl h
  apply Ensures.request_alone (InMemory.answer_inner _)
  · intro past s w _ h _
    exact hclose _ _ h
  · intro past s w e h _
    exact hclose _ _ h

/-- However a script ends, it is closed. -/
theorem runScript_atRest (rounds : Nat) (script : Text) :
    Ensures InMemory.answer (Open none) (shell.runScript rounds script) (fun _ => Open none)
      (fun _ => Open none) fun past s w => ∃ held, Open held past s w := by
  refine Ensures.state_bind fun s => Ensures.weaken ?_ fun _ _ _ h => h.2
  refine Ensures.bind (ensures_open (@footprint_ask [.getPath] [] false .getPath rfl) rfl)
    fun searchPath => ?_
  refine Ensures.bind (ensures_open (footprint_resolve script s.cwd searchPath) rfl) fun path => ?_
  refine Ensures.bind (ensures_openScript path) fun opened => ?_
  cases opened with
  | none => exact Ensures.done fun _ _ _ h => h
  | some fd =>
      have hsay : Ensures InMemory.answer (Open (some fd))
          (say .debug (("Running script " : Text) ++ path) [("fd", .int fd)])
          (fun _ => Open (some fd)) (fun _ => Open none)
          fun past s w => ∃ held, Open held past s w :=
        Ensures.log fun _ _ _ h => Custody.At.aside (aside_logged _) h
      refine Ensures.bind hsay fun _ => ?_
      exact Ensures.andFinally (ensures_open (shell.footprint_runSource rounds fd false) rfl)
        (fun _ => ensures_close fd) fun _ => ensures_close fd

theorem runScripts_atRest (rounds : Nat) (scripts : List Text) :
    Ensures InMemory.answer (Open none) (shell.runScripts rounds scripts) (fun _ => Open none)
      (fun _ => Open none) fun past s w => ∃ held, Open held past s w := by
  induction scripts with
  | nil => exact Ensures.done fun _ _ _ h => h
  | cons script rest ih =>
      refine Ensures.bind (runScript_atRest rounds script) fun goOn => ?_
      cases goOn with
      | true => exact ih
      | false => exact Ensures.done fun _ _ _ h => h

/-- When a run ends nothing is open any more. -/
theorem run_atRest (rounds : Nat) (scripts : List Text) :
    Ensures InMemory.answer (Open none) (shell.run rounds scripts) (fun _ => Open none)
      (fun _ => Open none) fun past s w => ∃ held, Open held past s w := by
  refine Ensures.bind (ensures_open footprint_publishCwd rfl) fun _ => ?_
  refine Ensures.orElse (m := fun _ => Open none) ?_ fun e => ?_
  · refine Ensures.bind (runScripts_atRest rounds scripts) fun goOn => ?_
    cases goOn with
    | false => exact Ensures.done fun _ _ _ h => h
    | true =>
        refine Ensures.bind (ensures_open (shell.footprint_runSource rounds standardInput true) rfl)
          fun _ => ?_
        exact Ensures.done fun _ _ _ h => h
  · cases e with
    | interrupt =>
        refine Ensures.bind (ensures_open (@footprint_say [] [] false _ _ _) rfl) fun _ => ?_
        refine Ensures.bind (ensures_open (footprint_print "\n") rfl) fun _ => ?_
        exact Ensures.done fun _ _ _ h => h
    | _ => exact Ensures.fail fun _ _ _ h => h

/-! ## Descriptors only count up -/

/-- The descriptors that were given out are not that of standard input, no two of them are the same,
and the next one is above all of them. -/
structure Fresh (past : List (Event ServiceCall.Reply)) (nextFd : Int) : Prop where
  next : standardInput < nextFd
  below : ∀ fd ∈ descriptorsOpened past, standardInput < fd ∧ fd < nextFd
  nodup : (descriptorsOpened past).Nodup

variable {past : List (Event ServiceCall.Reply)} {nextFd later : Int}

/-- An event that gives out no descriptor. -/
theorem Fresh.concat {e : Event ServiceCall.Reply} (he : descriptorsOpened [e] = [])
    (hnextFd : nextFd ≤ later) (h : Fresh past nextFd) : Fresh (past ++ [e]) later := by
  have hopened : descriptorsOpened (past ++ [e]) = descriptorsOpened past := by
    rw [descriptorsOpened, List.filterMap_append]
    exact (congrArg _ he).trans (List.append_nil _)
  refine ⟨Int.lt_of_lt_of_le h.next hnextFd, ?_, ?_⟩
  · intro fd hfd
    rw [hopened] at hfd
    exact ⟨(h.below fd hfd).1, Int.lt_of_lt_of_le (h.below fd hfd).2 hnextFd⟩
  · rw [hopened]
    exact h.nodup

/-- The next descriptor is given out. -/
theorem Fresh.opening {path : Text} (hnextFd : nextFd < later) (h : Fresh past nextFd) :
    Fresh (past ++ [.called (.openReadOnly path) (.ok nextFd)]) later := by
  have hopened : descriptorsOpened (past ++ [.called (.openReadOnly path) (.ok nextFd)]) =
      descriptorsOpened past ++ [nextFd] := List.filterMap_append
  refine ⟨Int.lt_trans h.next hnextFd, ?_, ?_⟩
  · intro fd hfd
    rw [hopened] at hfd
    rcases List.mem_append.mp hfd with hfd | hfd
    · exact ⟨(h.below fd hfd).1, Int.lt_trans (h.below fd hfd).2 hnextFd⟩
    · rw [List.mem_singleton.mp hfd]
      exact ⟨h.next, hnextFd⟩
  · rw [hopened, List.nodup_append]
    refine ⟨h.nodup, by simp, ?_⟩
    intro fd hfd other hother heq
    rw [List.mem_singleton.mp hother] at heq
    exact Int.ne_of_lt (h.below fd hfd).2 heq

/-- Every call gives out the next descriptor or none. -/
theorem Fresh.answer {c : ServiceCall} {w : InMemory} (h : Fresh past w.nextFd) :
    Fresh (past ++ [.called c (InMemory.answer c w).outcome]) (InMemory.answer c w).world.nextFd := by
  have hnextFd := InMemory.nextFd_le_answer c w
  cases c with
  | openReadOnly path =>
      cases houtcome : (InMemory.answer (.openReadOnly path) w).outcome with
      | error e => exact h.concat rfl hnextFd
      | ok fd =>
          obtain ⟨rfl, hlater⟩ := InMemory.answer_openReadOnly_next houtcome
          exact h.opening hlater
  | _ => exact h.concat rfl hnextFd

theorem run_fresh (shell : Shell) (rounds : Nat) (scripts : List Text) (s : Session) {w : InMemory}
    (hfd : standardInput < w.nextFd) :
    (descriptorsOpened ((shell.run rounds scripts).run InMemory.answer s w).events).Nodup ∧
      standardInput ∉
        descriptorsOpened ((shell.run rounds scripts).run InMemory.answer s w).events := by
  have hkept : Ensures InMemory.answer (fun past _ w => Fresh past w.nextFd) (shell.run rounds scripts)
      (fun _ past _ w => Fresh past w.nextFd) (fun _ past _ w => Fresh past w.nextFd)
      fun past _ w => Fresh past w.nextFd := by
    refine (shell.footprint_run rounds scripts).ensures ?_ (fun _ _ _ _ _ h => h) ?_
      fun _ _ _ _ h => h
    · intro c _ past s w h
      rw [InMemory.answer_inner]
      exact h.answer
    · intro entry _ past s w h
      exact h.concat rfl (Int.le_refl _)
  have hfresh := hkept.always (fun _ _ _ _ h => h) (fun _ _ _ _ h => h) (fun _ _ _ h => h)
    (s := s) (w := w) ⟨hfd, nofun, List.nodup_nil⟩
  exact ⟨hfresh.nodup, fun hmem => Int.lt_irrefl _ (hfresh.below _ hmem).1⟩

/-- Descriptors that are given out and given back in turn, and only once, are kept tidy. -/
theorem tidy_of_atRest {events : List (Event ServiceCall.Reply)} (hrest : custody.At none events)
    (hnodup : (descriptorsOpened events).Nodup) (hinput : standardInput ∉ descriptorsOpened events) :
    Tidy events := by
  constructor
  · intro before path fd after hsplit
    have hbare : custody.bare (.called (.openReadOnly path) (.ok fd)) := rfl
    have hopened : descriptorsOpened events =
        descriptorsOpened before ++ fd :: descriptorsOpened after := by
      rw [hsplit, descriptorsOpened, List.filterMap_append]
      rfl
    rw [hopened] at hnodup hinput
    obtain ⟨-, hafter, hapart⟩ := List.nodup_append.mp hnodup
    obtain ⟨middle, g, rest, rfl, hg, hnone, hmiddle, hlater⟩ :=
      hrest.given_back (r := fd) hbare rfl rfl hsplit
    refine ⟨?_, ?_, middle, ?_⟩
    · intro hfd
      apply hinput
      rw [hfd]
      exact List.mem_append_right _ List.mem_cons_self
    · -- what was closed before was opened before
      have hbefore : descriptorsOpened before = descriptorsClosed before ++ [] :=
        hrest.orderly.bare before _ _ hsplit hbare
      rw [List.append_nil] at hbefore
      rw [← hbefore]
      intro hmem
      exact hapart fd hmem fd List.mem_cons_self rfl
    · obtain ⟨outcome, rfl⟩ := eq_close_of_given hg
      refine ⟨outcome, rest, rfl, ?_, ?_⟩
      · intro e he
        exact not_concerns (hmiddle e he) (List.filterMap_eq_nil_iff.mp hnone e he)
      · -- what is closed behind it was opened behind it
        rw [← custody_given, hlater, custody_taken]
        exact (List.nodup_cons.mp hafter).1
  · intro before fd outcome after hsplit
    exact hrest.orderly.mem_taken rfl rfl hsplit
  · intro before after hsplit
    exact hrest.orderly.single before after hsplit

end Descriptors

namespace Shell

/-- A run that has rounds enough ends of its own, and however it ends, its scripts are closed. -/
theorem run_tidy (shell : Shell) {rounds : Nat} (s : Session) {w : InMemory}
    (hfd : standardInput < w.nextFd) (hrounds : w.longestSource + w.faults.length < rounds)
    (scripts : List Text) :
    let o := (shell.run rounds scripts).run InMemory.answer s w
    o.ending ≠ .outOfRounds ∧ Tidy o.events := by
  intro o
  have hends : o.ending ≠ .outOfRounds := run_ne_outOfRounds shell s hrounds scripts
  have hfresh := Descriptors.run_fresh shell rounds scripts s hfd
  have hrun := @Descriptors.run_atRest shell rounds scripts [] s w Custody.at_nil
  have hrest : Descriptors.custody.At none o.events := by
    change o.ending.choose _ _ _ o.events o.state o.world at hrun
    cases hend : o.ending with
    | returned status => rwa [hend] at hrun
    | failed e => rwa [hend] at hrun
    | outOfRounds => exact absurd hend hends
  exact ⟨hends, Descriptors.tidy_of_atRest hrest hfresh.1 hfresh.2⟩

/-- The script that ends the run is closed before the run ends. -/
theorem run_tidy_of_twoScripts :
    let o := (Shell.default.run 8 ["go", "end"]).run InMemory.answer (.default "/") twoScripts
    descriptorsOpened o.events = [3, 4] ∧ descriptorsClosed o.events = [3, 4] ∧
      o.ending ≠ .outOfRounds ∧ Tidy o.events := by
  intro o
  have hfd : standardInput < twoScripts.nextFd := by decide
  have hrounds : twoScripts.longestSource + twoScripts.faults.length < 8 := by decide
  have htidy := run_tidy Shell.default (.default "/") hfd hrounds ["go", "end"]
  exact ⟨rfl, rfl, htidy⟩

end Shell

end LineShell
