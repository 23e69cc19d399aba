import LineShell.Proofs.Os.World
import LineShell.Proofs.Services.Host

/-!
# What a run shows

From outside little is seen of a run: the bytes that arrive on standard output, and what it does to the
processes around it.  A `View` reads both off the events, one for the services and one for the
operating system, so that runs over either can be compared (`View.Same`).

Most calls show nothing.  A service of a host that makes no others shows nothing either
(`View.dark_carryOut`).
-/

namespace LineShell

open Program

/-- What a run does to the processes around it. -/
inductive Deed where
  /-- A child is made, or this is the child. -/
  | forked (pid : Int)
  /-- It is tried to become another program. -/
  | executed (path : Text) (argv : List Text)
  /-- A child is waited for. -/
  | awaited (pid : Int)
  deriving DecidableEq, Repr

/-- What is seen of each event: the bytes that arrive on standard output, and a deed. -/
structure View {Call : Type} (Reply : Call → Type) where
  bytes : Event Reply → Bytes
  deed? : Event Reply → Option Deed

namespace View

section Events

variable {Call : Type} {Reply : Call → Type} (v : View Reply) (events more : List (Event Reply))

/-- The bytes that arrived on standard output. -/
def output : Bytes := events.flatMap v.bytes

/-- The deeds in order. -/
def deeds : List Deed := events.filterMap v.deed?

/-- Events that show nothing. -/
structure Dark : Prop where
  output : v.output events = []
  deeds : v.deeds events = []

theorem output_append : v.output (events ++ more) = v.output events ++ v.output more :=
  List.flatMap_append

theorem deeds_append : v.deeds (events ++ more) = v.deeds events ++ v.deeds more :=
  List.filterMap_append ..

variable {v events more}

theorem dark_nil : v.Dark [] := ⟨rfl, rfl⟩

theorem Dark.append (h : v.Dark events) (h' : v.Dark more) : v.Dark (events ++ more) := by
  refine ⟨?_, ?_⟩
  · rw [output_append, h.output, h'.output]
    rfl
  · rw [deeds_append, h.deeds, h'.deeds]
    rfl

theorem Dark.output_append (h : v.Dark more) : v.output (events ++ more) = v.output events := by
  rw [View.output_append, h.output, List.append_nil]

theorem Dark.deeds_append (h : v.Dark more) : v.deeds (events ++ more) = v.deeds events := by
  rw [View.deeds_append, h.deeds, List.append_nil]

end Events

/-- What is seen of calls to services: text is seen as its bytes. -/
def services : View ServiceCall.Reply where
  bytes
    | .called (.write fd text) (.ok _) =>
      if fd = standardOutput then (Text.Utf8.encode? text).getD [] else []
    | _ => []
  deed?
    | .called .fork (.ok pid) => some (.forked pid)
    | .called (.exec path argv) _ => some (.executed path argv)
    | .called (.waitpid pid _) _ => some (.awaited pid)
    | _ => none

/-- What is seen of calls to an operating system: of the bytes that are written only those that are
taken. -/
def system : View OsCall.Reply where
  bytes
    | .called (.writeBytes fd bytes) (.ok taken) =>
      if fd = standardOutput then bytes.take taken else []
    | _ => []
  deed?
    | .called .fork (.ok pid) => some (.forked pid)
    | .called (.execve path argv _) _ => some (.executed path argv)
    | .called (.waitpid pid _) _ => some (.awaited pid)
    | _ => none

/-- The services that show something. -/
def shownServices : List ServiceCall.Name := [.write, .fork, .exec, .waitpid]

/-- The calls to an operating system that show something. -/
def shownCalls : List OsCall.Name := [.writeBytes, .fork, .execve, .waitpid]

theorem dark_service {c : ServiceCall} (hc : shownServices.contains c.name = false)
    (outcome : Except Failure c.Reply) : services.Dark [.called c outcome] := by
  cases c <;> first | exact ⟨rfl, rfl⟩ | cases hc

theorem dark_call {c : OsCall} (hc : shownCalls.contains c.name = false)
    (outcome : Except Failure c.Reply) : system.Dark [.called c outcome] := by
  cases c <;> first | exact ⟨rfl, rfl⟩ | cases hc

/-- A program of calls that show nothing shows nothing. -/
theorem dark_of_footprint {σ α : Type} {p : Program σ OsCall.Reply α} {names : List OsCall.Name}
    {stops : Bool} (hp : p.Footprint (Host.scope names stops))
    (hnames : names.all (fun name => !shownCalls.contains name) = true) (s : σ) (w : OsWorld) :
    system.Dark (p.run OsWorld.answer s w).events := by
  have hkept : Ensures OsWorld.answer (fun past _ _ => system.Dark past) p
      (fun _ past _ _ => system.Dark past) (fun _ past _ _ => system.Dark past)
      fun past _ _ => system.Dark past := by
    refine hp.ensures (fun c hc past s w hdark => ?_) (fun _ _ _ _ hchange => hchange.elim)
      (fun _ _ _ _ _ hdark => hdark.append ⟨rfl, rfl⟩) fun _ _ _ _ hdark => hdark
    have hname : shownCalls.contains c.name = false := by
      have hall := List.all_eq_true.mp hnames c.name (List.contains_iff_mem.mp hc)
      rwa [Bool.not_eq_true'] at hall
    have hwait : c.name ≠ .waitpid := by
      intro heq
      rw [heq] at hname
      cases hname
    rw [OsWorld.answer_inner_of_ne hwait]
    exact hdark.append (dark_call hname _)
  exact hkept.always (fun _ _ _ _ h => h) (fun _ _ _ _ h => h) (fun _ _ _ h => h) dark_nil

/-- Carrying out a service that shows nothing shows nothing. -/
theorem dark_carryOut {σ : Type} (rounds : Nat) {c : ServiceCall}
    (hc : shownServices.contains c.name = false) (s : σ) (w : OsWorld) :
    system.Dark ((Host.carryOut rounds c).run OsWorld.answer s w).events := by
  refine dark_of_footprint (Host.footprint_carryOut rounds c) ?_ s w
  cases c <;> first | rfl | cases hc

/-- Two runs that look alike from outside, one over services and one over an operating system. -/
structure Same (events : List (Event ServiceCall.Reply)) (events' : List (Event OsCall.Reply)) :
    Prop where
  output : system.output events' = services.output events
  deeds : system.deeds events' = services.deeds events

theorem Same.append {events more : List (Event ServiceCall.Reply)}
    {events' more' : List (Event OsCall.Reply)} (h : Same events events') (h' : Same more more') :
    Same (events ++ more) (events' ++ more') := by
  refine ⟨?_, ?_⟩
  · rw [output_append, output_append, h.output, h'.output]
  · rw [deeds_append, deeds_append, h.deeds, h'.deeds]

/-- Where both show nothing they look alike. -/
theorem same_of_dark {events : List (Event ServiceCall.Reply)} {events' : List (Event OsCall.Reply)}
    (h : services.Dark events) (h' : system.Dark events') : Same events events' :=
  ⟨h'.output.trans h.output.symm, h'.deeds.trans h.deeds.symm⟩

/-- A service that shows nothing looks alike however it is carried out. -/
theorem same_of_carryOut {σ : Type} (rounds : Nat) {c : ServiceCall} {s : σ} {w : OsWorld}
    {o : Outcome σ OsWorld OsCall.Reply c.Reply} (hc : shownServices.contains c.name = false)
    (h : (Host.carryOut rounds c).run OsWorld.answer s w = o) (outcome : Except Failure c.Reply) :
    Same [.called c outcome] o.events := by
  have hdark := dark_carryOut rounds hc s w
  rw [h] at hdark
  exact same_of_dark (dark_service hc outcome) hdark

end View

end LineShell
