import LineShell.Proofs.Program.Sequel
import LineShell.Proofs.Shell.Descriptors
import LineShell.Proofs.Shell.Pace

/-!
# What is left of a run

What is left of a run behind a call for a line, of which either the reading failed or the making of a child,
is what is left of the source, and then the rest of the run: a script is closed, and the scripts that had no
turn yet come next (`BehindScript`), and behind standard input there is nothing.

This is so whatever is known of the source by then, so the parts of the shell around it are done here once
for all such calls (`Shell.sequel_run`), from what is left of a source.
-/

namespace LineShell

open Program LineShell.Action

/-- A source is closed, and then something else is done. -/
def closingThen {α : Type} (fd : Int) (last : Action α) : Action α := (ask (.close fd)).bind fun _ => last

theorem closingThen_bind {α β : Type} (fd : Int) (last : Action α) (f : α → Action β) :
    (closingThen fd last).bind f = closingThen fd (last.bind f) := bind_assoc _ _ _

/-- What is left behind a call of a script that is given up: the script, which was opened last, is closed.
`S` is what is known of the call. -/
def BehindScript {α : Type} (S : Int → List (Event ServiceCall.Reply) → ServiceCall → Prop)
    (next : Action α) (past : List (Event ServiceCall.Reply)) (c : ServiceCall) (k : Action α) : Prop :=
  ∃ before path fd middle, past = before ++ .called (.openReadOnly path) (.ok fd) :: middle ∧
    descriptorsClosed middle = [] ∧ S fd middle c ∧ k = closingThen fd next

namespace BehindScript

variable {α β : Type} {S : Int → List (Event ServiceCall.Reply) → ServiceCall → Prop} {next : Action α}
  {past : List (Event ServiceCall.Reply)} {c : ServiceCall} {k : Action α}

theorem prepend (h : BehindScript S next past c k) (earlier : List (Event ServiceCall.Reply)) :
    BehindScript S next (earlier ++ past) c k := by
  obtain ⟨before, path, fd, middle, rfl, hclosed, hS, hk⟩ := h
  exact ⟨earlier ++ before, path, fd, middle, (List.append_assoc _ _ _).symm, hclosed, hS, hk⟩

theorem bind (h : BehindScript S next past c k) (f : α → Action β) :
    BehindScript S (next.bind f) past c (k.bind f) := by
  obtain ⟨before, path, fd, middle, hpast, hclosed, hS, rfl⟩ := h
  exact ⟨before, path, fd, middle, hpast, hclosed, hS, closingThen_bind fd next f⟩

end BehindScript

namespace Shell

variable {World : Type} {answer : (c : ServiceCall) → World → Answer World ServiceCall.Reply c}
  {s t : Session} {w v : World}

section Run

variable (hinner : ∀ c w, (answer c w).inner = [])
include hinner

/-! ## What is opened and closed -/

/-- What opens no source asks for none to be opened. -/
theorem openings_of_footprint {α : Type} {p : Action α} {names : List ServiceCall.Name}
    {parts : List Session.Part} {stops : Bool} (hp : p.Footprint (scope names parts stops))
    (hnames : names.contains .openReadOnly = false) {past : List (Event ServiceCall.Reply)}
    {x : Point Session World ServiceCall.Reply α} (h : Passes answer ⟨p, s, w⟩ past x) :
    openings past = [] := by
  refine List.filterMap_eq_nil_iff.mpr fun e he => ?_
  cases e with
  | logged entry => rfl
  | called c outcome =>
      have hc : names.contains c.name := h.calls_of_mem hinner (hp s) he
      cases c with
      | openReadOnly path => exact absurd rfl (name_ne_of_mem hc hnames)
      | _ => rfl

theorem closed_of_footprint {α : Type} {p : Action α} {names : List ServiceCall.Name}
    {parts : List Session.Part} {stops : Bool} (hp : p.Footprint (scope names parts stops))
    (hnames : names.contains .close = false) {past : List (Event ServiceCall.Reply)}
    {x : Point Session World ServiceCall.Reply α} (h : Passes answer ⟨p, s, w⟩ past x) :
    descriptorsClosed past = [] := by
  refine List.filterMap_eq_nil_iff.mpr fun e he => ?_
  cases e with
  | logged entry => rfl
  | called c outcome =>
      have hc : names.contains c.name := h.calls_of_mem hinner (hp s) he
      cases c with
      | close fd => exact absurd rfl (name_ne_of_mem hc hnames)
      | _ => rfl

/-- A script is asked for once. -/
theorem openings_openScript {path : Text} {opened : Option Int} {past : List (Event ServiceCall.Reply)}
    (h : Passes answer ⟨openScript path, s, w⟩ past ⟨.done opened, t, v⟩) :
    openings past = [path] ∧ ∀ fd, opened = some fd → past = [.called (.openReadOnly path) (.ok fd)] := by
  rcases h.attempt_request_cases with ⟨-, hstart⟩ | ⟨later, rfl, hopened⟩
  · cases hstart
  rw [hinner]
  cases houtcome : (answer (.openReadOnly path) w).outcome with
  | ok fd =>
      rw [houtcome] at hopened
      obtain ⟨rfl, hend⟩ := hopened.eq_of_end rfl
      cases hend
      exact ⟨rfl, fun _ hfd => Option.some.inj hfd ▸ rfl⟩
  | error e =>
      rw [houtcome] at hopened
      dsimp only at hopened
      cases hreport : e.reportOf? .fileNotFound with
      | none =>
          rw [hreport] at hopened
          obtain ⟨-, hend⟩ := hopened.eq_of_end rfl
          cases hend
      | some r =>
          rw [hreport] at hopened
          -- nothing but an entry follows, which opens nothing
          have hquiet : openings later = [] :=
            openings_of_footprint hinner
              (Footprint.bind (@footprint_say [] [] false _ _ _) fun _ => Footprint.done _) rfl hopened
          have hnone := congrArg Outcome.ending hopened.run_eq
          cases hnone
          refine ⟨?_, nofun⟩
          rw [openings_append, hquiet]
          rfl

variable (shell : Shell)

/-- A script that was gone through was asked for once. -/
theorem openings_runScript {rounds : Nat} {script : Text} {goOn : Bool}
    {past : List (Event ServiceCall.Reply)}
    (h : Passes answer ⟨shell.runScript rounds script, s, w⟩ past ⟨.done goOn, t, v⟩) :
    (openings past).length = 1 := by
  have hstate : (state : Action Session).Footprint (scope [] []) := fun _ => trivial
  have hpath : (ask .getPath).Footprint (scope [.getPath] []) := footprint_ask rfl
  obtain ⟨s', t₁, v₁, first, _, rfl, hfirst, h⟩ := h.done_cases
  obtain ⟨searchPath, t₂, v₂, second, _, rfl, hsecond, h⟩ := h.done_cases
  obtain ⟨path, t₃, v₃, third, _, rfl, hthird, h⟩ := h.done_cases
  obtain ⟨opened, t₄, v₄, asked, last, rfl, hasked, hlast⟩ := h.done_cases
  have hnone : openings last = [] := by
    cases opened with
    | none =>
        obtain ⟨rfl, -⟩ := hlast.eq_of_end rfl
        rfl
    | some fd =>
        have hsource : ((shell.runSource rounds fd false).andFinally (ask (.close fd))).Footprint
            (scope (.close :: sourceServices) [.cwd, .foreground, .line] true) :=
          Footprint.andFinally (widen (shell.footprint_runSource rounds fd false) rfl rfl rfl)
            (footprint_ask rfl)
        exact openings_of_footprint hinner
          (Footprint.bind (footprint_say _ _ _) fun _ => hsource) rfl hlast
  rw [openings_append, openings_append, openings_append, openings_append, hnone,
    openings_of_footprint hinner hstate rfl hfirst, openings_of_footprint hinner hpath rfl hsecond,
    openings_of_footprint hinner (footprint_resolve script s'.cwd searchPath) rfl hthird,
    (openings_openScript hinner hasked).1]
  rfl

/-! ## What is left -/

/-- The calls that are made for a line only. -/
def lineOnly : List ServiceCall.Name := [.readLine, .fork]

section Left

variable {Q : Sequel Session ServiceCall.Reply} (hQ : ∀ c, Q.calls c → c.name ∈ lineOnly)
  {S : Int → List (Event ServiceCall.Reply) → ServiceCall → Prop}
  {I : List (Event ServiceCall.Reply) → ServiceCall → Action Bool → Prop}

omit hinner in
include hQ in
/-- What is done around the lines makes none of the calls. -/
theorem no_call {names : List ServiceCall.Name} {parts : List Session.Part} {stops : Bool}
    (hnames : ∀ name ∈ lineOnly, name ∉ names) (c : ServiceCall)
    (hc : (scope names parts stops).calls c) : ¬Q.calls c := fun hcalls =>
  hnames _ (hQ c hcalls) (List.contains_iff_mem.mp hc)

include hQ in
/-- Behind what opens no source and makes none of the calls. -/
theorem sequel_aside {α β : Type} {n : Nat} {next : Action β} {p : Action α} {f : α → Action β}
    {names : List ServiceCall.Name} {parts : List Session.Part} {stops : Bool}
    (hp : p.Footprint (scope names parts stops)) (hopen : names.contains .openReadOnly = false)
    (hnames : ∀ name ∈ lineOnly, name ∉ names)
    (hf : ∀ a t v, Q.Of answer
      (fun past c k => (openings past).length = n ∧ BehindScript S next past c k) (f a) t v) :
    Q.Of answer (fun past c k => (openings past).length = n ∧ BehindScript S next past c k) (p.bind f)
      s w := by
  refine .behind hp (no_call hQ hnames) fun a t v before hbefore =>
    (hf a t v).mono fun past c k h => ⟨?_, h.2.prepend _⟩
  rw [openings_append, openings_of_footprint hinner hp hopen hbefore]
  exact h.1

include hQ in
/-- A script is left behind one of the calls. -/
theorem sequel_runScript
    (hscript : ∀ fd rounds s w, Q.Of answer (fun past c k => S fd past c ∧ k = done true)
      (shell.runSource rounds fd false) s w)
    (hprepend : ∀ fd before past c, S fd past c → S fd (before ++ past) c) (rounds : Nat) (script : Text) :
    Q.Of answer (fun past c k => (openings past).length = 1 ∧ BehindScript S (done true) past c k)
      (shell.runScript rounds script) s w := by
  have hstate : (state : Action Session).Footprint (scope [] []) := fun _ => trivial
  refine sequel_aside hinner hQ hstate rfl (by decide) fun s' t v => ?_
  have hpath : (ask .getPath).Footprint (scope [.getPath] []) := footprint_ask rfl
  refine sequel_aside hinner hQ hpath rfl (by decide) fun searchPath t v => ?_
  refine sequel_aside hinner hQ (footprint_resolve script s'.cwd searchPath) rfl (by decide)
    fun path t v => ?_
  refine .behind (footprint_openScript path) (no_call hQ (by decide)) fun opened t v before hopened => ?_
  cases opened with
  | none => exact .done _
  | some fd =>
      obtain rfl := (openings_openScript hinner hopened).2 fd rfl
      have htell := @footprint_say [] [] false .debug (("Running script " : Text) ++ path) [("fd", .int fd)]
      refine .behind htell (no_call hQ (by decide)) fun _ t v told htold => ?_
      have hsource := shell.footprint_runSource rounds fd false
      -- while the script runs nothing else is opened, and it is not closed yet
      refine Sequel.Of.attempt_bind ((hscript fd rounds t v).seen
        (P := fun past => openings past = [] ∧ descriptorsClosed past = []) fun past x hpass =>
          ⟨openings_of_footprint hinner hsource rfl hpass, closed_of_footprint hinner hsource rfl hpass⟩)
        ?_ fun outcome t v before => ?_
      · rintro past c k ⟨⟨hopenings, hclosed⟩, hS, rfl⟩
        refine ⟨?_, [], path, fd, told ++ past, rfl, ?_, hprepend fd told past c hS, rfl⟩
        · rw [openings_append, openings_append, hopenings, openings_of_footprint hinner htell rfl htold]
          rfl
        · rw [descriptorsClosed_append, hclosed, closed_of_footprint hinner htell rfl htold]
          rfl
      · have hclose : (ask (.close fd)).Footprint (scope [.close] []) := footprint_ask rfl
        exact .of_footprint (Footprint.bind hclose fun _ => Footprint.ofExcept _)
          (no_call hQ (by decide))

include hQ in
/-- Behind a script that is given up come the scripts that had no turn yet. -/
theorem sequel_runScripts
    (hscript : ∀ fd rounds s w, Q.Of answer (fun past c k => S fd past c ∧ k = done true)
      (shell.runSource rounds fd false) s w)
    (hprepend : ∀ fd before past c, S fd past c → S fd (before ++ past) c) (rounds : Nat)
    (scripts : List Text) :
    Q.Of answer
      (fun past => BehindScript S (shell.runScripts rounds (scripts.drop (openings past).length)) past)
      (shell.runScripts rounds scripts) s w := by
  induction scripts generalizing s w with
  | nil => exact .done _
  | cons script rest ih =>
      refine (sequel_runScript hinner shell hQ hscript hprepend rounds script).bind ?_
        fun goOn t v before hbefore => ?_
      · rintro past c k ⟨hone, hleft⟩
        rw [hone]
        exact hleft.bind _
      · cases goOn with
        | false => exact .done _
        | true =>
            refine ih.mono fun past c k h => ?_
            rw [openings_append, List.length_append, openings_runScript hinner shell hbefore,
              Nat.add_comm, List.drop_succ_cons]
            exact h.prepend before

include hQ in
/-- What is left of a run behind one of the calls: behind a script that is given up come the scripts that had
no turn yet, and behind what is left of standard input comes nothing. -/
theorem sequel_run
    (hscript : ∀ fd rounds s w, Q.Of answer (fun past c k => S fd past c ∧ k = done true)
      (shell.runSource rounds fd false) s w)
    (hprepend : ∀ fd before past c, S fd past c → S fd (before ++ past) c)
    (hinput : ∀ rounds s w, Q.Of answer I (shell.runSource rounds standardInput true) s w)
    (hearlier : ∀ before past c k, I past c k → I (before ++ past) c k) (rounds : Nat)
    (scripts : List Text) :
    Q.Of answer (fun past c k => ∃ rest, k = rest.orElse lastWords ∧
        ((∃ left, I past c left ∧ rest = left.bind fun _ => done 0) ∨
          BehindScript S (shell.work rounds (scripts.drop (openings past).length)) past c rest))
      (shell.run rounds scripts) s w := by
  rw [run_eq_work]
  refine .behind footprint_publishCwd (no_call hQ (by decide)) fun _ t v before hbefore => ?_
  have hquiet := openings_of_footprint hinner footprint_publishCwd rfl hbefore
  -- a call is either one of standard input or one of the script whose turn it is
  have hwork : Q.Of answer (fun past c k => (∃ left, I past c left ∧ k = left.bind fun _ => done 0) ∨
      BehindScript S (shell.work rounds (scripts.drop (openings past).length)) past c k)
      (shell.work rounds scripts) t v := by
    refine (sequel_runScripts hinner shell hQ hscript hprepend rounds scripts).bind ?_
      fun goOn t v before _ => ?_
    · rintro past c k hleft
      exact .inr (hleft.bind _)
    · cases goOn with
      | false => exact .done _
      | true =>
          refine (hinput rounds t v).bind ?_ fun _ _ _ _ _ => .done _
          exact fun past c k hleft => .inl ⟨k, hearlier before past c k hleft, rfl⟩
  refine hwork.attempt_bind ?_ fun outcome _ _ _ => ?_
  · rintro past c k hleft
    refine ⟨k, rfl, ?_⟩
    rw [openings_append, hquiet, List.nil_append]
    rcases hleft with ⟨left, hleft, rfl⟩ | hbehind
    · exact .inl ⟨left, hearlier before past c left hleft, rfl⟩
    · exact .inr (hbehind.prepend before)
  · cases outcome with
    | ok status => exact .done _
    | error e => exact .of_footprint (footprint_lastWords e) (no_call hQ (by decide))

end Left

end Run

end Shell

end LineShell
