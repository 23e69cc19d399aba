import LineShell.Os.Call
import LineShell.Proofs.Program.Footprint
import LineShell.Service

/-!
# What a child does

A fork that answers zero leaves the rest of a run to a child.  Its calls are read as acts: to carry
on as an interpreter, to become another program, to ask for its own id, and to leave.  All other
calls say nothing about where the child is headed.

`LeavesOnce` is what is expected of a child.  The same reading is made of the calls to the services
(`Reading.services`) and of the calls to an operating system (`Reading.system`).
-/

namespace LineShell

/-- What a call means when a child makes it. -/
inductive Child.Act where
  /-- Goes on as an interpreter: reads, makes or awaits a child, or enters or opens something. -/
  | carryOn
  /-- Becomes another program; a failure of that may be reported under the child's own id. -/
  | become (reported : Bool)
  /-- Asks for its own id. -/
  | identify (answered : Bool)
  /-- Ends the process with a status. -/
  | leave (status : Value)

namespace Child

/-- Whether an act is to become another program. -/
def Act.isBecome : Act → Bool
  | become _ => true
  | _ => false

/-- What a child has done before it leaves: it asked for its id and, once that was known, tried to
become another program at most once. -/
inductive Prepares : List Act → Prop where
  | asked (answered : Bool) : Prepares [.identify answered]
  | tried : Prepares [.identify true, .become false]
  | reported (answered : Bool) : Prepares [.identify true, .become true, .identify answered]

/-- A child does not carry on as an interpreter, becomes another program at most once, and then asks
for its id once more and leaves, once, with a status.  Without its id it does not get to leave. -/
structure LeavesOnce (status : Value) (acts : List Act) : Prop where
  staysChild : .carryOn ∉ acts
  becomesOnce : acts.countP Act.isBecome ≤ 1
  leaves : ∃ early answered, Prepares early ∧
    acts = early ++ .identify answered :: if answered then [.leave status] else []

/-- A condition on the acts before the last one. -/
def Then (T : List Act → Prop) (last : Act) (acts : List Act) : Prop :=
  ∃ early, T early ∧ acts = early ++ [last]

theorem Prepares.leavesOnce {early : List Act} (h : Prepares early) (status : Value)
    (answered : Bool) :
    LeavesOnce status (early ++ .identify answered :: if answered then [.leave status] else []) where
  staysChild := by cases h <;> cases answered <;> simp
  becomesOnce := by cases h <;> cases answered <;> simp [Act.isBecome, List.countP_cons]
  leaves := ⟨early, answered, h, rfl⟩

/-- A child that cannot find out who it is does not get to leave. -/
theorem LeavesOnce.unidentified {status : Value} {acts : List Act}
    (h : Then Prepares (.identify false) acts) : LeavesOnce status acts := by
  obtain ⟨early, hearly, rfl⟩ := h
  exact hearly.leavesOnce status false

theorem LeavesOnce.leave {status : Value} {acts : List Act}
    (h : Then (Then Prepares (.identify true)) (.leave status) acts) :
    LeavesOnce status acts := by
  obtain ⟨_, ⟨early, hearly, rfl⟩, rfl⟩ := h
  simpa using hearly.leavesOnce status true

/-! ## Reading a run -/

variable {σ Call World : Type} {Reply : Call → Type}

/-- How a run is read: the call that makes a child and the reply a child has to it, and the act that
each call is. -/
structure Reading {Call : Type} (Reply : Call → Type) where
  fork : Call
  newborn : Reply fork
  act? : (c : Call) → Except Failure (Reply c) → Option Act

namespace Reading

/-- The event with which a child begins. -/
def birth (R : Reading Reply) : Event Reply := .called R.fork (.ok R.newborn)

/-- The act that an event is. -/
def actOf? (R : Reading Reply) : Event Reply → Option Act
  | .called c outcome => R.act? c outcome
  | .logged _ => none

/-- The acts among the events. -/
def acts (R : Reading Reply) (events : List (Event Reply)) : List Act := events.filterMap R.actOf?

@[simp] theorem acts_append (R : Reading Reply) (events more : List (Event Reply)) :
    R.acts (events ++ more) = R.acts events ++ R.acts more := List.filterMap_append

/-- The act a call to the services is. -/
def serviceAct? : (c : ServiceCall) → Except Failure c.Reply → Option Act
  | .readLine .., _ | .fork, _ | .waitpid .., _ | .isDir _, _ | .setPwd _, _
  | .openReadOnly _, _ => some .carryOn
  | .exec .., _ => some (.become false)
  | .getPid, .ok _ => some (.identify true)
  | .getPid, .error _ => some (.identify false)
  | .exit status, _ => some (.leave status)
  | .write .., _ | .fileExists _, _ | .close _, _ | .getPwd, _ | .getPath, _ => none

/-- The act a call to an operating system is. -/
def systemAct? : (c : OsCall) → Except Failure c.Reply → Option Act
  | .seek .., _ | .readBytes .., _ | .fork, _ | .waitpid .., _ | .isDir _, _ | .chdir _, _
  | .setVariable .., _ | .openFile _, _ | .kill .., _ | .signal _, _ | .sleep _, _
  | .clock, _ => some .carryOn
  | .execve .., .error (.os ..) | .execve .., .error (.badValue _) => some (.become true)
  | .execve .., _ => some (.become false)
  | .getpid, .ok _ => some (.identify true)
  | .getpid, .error _ => some (.identify false)
  | .exit status, _ => some (.leave status)
  | .isFile _, _ | .close _, _ | .writeBytes .., _ | .getcwd, _ | .environment, _ => none

/-- A run over the services. -/
def services : Reading ServiceCall.Reply := ⟨.fork, (0 : Int), serviceAct?⟩

/-- A run over an operating system. -/
def system : Reading OsCall.Reply := ⟨.fork, (0 : Int), systemAct?⟩

end Reading

/-! ## Conditions on a moment of a run -/

/-- No child has begun, and the world is as it should be. -/
def InParent (R : Reading Reply) (sound : World → Prop) : Assertion σ World Reply :=
  fun past _ w => R.birth ∉ past ∧ sound w

/-- A child has begun, once, and did things since, and the world is as it should be. -/
def InChild (R : Reading Reply) (sound : World → Prop) (T : List Act → Prop) :
    Assertion σ World Reply :=
  fun past _ w =>
    (∃ before after, past = before ++ R.birth :: after ∧ R.birth ∉ before ∧ T (R.acts after)) ∧
      sound w

variable {R : Reading Reply} {sound : World → Prop} {T U : List Act → Prop}
  {past : List (Event Reply)} {s t : σ} {w v : World}

theorem InChild.mono (hTU : ∀ acts, T acts → U acts) (h : InChild R sound T past s w) :
    InChild R sound U past t w := by
  obtain ⟨⟨before, after, hpast, hbefore, hacts⟩, hw⟩ := h
  exact ⟨⟨before, after, hpast, hbefore, hTU _ hacts⟩, hw⟩

/-- A child goes on with more events. -/
theorem InChild.append {events : List (Event Reply)}
    (hTU : ∀ acts, T acts → U (acts ++ R.acts events)) (hv : sound v)
    (h : InChild R sound T past s w) : InChild R sound U (past ++ events) t v := by
  obtain ⟨⟨before, after, rfl, hbefore, hacts⟩, -⟩ := h
  refine ⟨⟨before, after ++ events, by simp, hbefore, ?_⟩, hv⟩
  rw [Reading.acts_append]
  exact hTU _ hacts

theorem InChild.logged {entry : Log.Entry} (h : InChild R sound T past s w) :
    InChild R sound T (past ++ [.logged entry]) t w :=
  h.append (fun _ hacts => by rwa [show R.acts [.logged entry] = [] from rfl, List.append_nil]) h.2

theorem InParent.append {events : List (Event Reply)} (hevents : R.birth ∉ events) (hv : sound v)
    (h : InParent R sound past s w) : InParent R sound (past ++ events) t v :=
  ⟨by rw [List.mem_append]; exact fun hmem => hmem.elim h.1 hevents, hv⟩

theorem InParent.logged {entry : Log.Entry} (h : InParent R sound past s w) :
    InParent R sound (past ++ [.logged entry]) t w :=
  h.append (fun hmem => nomatch List.mem_singleton.mp hmem) h.2

/-- The child that is born last has done nothing yet. -/
theorem InParent.birth (hv : sound v) (h : InParent R sound past s w) :
    InChild R sound (· = []) (past ++ [R.birth]) t v :=
  ⟨⟨past, [], rfl, h.1, rfl⟩, hv⟩

end Child

end LineShell
