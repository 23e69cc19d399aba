import LineShell.Proofs.Program.Ensures
import LineShell.Service

/-!
# What is seen of a run

Of the calls a run makes to the services some say how far it got: the lines it read, the paths it
opened and executed, the directory it published, and what making a child came to.
-/

namespace LineShell

/-- The lines that were read. -/
def chunks (events : List (Event ServiceCall.Reply)) : List Bytes :=
  events.filterMap fun
    | .called (.readLine ..) (.ok (byte :: rest)) => some (byte :: rest)
    | _ => none

/-- The working directory that was published last. -/
def lastPwd (pwd : Text) (events : List (Event ServiceCall.Reply)) : Text :=
  events.foldl (fun pwd e =>
    match e with
    | .called (.setPwd path) (.ok _) => path
    | _ => pwd) pwd

/-- The paths that were asked to be opened. -/
def openings (events : List (Event ServiceCall.Reply)) : List Text :=
  events.filterMap fun
    | .called (.openReadOnly path) _ => some path
    | _ => none

/-- The bytes that were read from a descriptor. -/
def bytesRead (fd : Int) (events : List (Event ServiceCall.Reply)) : Bytes :=
  events.flatMap fun
    | .called (.readLine source _ _) (.ok line) => if source = fd then line else []
    | _ => []

/-- What making a child came to. -/
def forkReplies (events : List (Event ServiceCall.Reply)) : List Int :=
  events.filterMap fun
    | .called .fork (.ok pid) => some pid
    | _ => none

/-- The paths that were asked to be executed. -/
def execs (events : List (Event ServiceCall.Reply)) : List Text :=
  events.filterMap fun
    | .called (.exec path _) _ => some path
    | _ => none

@[simp] theorem chunks_append (events more : List (Event ServiceCall.Reply)) :
    chunks (events ++ more) = chunks events ++ chunks more := List.filterMap_append

theorem lastPwd_append (pwd : Text) (events more : List (Event ServiceCall.Reply)) :
    lastPwd pwd (events ++ more) = lastPwd (lastPwd pwd events) more := List.foldl_append

theorem openings_append (events more : List (Event ServiceCall.Reply)) :
    openings (events ++ more) = openings events ++ openings more := List.filterMap_append

theorem bytesRead_append (fd : Int) (events more : List (Event ServiceCall.Reply)) :
    bytesRead fd (events ++ more) = bytesRead fd events ++ bytesRead fd more := List.flatMap_append

theorem forkReplies_append (events more : List (Event ServiceCall.Reply)) :
    forkReplies (events ++ more) = forkReplies events ++ forkReplies more := List.filterMap_append

theorem execs_append (events more : List (Event ServiceCall.Reply)) :
    execs (events ++ more) = execs events ++ execs more := List.filterMap_append

theorem openings_of_name_ne {c : ServiceCall} (h : c.name ≠ .openReadOnly)
    (outcome : Except Failure c.Reply) : openings [.called c outcome] = [] := by
  cases c with
  | openReadOnly path => exact absurd rfl h
  | _ => rfl

theorem forkReplies_of_name_ne {c : ServiceCall} (h : c.name ≠ .fork)
    (outcome : Except Failure c.Reply) : forkReplies [.called c outcome] = [] := by
  cases c with
  | fork => exact absurd rfl h
  | _ => rfl

theorem execs_of_name_ne {c : ServiceCall} (h : c.name ≠ .exec) (outcome : Except Failure c.Reply) :
    execs [.called c outcome] = [] := by
  cases c with
  | exec path argv => exact absurd rfl h
  | _ => rfl

end LineShell
