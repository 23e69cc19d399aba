import LineShell.Value.Render

/-!
# Error reports

A report says in words what went wrong, under a numeric code and with named details.  There are
three families: start-up and configuration, processes, and files.  Each report keeps what it was
made from; its message, code and details follow.

Details given by the caller come first, and a report adds its own to them: the key of a bad
setting, the process id of a failed process call, the path of a file.

What a report is made from are values of any kind, with null for what is missing.  They are kept as
they are, and their kind shows only where a report is put into words.
-/

namespace LineShell

inductive ErrorReport.Kind where
  | kernel
  | bootFailure
  | badSetting
  | process
  | forkFailed
  | execFailed
  | fileSystem
  | fileNotFound
  | notADirectory
  deriving DecidableEq, Repr

namespace ErrorReport.Kind

def name : Kind → Text
  | kernel => "KernelException"
  | bootFailure => "BootFailureError"
  | badSetting => "ConfigValidationError"
  | process => "ProcessException"
  | forkFailed => "ForkError"
  | execFailed => "ExecError"
  | fileSystem => "FileSystemException"
  | fileNotFound => "FileNotFoundError"
  | notADirectory => "NotADirectoryError"

def family : Kind → Kind
  | kernel | bootFailure | badSetting => kernel
  | process | forkFailed | execFailed => process
  | fileSystem | fileNotFound | notADirectory => fileSystem

/-- A kind and the more general one above it, if there is one. -/
def lineage (k : Kind) : List Kind := if k = k.family then [k] else [k, k.family]

end ErrorReport.Kind

/-- A report, with the details its maker was given. -/
inductive ErrorReport where
  | kernel (message code recoverable given : Value)
  | bootFailure (message subsystem given : Value)
  | badSetting (message key given : Value)
  | process (message pid code given : Value)
  | forkFailed (message parent errno given : Value)
  | execFailed (message pid path given : Value)
  | fileSystem (message path code given : Value)
  | fileNotFound (path given : Value)
  | notADirectory (path given : Value)
  deriving Inhabited

namespace ErrorReport

def kind : ErrorReport → Kind
  | kernel .. => .kernel
  | bootFailure .. => .bootFailure
  | badSetting .. => .badSetting
  | process .. => .process
  | forkFailed .. => .forkFailed
  | execFailed .. => .execFailed
  | fileSystem .. => .fileSystem
  | fileNotFound .. => .fileNotFound
  | notADirectory .. => .notADirectory

def message : ErrorReport → Value
  | kernel m .. | bootFailure m .. | badSetting m .. => m
  | process m .. | forkFailed m .. | execFailed m .. | fileSystem m .. => m
  | fileNotFound path _ => .text ("File not found: " ++ path.render)
  | notADirectory path _ => .text ("no such directory: " ++ path.render)

/-- A code of the caller's, unless it is missing or zero. -/
def codeOr (code : Value) (default : Int) : Value := if code.isTruthy then code else .int default

/-- The numeric code: fixed for the special kinds, the caller's for the general ones. -/
def code : ErrorReport → Value
  | kernel _ c .. => codeOr c 0
  | bootFailure .. => .int 1002
  | badSetting .. => .int 1003
  | process _ _ c _ => codeOr c 2000
  | forkFailed .. => .int 2005
  | execFailed .. => .int 2006
  | fileSystem _ _ c _ => codeOr c 4000
  | fileNotFound .. => .int 4001
  | notADirectory .. => .int 4010

/-- Whether the program can go on after a report of the start-up family. -/
def recoverable? : ErrorReport → Option Value
  | kernel _ _ r _ => some r
  | bootFailure .. => some (.bool false)
  | badSetting .. => some (.bool true)
  | _ => none

/-- The process a report of the process family is about; null when there is none. -/
def pid : ErrorReport → Value
  | process _ pid .. | forkFailed _ pid .. | execFailed _ pid .. => pid
  | _ => .null

def path : ErrorReport → Value
  | fileSystem _ path .. | fileNotFound path _ | notADirectory path _ => path
  | _ => .null

def given : ErrorReport → Value
  | kernel _ _ _ given | bootFailure _ _ given | badSetting _ _ given => given
  | process _ _ _ given | forkFailed _ _ _ given | execFailed _ _ _ given => given
  | fileSystem _ _ _ given | fileNotFound _ given | notADirectory _ given => given

/-- A detail, unless it is null. -/
def present (name : Text) : Value → Fields
  | .null => []
  | v => [(name, v)]

def truthy (name : Text) (v : Value) : Fields := if v.isTruthy then [(name, v)] else []

/-- The details that a report adds to those it was given. -/
def ownDetails : ErrorReport → Fields
  | kernel .. => []
  | bootFailure _ subsystem _ => truthy "subsystem" subsystem
  | badSetting _ key _ => truthy "key" key
  | process _ pid .. => present "pid" pid
  | forkFailed _ parent errno _ => present "errno" errno ++ present "pid" parent
  | execFailed _ pid path _ => truthy "path" path ++ present "pid" pid
  | fileSystem _ path .. | fileNotFound path _ | notADirectory path _ => truthy "path" path

def putAll (fields own : Fields) : Fields :=
  own.foldl (fun fields (name, v) => fields.insert name v) fields

/-- The details: those given, and then the report's own.  What is given and is not a dictionary can
take no details; it stands for them as it is, unless it is not truthy. -/
def context (r : ErrorReport) : Value :=
  match r.given with
  | .dict fields => .dict (putAll fields r.ownDetails)
  | v => if v.isTruthy then v else .dict (putAll [] r.ownDetails)

/-- The report in one line: its code and message, and behind them in parentheses all its details,
its process or its path, whichever its family shows. -/
def render (r : ErrorReport) : Text :=
  let base := ("[Error " : Text) ++ r.code.render ++ "] " ++ r.message.render
  match r.kind.family with
  | .kernel =>
    match r.context with
    | .dict (entry :: rest) => base ++ " (" ++ Fields.render ", " (entry :: rest) ++ ")"
    | _ => base
  | .process =>
    match r.pid with
    | .null => base
    | pid => base ++ " (pid=" ++ pid.render ++ ")"
  | _ => if r.path.isTruthy then base ++ " (path=" ++ r.path.render ++ ")" else base

def quoted (r : ErrorReport) : Text :=
  match r.recoverable? with
  | some recoverable =>
    r.kind.name ++ "(message=" ++ r.message.quoted ++ ", error_code=" ++ r.code.render ++
      ", recoverable=" ++ recoverable.render ++ ")"
  | none => r.kind.name ++ "(" ++ r.message.quoted ++ ")"

def parts (r : ErrorReport) : Fields :=
  let always : Fields := [("message", r.message), ("error_code", r.code)]
  let recoverable : Fields := match r.recoverable? with
    | some v => [("recoverable", v)]
    | none => []
  let own : Fields := match r with
    | kernel .. => []
    | bootFailure _ subsystem _ => [("subsystem", subsystem)]
    | badSetting _ key _ => [("key", key)]
    | process _ pid .. => [("pid", pid)]
    | forkFailed _ pid errno _ => [("pid", pid), ("parent_pid", pid), ("errno", errno)]
    | execFailed _ pid path _ => [("path", path), ("pid", pid)]
    | fileSystem _ path .. | fileNotFound path _ | notADirectory path _ => [("path", path)]
  let context : Fields := [("context", r.context)]
  always ++ recoverable ++ context ++ own

/-- What becomes of the details a caller gave: a report adds its own to them, unless there were
none, in which case it keeps details apart. -/
def contextOfCaller (r : ErrorReport) : Value := if r.given.isTruthy then r.context else r.given

end ErrorReport

end LineShell
