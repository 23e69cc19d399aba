import LineShell.Failure

/-!
# Reports from named arguments

A report can be made from named arguments.  Each kind has its own names; an argument that a kind
does not have, or a missing one that it cannot do without, is refused.  So are details that the
report would have to add its own to, if they are no dictionary.
-/

namespace LineShell.ErrorReport

/-- The arguments of a kind: those it needs and those it may do without. -/
def Kind.arguments : Kind → List Text × List Text
  | kernel => (["message"], ["error_code", "recoverable", "context"])
  | bootFailure => (["message"], ["subsystem", "context"])
  | badSetting => (["message"], ["key", "context"])
  | process => (["message"], ["pid", "error_code", "context"])
  | forkFailed => (["message", "parent_pid"], ["errno", "context"])
  | execFailed => (["message", "pid"], ["path", "context"])
  | fileSystem => (["message"], ["path", "error_code", "context"])
  | fileNotFound => (["path"], ["context"])
  | notADirectory => (["path"], ["context"])

def Kind.accepts (k : Kind) (arguments : Fields) : Bool :=
  k.arguments.1.all (fun name => (arguments.get? name).isSome) &&
    arguments.all fun (name, _) => k.arguments.1.contains name || k.arguments.2.contains name

def build (k : Kind) (arguments : Fields) : ErrorReport :=
  let argument (name : Text) : Value := (arguments.get? name).getD .null
  let message := argument "message"
  let code := argument "error_code"
  let pid := argument "pid"
  let path := argument "path"
  let given := argument "context"
  match k with
  | .kernel => kernel message code ((arguments.get? "recoverable").getD (.bool false)) given
  | .bootFailure => bootFailure message (argument "subsystem") given
  | .badSetting => badSetting message (argument "key") given
  | .process => process message pid code given
  | .forkFailed => forkFailed message (argument "parent_pid") (argument "errno") given
  | .execFailed => execFailed message pid path given
  | .fileSystem => fileSystem message path code given
  | .fileNotFound => fileNotFound path given
  | .notADirectory => notADirectory path given

def hasNamedDetails (r : ErrorReport) : Bool :=
  match r.context with
  | .dict _ => true
  | _ => false

def ofArguments (k : Kind) (arguments : Fields) : Except Failure ErrorReport :=
  let r := build k arguments
  if k.accepts arguments && (r.hasNamedDetails || r.ownDetails.isEmpty) then .ok r
  else .error .wrongKind

/-- The report in one line.  A family that shows all details needs their names. -/
def describe (r : ErrorReport) : Except Failure Text :=
  if r.kind.family = .kernel && !r.hasNamedDetails then .error .noSuchPart else .ok r.render

end LineShell.ErrorReport
