import LineShell.Failure

/-!
# Log levels

Five levels say how much a record matters.  A level is a number, larger for what matters more;
numbers between the five are levels too and are named by their number.
-/

namespace LineShell.Log

inductive Level where
  | debug
  | info
  | warning
  | error
  | critical
  deriving DecidableEq, Repr, Inhabited

namespace Level

def value : Level → Int
  | debug => 10
  | info => 20
  | warning => 30
  | error => 40
  | critical => 50

def name : Level → Text
  | debug => "DEBUG"
  | info => "INFO"
  | warning => "WARNING"
  | error => "ERROR"
  | critical => "CRITICAL"

def all : List Level := [debug, info, warning, error, critical]

def ofName? (name : Text) : Option Level := all.find? fun l => l.name == name

def ofValue? (n : Int) : Option Level := all.find? fun l => l.value == n

def nameOf (n : Int) : Text :=
  match ofValue? n with
  | some l => l.name
  | none => if n = 0 then "NOTSET" else ("Level " : Text) ++ Text.ofInt n

/-- The numbers that a level may be named by besides the named levels. -/
def otherNames : List (Text × Int) := [("FATAL", 50), ("WARN", 30), ("NOTSET", 0)]

/-- The number of a level that is given by its number or by its name in capital letters. -/
def ofSetting : Value → Except Failure Int
  | .text name =>
    match (ofName? name).map value <|> otherNames.lookup name with
    | some n => .ok n
    | none => .error (.badValue (("Unknown level: " : Text) ++ Text.Quoted.encode name))
  | v =>
    match v.toInt? with
    | some n => .ok n
    | none => .error .wrongKind

end Level

end LineShell.Log
