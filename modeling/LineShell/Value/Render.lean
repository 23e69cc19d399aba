import LineShell.Double.Shortest
import LineShell.Text.Quoted
import LineShell.Value

/-!
# Values as text

How a value is spelled inside a message or a log line: `None`, `True` and `False`, numbers in
decimal, lists in square brackets, dictionaries in curly ones.  Text stands for itself on its own
and in quotes inside a list or a dictionary.
-/

namespace LineShell.Value

/-- Numbers are written positionally from `10 ^ -4` up to below `10 ^ 16`, and otherwise with an
exponent of at least two digits. -/
def numberLayout : Double.Layout where
  positionalFrom := -4
  positionalBelow := 16
  exponentDigits := 2

mutual

def quoted : Value → Text
  | null => "None"
  | bool b => if b then "True" else "False"
  | int n => Text.ofInt n
  | float x => x.render numberLayout
  | text t => Text.Quoted.encode t
  | list items => ("[" : Text) ++ quotedItems items ++ "]"
  | dict entries => ("\x7b" : Text) ++ quotedEntries entries ++ "\x7d"

/-- The items of a list, with a comma and a blank between each two. -/
def quotedItems : List Value → Text
  | [] => []
  | [v] => quoted v
  | v :: rest => quoted v ++ ", " ++ quotedItems rest

def quotedEntries : List (Text × Value) → Text
  | [] => []
  | [(key, v)] => Text.Quoted.encode key ++ ": " ++ quoted v
  | (key, v) :: rest =>
    Text.Quoted.encode key ++ ": " ++ quoted v ++ ", " ++ quotedEntries rest

end

/-- A value as it stands in a sentence: text as it is. -/
def render : Value → Text
  | text t => t
  | v => quoted v

end LineShell.Value

namespace LineShell.Fields

def render (separator : Text) (fields : Fields) : Text :=
  Text.intercalate separator (fields.map fun (name, v) => name ++ "=" ++ v.render)

end LineShell.Fields
