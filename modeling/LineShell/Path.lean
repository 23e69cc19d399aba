import LineShell.Text

/-!
# Paths in normal form

The same path can be written in many ways.  Its normal form has no empty component and no `.` in it
and no slash at its end; the empty path is `.`.  A `..` stays, since what it leads to depends on
links.  One or two slashes in front are kept as they are, and more of them are one.
-/

namespace LineShell.Path

def slash : CodePoint := 0x2F

/-- The components of a path as it is written. -/
def pieces (path : Text) : List Text := Text.splitOn slash path

/-- The slashes in front of a path that belong to it. -/
def root (path : Text) : Text :=
  match (path.takeWhile (· == slash)).length with
  | 0 => []
  | 2 => [slash, slash]
  | _ => [slash]

/-- The components that lead somewhere. -/
def components (path : Text) : List Text :=
  (pieces path).filter fun c => !c.isEmpty && c != "."

def build (root : Text) (components : List Text) : Text :=
  if root.isEmpty && components.isEmpty then "." else root ++ Text.intercalate [slash] components

def normal (path : Text) : Text := build (root path) (components path)

def parent (path : Text) : Text := build (root path) (components path).dropLast

end LineShell.Path
