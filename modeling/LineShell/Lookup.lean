import LineShell.Text

/-!
# Looking up names

A name becomes a path in one of two ways.  A command or a script is looked for in the directories
of the search path, and in the working directory when it is in none of them.  The target of a
change of directory is taken relative to the working directory at once.  A name that starts with a
slash is a path already.

Paths are joined as they are: `.` and `..` are left for the operating system, and an empty piece of
the search path stands for the root.
-/

namespace LineShell.Lookup

def separator : CodePoint := 0x2F

/-- The code point between the directories of a search path. -/
def delimiter : CodePoint := 0x3A

def isAbsolute : Text → Bool
  | c :: _ => c = separator
  | [] => false

def join (directory name : Text) : Text := directory ++ separator :: name

/-- The directories of a search path in order; an empty search path has none. -/
def directories (searchPath : Text) : List Text :=
  if searchPath.isEmpty then [] else Text.splitOn delimiter searchPath

/-- A path as it stands, or relative to the working directory. -/
def absolute (path pwd : Text) : Text := if isAbsolute path then path else join pwd path

variable {m : Type → Type} [Monad m]

/-- The first of the directories in which the name is found, with the name in it. -/
def firstFound (isFile : Text → m Bool) (name : Text) : List Text → m (Option Text)
  | [] => pure none
  | directory :: rest => do
    if ← isFile (join directory name) then return some (join directory name)
    firstFound isFile name rest

def resolve (isFile : Text → m Bool) (name pwd searchPath : Text) : m Text := do
  if isAbsolute name then return name
  match ← firstFound isFile name (directories searchPath) with
  | some path => return path
  | none => return join pwd name

end LineShell.Lookup
