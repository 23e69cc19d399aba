import LineShell.Failure
import LineShell.Path
import LineShell.Text.Utf8

/-!
# Files on disk

The files and directories that the program finds at its start and that it writes its log to.  A
file is found by following a path component by component from the working directory; only a
directory can be gone through.

A place is a list of components from the working directory.  Above it and at the root there are
directories too, of which nothing else is known.

Names are bytes: texts that stand for the same bytes name the same file, and a text without bytes
names none.  A component and a path can only be so long.
-/

namespace LineShell

/-- The files and directories below the working directory, and what was added anywhere. -/
structure Disk where
  /-- Each place with the content of the file that is there; none for a directory. -/
  entries : List (List Text × Option Bytes)
  deriving Inhabited

namespace Disk

inductive Found where
  | nothing
  | directory
  | file (content : Bytes)
  deriving DecidableEq, Repr

def up : Text := ".."

def root : List Text := ["/"]

/-- Whether a place is a directory although nothing was put there: the working directory, those
above it, and the root. -/
def isGiven (place : List Text) : Bool := place == root || place.all (· == up)

def at? (d : Disk) (place : List Text) : Found :=
  match d.entries.lookup place with
  | some (some content) => .file content
  | some none => .directory
  | none =>
    -- whatever has something below it is a directory
    if isGiven place || d.entries.any (fun e => place.isPrefixOf e.1) then .directory
    else .nothing

def above (place : List Text) : List Text :=
  if place == root then root
  -- the working directory and those above it have no component to drop
  else if place.all (· == up) then place ++ [up]
  else place.dropLast

/-- Why a path leads nowhere. -/
inductive Stop where
  | missing
  | tooLong
  deriving DecidableEq, Repr

/-- The most bytes that a component may have. -/
def longestName : Nat := 255

def longestPath : Nat := 4095

/-- A component as the text that its bytes are first read as. -/
def spelled (component : Text) : Text :=
  Text.Utf8.decode ((Text.Utf8.encode? component).getD [])

/-- One step along a path; nothing leads on from where no directory is. -/
def step (d : Disk) (place : List Text) (component : Text) : Except Stop (List Text) :=
  match d.at? place with
  | .directory =>
    if component.isEmpty || component == "." then .ok place
    else if component == up then .ok (above place)
    else
      match Text.Utf8.encode? component with
      | none => .error .missing
      | some bytes =>
        if longestName < bytes.length then .error .tooLong else .ok (place ++ [spelled component])
  | _ => .error .missing

def origin (path : Text) : List Text := if (Path.root path).isEmpty then [] else root

/-- The place a path leads to, if it leads anywhere: an empty path and one with a NUL do not. -/
def follow (d : Disk) (path : Text) : Except Stop (List Text) :=
  match Text.Utf8.encode? path with
  | none => .error .missing
  | some bytes =>
    if path.isEmpty || path.contains 0 then .error .missing
    else if longestPath < bytes.length then .error .tooLong
    else (Path.pieces path).foldlM d.step (origin path)

def pathError (errno : Int) (words : Text) (path : Text) : Failure :=
  .os (some errno) (words ++ ": " ++ Text.Quoted.encode path)

def tooLongError (path : Text) : Failure := pathError 36 "File name too long" path

/-- What a path leads to.  That it is too long is more than finding nothing. -/
def find (d : Disk) (path : Text) : Except Failure Found :=
  match d.follow path with
  | .ok place => .ok (d.at? place)
  | .error .missing => .ok .nothing
  | .error .tooLong => .error (tooLongError path)

def isThere (d : Disk) (path : Text) : Bool :=
  match d.find path with
  | .ok found => found != .nothing
  | .error _ => false

def contentOf? (d : Disk) (path : Text) : Option Bytes :=
  match d.find path with
  | .ok (.file content) => some content
  | _ => none

def put (d : Disk) (place : List Text) (content : Option Bytes) : Disk :=
  ⟨(place, content) :: d.entries.filter (·.1 != place)⟩

/-- A disk with the given files, and a directory for each path without content. -/
def ofFiles (files : List (Text × Option Bytes)) : Disk :=
  ⟨files.map fun (path, content) =>
    (origin path ++ (Path.components path).map spelled, content)⟩

def nulError : Failure := .badValue "embedded null byte"

/-- The directories still to be made along a path. -/
structure DirWalk where
  root : Text
  /-- The components behind which the walk is. -/
  made : List Text
  place : List Text
  /-- Something was missing, and was made. -/
  making : Bool

/-- The path in an error on a walk.  Until something is missing, the path is taken as a whole; from
then on its directories are made one by one. -/
def DirWalk.pathAt (walk : DirWalk) (component : Text) (rest : List Text) : Text :=
  if walk.making then Path.build walk.root (walk.made ++ [component])
  else Path.build walk.root (walk.made ++ component :: rest)

/-- The error for a file that is in the way of a walk. -/
def DirWalk.blocked (walk : DirWalk) (component : Text) (rest : List Text) : Failure :=
  if walk.making || rest.isEmpty then pathError 17 "File exists" (walk.pathAt component rest)
  else pathError 20 "Not a directory" (walk.pathAt component rest)

/-- Makes the directories of a list of components where they are missing.  Those that were made
before an error stay. -/
def makeDirs (d : Disk) (walk : DirWalk) : List Text → Except Failure Unit × Disk
  | [] => (.ok (), d)
  | c :: rest =>
    match d.step walk.place c with
    | .error .missing => (.error (walk.blocked c rest), d)
    | .error .tooLong => (.error (tooLongError (walk.pathAt c rest)), d)
    | .ok next =>
      let onward := { walk with made := walk.made ++ [c], place := next }
      match d.at? next with
      | .directory => d.makeDirs onward rest
      -- from here on the path in an error is shorter
      | .nothing => (d.put next none).makeDirs { onward with making := true } rest
      | .file _ => (.error (walk.blocked c rest), d)

/-- Refuses a path that the operating system cannot take: one without bytes, with a NUL in it, or
with too many bytes. -/
def checkPath (path : Text) : Except Failure Unit :=
  match Text.Utf8.encode? path with
  | none => .error .unencodable
  | some bytes =>
    if path.contains 0 then .error nulError
    else if longestPath < bytes.length then .error (tooLongError path)
    else .ok ()

def makeDir (d : Disk) (path : Text) : Except Failure Unit × Disk :=
  match checkPath path with
  | .error e => (.error e, d)
  | .ok () => d.makeDirs ⟨Path.root path, [], origin path, false⟩ (Path.components path)

/-- The place of a path whose `..` are taken as they are written. -/
def placeAsWritten (path : Text) : List Text :=
  (Path.components path).foldl
    (fun place c => if c == up then above place else place ++ [spelled c]) (origin path)

/-- A path as it is shown once a file was to be opened under it: a path from the root without the
`..` in it, and any other path as it is. -/
def shown (path : Text) : Text :=
  if (Path.root path).isEmpty then path
  else Path.build (Path.root path) (placeAsWritten path).tail

/-- Opens a file to add to it; it is made if it is missing. -/
def openToAdd (d : Disk) (path : Text) : Except Failure (Disk × List Text) := do
  checkPath path
  let place := placeAsWritten path
  if (Path.components path).any fun c => longestName < ((Text.Utf8.encode? c).getD []).length then
    throw (tooLongError (shown path))
  match d.at? place with
  | .file _ => return (d, place)
  | .nothing => return (d.put place (some []), place)
  | .directory => throw (pathError 21 "Is a directory" (shown path))

def add (d : Disk) (place : List Text) (bytes : Bytes) : Disk :=
  match d.at? place with
  | .file content => d.put place (some (content ++ bytes))
  | _ => d

end Disk

end LineShell
