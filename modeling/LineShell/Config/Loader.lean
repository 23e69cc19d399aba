import LineShell.Config
import LineShell.Config.Json
import LineShell.Disk
import LineShell.Text.Utf8

/-!
# Loading a configuration

A loader holds the current configuration.  Until one is loaded or a value is set, that is the
default one.  A file is loaded completely or not at all: whatever is wrong with it, the
configuration from before stays.

There is room for only so many containers inside each other in a file, and for only so many calls inside
each other when a configuration is made into a dictionary.
-/

namespace LineShell.Config

def unifyLineEnds : Text → Text
  | [] => []
  | c :: rest =>
    if c = 0x0D then
      match rest with
      | d :: more =>
        if d = 0x0A then 0x0A :: unifyLineEnds more else 0x0A :: unifyLineEnds (d :: more)
      | [] => [0x0A]
    else c :: unifyLineEnds rest

/-- The failure for JSON text that cannot be read.  Only what is wrong with its form is reported; it
may also be too large to be read. -/
def failureOf (text : Text) (e : Json.Error) : Failure :=
  match e.cause with
  | .tooDeep container =>
    .tooDeep (("maximum recursion depth exceeded while decoding a JSON " : Text) ++
      container.name ++ " from a unicode string")
  | .tooManyDigits count =>
    .badValue (("Exceeds the limit (" : Text) ++ Text.ofNat Json.digitLimit ++
      " digits) for integer string conversion: value has " ++ Text.ofNat count ++
      " digits; use sys.set_int_max_str_digits() to increase the limit")
  | .form flaw =>
    .bootFailure (("Invalid JSON in configuration file: " : Text) ++
      flaw.message ++ Json.placeOf text e.left)

def readFields (room : Nat) (content : Bytes) : Except Failure Fields :=
  match Text.Utf8.decodeStrict? content with
  | none => .error .undecodable
  | some raw =>
    -- places in errors count lines with their ends unified
    let text := unifyLineEnds raw
    match Json.parse room text with
    | .error e => .error (failureOf text e)
    | .ok (.dict data) => .ok data
    | .ok _ => .error (.bootFailure "Configuration root must be a JSON object")

def readFile (room : Nat) (disk : Disk) (path : Text) : Except Failure Config :=
  -- the path is followed in its normal form, but reported as it was given
  match disk.find (Path.normal path) with
  | .error e => .error e
  | .ok .nothing => .error (.bootFailure (("Configuration file not found: " : Text) ++ path))
  | .ok .directory =>
    .error (.bootFailure (("Cannot read configuration file: [Errno 21] Is a directory: " : Text) ++
      Text.Quoted.encode (Path.normal path)))
  | .ok (.file content) => readFields room content >>= ofFields

/-- What a loader holds: the configuration that was loaded or changed last, if there was one. -/
structure Loader where
  loaded : Option Config := none

namespace Loader

def config (l : Loader) : Config := l.loaded.getD {}

/-- Whether asking twice gives the same configuration object: a default one is made anew each
time. -/
def isShared (l : Loader) : Bool := l.loaded.isSome

def load (l : Loader) (room : Nat) (disk : Disk) (path : Text) : Except Failure Config × Loader :=
  match readFile room disk path with
  | .ok c => (.ok c, ⟨some c⟩)
  | .error e => (.error e, l)

/-- Loads a file if its path leads to anything; without a path, the default configuration. -/
def loadIfThere (l : Loader) (room : Nat) (disk : Disk) (path : Option Text) :
    Except Failure Config × Loader :=
  match path with
  | none => (.ok {}, ⟨some {}⟩)
  | some path => if disk.isThere path then l.load room disk path else (.ok l.config, l)

def names (key : Text) : List Text := Text.splitOn 0x2E key

def get (l : Loader) (key : Text) (other : Value) : Value :=
  (l.config.find? (names key)).getD other

/-- Replaces the value of a key, which has to have one.  From then on the configuration is kept. -/
def set (l : Loader) (key : Text) (v : Value) : Except Failure Unit × Loader :=
  match l.config.replace? v (names key) with
  | some c => (.ok (), ⟨some c⟩)
  | none =>
    -- even then the default configuration is kept from now on, if it was the current one
    (.error (.badSetting (("Invalid configuration key: " : Text) ++ key) key), ⟨some l.config⟩)

def toDict (l : Loader) (room : Nat) : Except Failure Fields := l.config.toDict room

def reset (_ : Loader) : Loader := {}

end Loader

end LineShell.Config
