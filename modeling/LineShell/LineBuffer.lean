import LineShell.Failure
import LineShell.Text.Utf8

/-!
# The line buffer

A `LineBuffer` holds one line of input in storage of fixed size.  Its content ends at `length`,
where a NUL byte is kept, and every line that is loaded into it begins a new generation.  Storage is
all NUL at first, and only its front, up to the last byte that was ever written, is kept here.

Tokenizing works in place: the line is cut at the first comment marker, every space is overwritten
by NUL, and an `ArgumentVector` remembers where each token starts.  A vector reads its tokens from
the storage, so it is good for the generation it was made in and refuses to answer in a later one.
-/

namespace LineShell

/-- One line of input in storage of fixed size. -/
structure LineBuffer where
  /-- The number of bytes a line may have. -/
  capacity : Nat
  /-- The capacity as it was asked for, which is how it is shown. -/
  size : Value
  /-- The bytes in front that were ever written; all behind them are NUL. -/
  front : Bytes
  /-- The number of bytes of the current line. -/
  length : Nat
  /-- The number of lines loaded so far. -/
  generation : Nat
  deriving Inhabited

/-- The tokens of a line by the places they start at. -/
structure ArgumentVector where
  offsets : List Nat
  generation : Nat
  deriving DecidableEq, Inhabited

namespace LineBuffer

/-- The byte that ends a line in storage. -/
def nul : UInt8 := 0x00

def newline : UInt8 := 0x0A

def space : UInt8 := 0x20

/-- All of the storage, which has one byte more than the capacity. -/
def storage (b : LineBuffer) : Bytes :=
  b.front ++ List.replicate (b.capacity + 1 - b.front.length) nul

/-- A buffer of a capacity, shown as a value, with nothing in it. -/
def blank (capacity : Nat) (size : Value) : LineBuffer where
  capacity := capacity
  size := size
  front := []
  length := 0
  generation := 0

def empty (capacity : Nat) : LineBuffer := blank capacity (.int capacity)

/-- The largest number of bytes that storage can have. -/
def largestStorage : Int := 9223372036854775807

/-- A buffer of the size a setting gives, which has to be a positive integer, where there is memory for
so many bytes. -/
def ofSetting (memory : Nat) (size : Value) : Except Failure LineBuffer :=
  match size.ltInt? 1 with
  | none => .error .wrongKind
  | some true => .error (.badValue "Line buffer capacity must be positive")
  | some false =>
    match size.toInt? with
    | none => .error .wrongKind
    | some n =>
      -- the last byte of storage is for the NUL behind a full line
      if largestStorage < n + 1 then
        .error (.tooLarge "cannot fit 'int' into an index-sized integer")
      else if memory < n + 1 then .error .outOfMemory
      else .ok (blank n.toNat size)

def content (b : LineBuffer) : Bytes := b.front.take b.length

/-- Loads a line, which ends at the first NUL in it, and gives back how many bytes were copied.  A
line that does not fit is refused and changes nothing. -/
def fill (b : LineBuffer) (chunk : Bytes) : Except Failure (Nat × LineBuffer) :=
  if b.capacity < chunk.length then
    .error (.badValue (("Line of " : Text) ++ Text.ofNat chunk.length ++
      " bytes exceeds buffer capacity " ++ b.size.render))
  else
    .ok (chunk.length,
      { b with
        front := chunk ++ nul :: b.front.drop (chunk.length + 1)
        -- without a NUL in the chunk this is its length
        length := chunk.idxOf nul
        generation := b.generation + 1 })

/-- Removes one newline from the end of the line, if it ends with one. -/
def stripNewline (b : LineBuffer) : LineBuffer :=
  if b.length ≠ 0 ∧ b.front[b.length - 1]? = some newline then
    { b with front := b.front.set (b.length - 1) nul, length := b.length - 1 }
  else b

def find? (b : LineBuffer) (byte : UInt8) : Option Nat := b.content.findIdx? (· == byte)

def byteOf (n : Int) : Except Failure UInt8 :=
  if 0 ≤ n ∧ n < 256 then .ok (UInt8.ofNat n.toNat)
  else .error (.badValue "byte must be in range(0, 256)")

def truncate (b : LineBuffer) (index : Nat) : LineBuffer :=
  if index < b.length then { b with front := b.front.set index nul, length := index } else b

/-- Ends the line at a place inside it; places before the line are not in it. -/
def truncateAt (b : LineBuffer) (index : Int) : LineBuffer :=
  if 0 ≤ index then b.truncate index.toNat else b

def text (b : LineBuffer) : Text := Text.Utf8.decode b.content

/-- The places behind the spaces of a line that starts at `start`. -/
def spaceOffsets (start : Nat) : Bytes → List Nat
  | [] => []
  | b :: rest =>
    if b = space then (start + 1) :: spaceOffsets (start + 1) rest
    else spaceOffsets (start + 1) rest

/-- Bytes with NUL in place of each space. -/
def blankSpaces (bytes : Bytes) : Bytes := bytes.map fun b => if b = space then nul else b

def cutAt (b : LineBuffer) (byte : UInt8) : LineBuffer :=
  match b.find? byte with
  | some index => b.truncate index
  | none => b

def split (b : LineBuffer) : ArgumentVector × LineBuffer :=
  (⟨0 :: spaceOffsets 0 b.content, b.generation⟩,
    { b with front := blankSpaces b.content ++ b.front.drop b.length })

/-- Cuts the line at the first marker and splits it at every space. -/
def tokenize (b : LineBuffer) (marker : CodePoint) : Except Failure (ArgumentVector × LineBuffer) :=
  do
    let byte ← byteOf marker.val
    return (b.cutAt byte).split

/-- The comment marker a setting gives, which has to be one character. -/
def markerOfSetting : Value → Except Failure CodePoint
  | .text [c] => .ok c
  | _ => .error .wrongKind

end LineBuffer

namespace ArgumentVector

def count (v : ArgumentVector) : Nat := v.offsets.length

/-- Refuses a vector whose line was replaced. -/
def checkCurrent (v : ArgumentVector) (b : LineBuffer) : Except Failure Unit :=
  if b.generation = v.generation then .ok ()
  else .error (.badState "Argument vector used after its line was replaced")

/-- The bytes of the token at a place: up to the one before the next token starts, or to the end of
the line. -/
def tokenBytes (v : ArgumentVector) (b : LineBuffer) (index : Nat) : Bytes :=
  let start := v.offsets.getD index 0
  let stop := match v.offsets[index + 1]? with
    -- between two tokens there is one NUL, where the space was
    | some next => next - 1
    | none => b.length
  (b.front.take stop).drop start

/-- The token at a place; places below zero count from the end. -/
def get (v : ArgumentVector) (b : LineBuffer) (index : Int) : Except Failure Text := do
  v.checkCurrent b
  let place := if index < 0 then index + v.count else index
  if 0 ≤ place ∧ place < v.count then
    return Text.Utf8.decode (v.tokenBytes b place.toNat)
  else throw (.outOfRange "argument index out of range")

def command (v : ArgumentVector) (b : LineBuffer) : Except Failure Text := v.get b 0

def tokens (v : ArgumentVector) (b : LineBuffer) : Except Failure (List Text) := do
  v.checkCurrent b
  return (List.range v.count).map fun i => Text.Utf8.decode (v.tokenBytes b i)

/-- The tokens taken one by one, `n` of them at most. -/
def takeTokens (v : ArgumentVector) (b : LineBuffer) (n : Int) : Except Failure (List Text) := do
  return (← v.tokens b).take n.toNat

end ArgumentVector

end LineShell
