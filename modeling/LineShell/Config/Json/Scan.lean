import LineShell.Text

/-!
# Reading JSON text piece by piece

What every reader of a piece of JSON text shares: the errors it can end with, the blanks between
pieces, and the promise that what is left is shorter than what was there.

An error names what was expected or found, and the place by how many code points are left there;
from that the number of code points before it, its line and its column follow.  A text may also be
well formed and still more than a reader takes: nested too deeply, or with a number too long.
-/

namespace LineShell.Config.Json

/-! ## Errors -/

inductive Flaw where
  | expectingValue
  | expectingName
  | expectingColon
  | expectingComma
  | extraData
  | unterminatedString
  | controlCharacter
  | badEscape
  | badCodePoint
  | byteOrderMark
  deriving DecidableEq, Repr

def Flaw.message : Flaw → Text
  | expectingValue => "Expecting value"
  | expectingName => "Expecting property name enclosed in double quotes"
  | expectingColon => "Expecting ':' delimiter"
  | expectingComma => "Expecting ',' delimiter"
  | extraData => "Extra data"
  | unterminatedString => "Unterminated string starting at"
  | controlCharacter => "Invalid control character at"
  | badEscape => "Invalid \\escape"
  | badCodePoint => "Invalid \\uXXXX escape"
  | byteOrderMark => "Unexpected UTF-8 BOM (decode using utf-8-sig)"

inductive Container where
  | list
  | object
  deriving DecidableEq, Repr

def Container.name : Container → Text
  | list => "array"
  | object => "object"

inductive Cause where
  | form (flaw : Flaw)
  | tooDeep (container : Container)
  | tooManyDigits (count : Nat)
  deriving DecidableEq, Repr

/-- Why a text cannot be read, and how many code points of it are left at that place. -/
structure Error where
  cause : Cause
  left : Nat
  deriving DecidableEq, Repr

def Error.of (flaw : Flaw) (left : Nat) : Error := ⟨.form flaw, left⟩

/-- The line of a place, counted from one. -/
def lineOf (text : Text) (position : Nat) : Nat := (text.take position).count 0x0A + 1

def columnOf (text : Text) (position : Nat) : Nat :=
  ((text.take position).reverse.takeWhile (· != 0x0A)).length + 1

def placeOf (text : Text) (left : Nat) : Text :=
  let position := text.length - left
  (": line " : Text) ++ Text.ofNat (lineOf text position) ++ " column " ++
    Text.ofNat (columnOf text position) ++ " (char " ++ Text.ofNat position ++ ")"

/-! ## Blanks -/

def isBlank (c : CodePoint) : Bool := c = 0x20 || c = 0x09 || c = 0x0A || c = 0x0D

def skipBlanks (s : Text) : Text := s.dropWhile isBlank

theorem length_skipBlanks_le (s : Text) : (skipBlanks s).length ≤ s.length :=
  (List.dropWhile_suffix isBlank).length_le

/-! ## Results -/

/-- What was read from a text: a result and the rest, which is shorter. -/
structure Parsed (α : Type) (s : Text) where
  result : α
  rest : Text
  shorter : rest.length < s.length

def Parsed.widen {α : Type} {s t : Text} (p : Parsed α s) (h : s.length ≤ t.length) : Parsed α t :=
  ⟨p.result, p.rest, Nat.lt_of_lt_of_le p.shorter h⟩

/-- The text behind a code point that has to stand at the front. -/
def expect (c : CodePoint) (flaw : Flaw) (s : Text) : Except Error (Parsed Unit s) :=
  match s with
  | [] => .error (.of flaw 0)
  | d :: rest =>
    if d = c then .ok ⟨(), rest, by simp⟩ else .error (.of flaw (rest.length + 1))

end LineShell.Config.Json
