/-!
# Text and bytes

Text is a sequence of code points.  Unlike `String` it may hold a lone surrogate, which is how a
byte that is not part of well-formed UTF-8 travels through the shell (see `LineShell.Text.Utf8`)
and what a configuration file may spell with an escape.

Bytes are what files, pipes and command lines are made of.
-/

namespace LineShell

/-- A Unicode code point, surrogates included. -/
abbrev CodePoint := Fin 0x110000

instance CodePoint.neZero : @NeZero Nat Zero.ofOfNat0 0x110000 := Nat.instNeZeroSucc

abbrev Text := List CodePoint

abbrev Bytes := List UInt8

def CodePoint.ofChar (c : Char) : CodePoint := Fin.ofNat 0x110000 c.toNat

namespace Text

def ofString (s : String) : Text := s.toList.map CodePoint.ofChar

instance : Coe String Text := ⟨ofString⟩

def ofNat (n : Nat) : Text := (Nat.toDigits 10 n).map CodePoint.ofChar

/-- The decimal digits of an integer, after a minus sign if it is negative. -/
def ofInt : Int → Text
  | .ofNat n => ofNat n
  | .negSucc n => "-" ++ ofNat (n + 1)

/-- A code point is a surrogate when it stands for half of a pair. -/
def isSurrogate (c : CodePoint) : Bool := 0xD800 ≤ c.val && c.val ≤ 0xDFFF

/-- Exactly `width` code points at least: blanks are added at the end of a shorter text. -/
def padRight (width : Nat) (t : Text) : Text := t ++ List.replicate (width - t.length) 0x20

/-- The pieces between the separators; there is always one piece more than separators. -/
def splitOn (separator : CodePoint) : Text → List Text
  | [] => [[]]
  | c :: rest =>
    if c = separator then [] :: splitOn separator rest
    else match splitOn separator rest with
      | [] => [[c]]
      | piece :: pieces => (c :: piece) :: pieces

def intercalate (separator : Text) : List Text → Text
  | [] => []
  | [piece] => piece
  | piece :: pieces => piece ++ separator ++ intercalate separator pieces

@[simp] theorem ofInt_natCast (n : Nat) : ofInt (n : Int) = ofNat n := rfl

@[simp] theorem length_padRight (width : Nat) (t : Text) :
    (padRight width t).length = max width t.length := by
  simp [padRight]
  omega

theorem splitOn_ne_nil (separator : CodePoint) (t : Text) : splitOn separator t ≠ [] := by
  cases t with
  | nil => simp [splitOn]
  | cons c rest =>
      simp only [splitOn]
      split
      · simp
      · split <;> simp

end Text

end LineShell
