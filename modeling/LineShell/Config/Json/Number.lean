import LineShell.Config.Json.Scan
import LineShell.Value

/-!
# Numbers in JSON text

A number has digits, which start with a zero only if that is all of them, perhaps a point with
digits behind it and perhaps an exponent.  With neither it is an integer, which may have only so many
digits, and else a floating-point number.  A point or a letter that no digit follows does not belong
to the number.
-/

namespace LineShell.Config.Json

def isDigit (c : CodePoint) : Bool := 0x30 ≤ c.val && c.val ≤ 0x39

def decimal (digits : Text) : Nat := digits.foldl (fun n c => 10 * n + (c.val - 0x30)) 0

def spanDigits (s : Text) : Text × Text := (s.takeWhile isDigit, s.dropWhile isDigit)

/-- The digits before the point: a zero alone, or digits that do not start with one. -/
def whole? : Text → Option (Text × Text)
  | [] => none
  | c :: rest =>
    if c = 0x30 then some ([c], rest)
    else if isDigit c then some (c :: (spanDigits rest).1, (spanDigits rest).2)
    else none

/-- The digits behind the point, if there is a point with a digit behind it. -/
def fraction? : Text → Option (Text × Text)
  | p :: d :: rest =>
    if p = 0x2E && isDigit d then some (d :: (spanDigits rest).1, (spanDigits rest).2) else none
  | _ => none

/-- The digits of an exponent behind its sign. -/
def exponentDigits? (negative : Bool) : Text → Option (Int × Text)
  | d :: rest =>
    if isDigit d then
      let n : Int := decimal (d :: (spanDigits rest).1)
      some (if negative then -n else n, (spanDigits rest).2)
    else none
  | [] => none

/-- The exponent, if there is a letter for it with a digit behind it or behind its sign. -/
def exponent? : Text → Option (Int × Text)
  | e :: rest =>
    if e = 0x65 || e = 0x45 then
      match rest with
      | c :: digits =>
        if c = 0x2D then exponentDigits? true digits
        else if c = 0x2B then exponentDigits? false digits
        else exponentDigits? false (c :: digits)
      | [] => none
    else none
  | [] => none

/-- A number behind its sign: an integer without fraction and exponent, and else a floating-point
number. -/
def unsigned? (negative : Bool) (s : Text) : Option (Value × Text) :=
  match whole? s with
  | none => none
  | some (digits, afterWhole) =>
    let (fraction, afterFraction) := (fraction? afterWhole).getD ([], afterWhole)
    match exponent? afterFraction with
    | some (exponent, rest) =>
      some (.float (Double.ofDecimal negative (decimal (digits ++ fraction))
        (exponent - fraction.length)), rest)
    | none =>
      if fraction.isEmpty then
        some (.int (if negative then -(decimal digits : Int) else decimal digits), afterFraction)
      else
        some (.float (Double.ofDecimal negative (decimal (digits ++ fraction))
          (-(fraction.length : Int))), afterFraction)

def isNegative (s : Text) : Bool := s.head? == some 0x2D

def signed? (s : Text) : Option (Value × Text) :=
  if isNegative s then unsigned? true s.tail else unsigned? false s

def digitLimit : Nat := 4300

def number (s : Text) : Except Error (Parsed Value s) :=
  match signed? s with
  | none => .error (.of .expectingValue s.length)
  | some (v, rest) =>
    let count := s.length - rest.length - (if isNegative s then 1 else 0)
    if v.toInt?.isSome && digitLimit < count then .error ⟨.tooManyDigits count, s.length⟩
    else if h : rest.length < s.length then .ok ⟨v, rest, h⟩
    else .error (.of .expectingValue s.length)

end LineShell.Config.Json
