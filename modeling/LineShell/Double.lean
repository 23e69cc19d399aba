/-!
# Floating-point numbers

A `Double` is a binary floating-point number of 64 bits, kept as sign, mantissa and exponent, so
that what it stands for is a rational number and every operation is exact arithmetic followed by
one rounding: to the nearest number with a mantissa of 53 bits, and of two equally near ones to the
one with the even mantissa.
-/

namespace LineShell

/-- A floating-point number; `finite` stands for `± mantissa * 2 ^ exponent`. -/
inductive Double where
  | nan
  | infinite (negative : Bool)
  | finite (negative : Bool) (mantissa : Nat) (exponent : Int)
  deriving DecidableEq, Inhabited

namespace Double

def twoTo (n : Nat) : Nat := Nat.pow 2 n

def tenTo (n : Nat) : Nat := Nat.pow 10 n

/-- The integer nearest to a quotient; of two equally near ones the even one. -/
def roundQuotient (num den : Nat) : Nat :=
  let floor := num / den
  let twice := 2 * (num % den)
  if twice < den then floor
  else if den < twice then floor + 1
  else if floor % 2 = 0 then floor else floor + 1

/-- The largest `e` with `2 ^ e ≤ num / den`, for a quotient above zero. -/
def floorLog2 (num den : Nat) : Int :=
  let guess : Int := (Nat.log2 num : Int) - (Nat.log2 den : Int)
  if den * twoTo guess.toNat ≤ num * twoTo (-guess).toNat then guess else guess - 1

/-- The smallest exponent of a finite number. -/
def leastExponent : Int := -1074

/-- The number nearest to `± num / den`, infinite when that is too large. -/
def ofQuotient (negative : Bool) (num den : Nat) : Double :=
  if num = 0 then .finite negative 0 leastExponent
  else
    let exponent := max leastExponent (floorLog2 num den - 52)
    let mantissa := roundQuotient (num * twoTo (-exponent).toNat) (den * twoTo exponent.toNat)
    if mantissa = twoTo 53 then
      if 971 ≤ exponent then .infinite negative else .finite negative (twoTo 52) (exponent + 1)
    else if 971 < exponent then .infinite negative
    else .finite negative mantissa exponent

def ofRat (q : Rat) : Double := ofQuotient (q < 0) q.num.natAbs q.den

/-- The number nearest to an integer; none when the integer is too large for a finite one. -/
def ofInt? (n : Int) : Option Double :=
  match ofQuotient (n < 0) n.natAbs 1 with
  | .finite negative mantissa exponent => some (.finite negative mantissa exponent)
  | _ => none

/-- The number nearest to `± digits * 10 ^ exponent`. -/
def ofDecimal (negative : Bool) (digits : Nat) (exponent : Int) : Double :=
  let places : Int := (Nat.toDigits 10 digits).length + exponent
  if digits = 0 then .finite negative 0 leastExponent
  else if 400 < places then .infinite negative
  else if places < -400 then .finite negative 0 leastExponent
  else ofQuotient negative (digits * tenTo exponent.toNat) (tenTo (-exponent).toNat)

def toRat? : Double → Option Rat
  | .finite negative mantissa exponent =>
    let magnitude : Rat := (mantissa : Rat) * (2 : Rat) ^ exponent
    some (if negative then -magnitude else magnitude)
  | _ => none

def isZero : Double → Bool
  | .finite _ mantissa _ => mantissa == 0
  | _ => false

/-- Whether one number is smaller than another; a NaN is neither smaller nor larger. -/
def lt : Double → Double → Bool
  | .nan, _ => false
  | _, .nan => false
  | .infinite a, .infinite b => a && !b
  | .infinite a, .finite .. => a
  | .finite .., .infinite b => !b
  | x, y =>
    match x.toRat?, y.toRat? with
    | some p, some q => p < q
    | _, _ => false

def le : Double → Double → Bool
  | .nan, _ => false
  | _, .nan => false
  | x, y => !lt y x

/-- Whether a number is smaller than an integer, compared exactly. -/
def ltInt : Double → Int → Bool
  | .nan, _ => false
  | .infinite negative, _ => negative
  | x, n =>
    match x.toRat? with
    | some q => q < (n : Rat)
    | none => false

def leInt : Double → Int → Bool
  | .nan, _ => false
  | .infinite negative, _ => negative
  | x, n =>
    match x.toRat? with
    | some q => q ≤ (n : Rat)
    | none => false

/-- Whether two numbers are equal.  The zeros of both signs are, and a NaN equals nothing. -/
def equals (x y : Double) : Bool := le x y && le y x

def equalsInt (x : Double) (n : Int) : Bool := leInt x n && !ltInt x n

/-- The least integer that a finite number is at most. -/
def ceil? (x : Double) : Option Int := x.toRat?.map fun q => -(Int.fdiv (-q.num) q.den)

def add : Double → Double → Double
  | .nan, _ => .nan
  | _, .nan => .nan
  | .infinite a, .infinite b => if a = b then .infinite a else .nan
  | .infinite a, _ => .infinite a
  | _, .infinite b => .infinite b
  | .finite a m p, .finite b n q =>
    match (finite a m p).toRat?, (finite b n q).toRat? with
    | some x, some y =>
      if x + y = 0 then .finite (a && b) 0 leastExponent else ofRat (x + y)
    | _, _ => .nan

def ofMilliseconds (ms : Int) : Double := ofQuotient (ms < 0) ms.natAbs 1000

def thousandth : Double → Double
  | .finite negative mantissa exponent =>
    ofQuotient negative (mantissa * twoTo exponent.toNat) (1000 * twoTo (-exponent).toNat)
  | x => x

end Double

end LineShell
