import LineShell.Double
import LineShell.Text

/-!
# Shortest decimal text

The decimal text of a floating-point number has as few digits as still read back as that number,
and of the texts with so few digits the nearest one.  A number is read back from every point of the
interval up to half way to its neighbours, ends included when its mantissa is even; the search goes
through the decimal grids from the coarsest and looks at the two grid points around the number.

How the digits are laid out is a `Layout`.
-/

namespace LineShell.Double

/-- The decimal number `digits * 10 ^ exponent`. -/
structure Decimal where
  digits : Nat
  exponent : Int
  deriving DecidableEq, Inhabited

/-- The largest `e` with `10 ^ e ≤ num / den`, for a quotient above zero. -/
def floorLog10 (num den : Nat) : Int :=
  if den ≤ num then (Nat.toDigits 10 (num / den)).length - 1
  else
    let places : Int := (Nat.toDigits 10 (den / num)).length
    if den = num * tenTo (places - 1).toNat then 1 - places else -places

/-- The points that read back as `mantissa * 2 ^ exponent`, all times four: from half way to the
neighbour below to half way to the neighbour above. -/
structure Interval where
  low : Nat
  high : Nat
  closed : Bool

/-- The interval of a finite number, in units of `2 ^ (exponent - 2)`.  Below a power of two the
neighbours lie half as far apart. -/
def interval (mantissa : Nat) (exponent : Int) : Interval where
  low := if mantissa = twoTo 52 && exponent ≠ leastExponent then 4 * mantissa - 1
    else 4 * mantissa - 2
  high := 4 * mantissa + 2
  closed := mantissa % 2 == 0

def Interval.contains (i : Interval) (num den : Nat) : Bool :=
  if i.closed then i.low * den ≤ num && num ≤ i.high * den
  else i.low * den < num && num < i.high * den

/-- The digits on the grid of `count` digits that read back, if there are any. -/
def onGrid? (mantissa : Nat) (exponent : Int) (count : Nat) : Option Decimal :=
  let num := mantissa * twoTo exponent.toNat
  let den := twoTo (-exponent).toNat
  let grid := floorLog10 num den - (count - 1 : Int)
  -- the number in units of the grid is `p / q`
  let p := num * tenTo (-grid).toNat
  let q := den * tenTo grid.toNat
  let below := p / q
  let above := below + 1
  -- a grid point `d` is `4 * mantissa * d * q / p` in the units of the interval
  let hits := fun d => (interval mantissa exponent).contains (4 * mantissa * d * q) p
  match hits below, hits above with
  | true, true =>
    if 2 * (p % q) < q || (2 * (p % q) = q && below % 2 = 0) then some ⟨below, grid⟩
    else some ⟨above, grid⟩
  | true, false => some ⟨below, grid⟩
  | false, true => some ⟨above, grid⟩
  | false, false => none

/-- The shortest decimal number that reads back; seventeen digits always do. -/
def shortest (mantissa : Nat) (exponent : Int) : Decimal :=
  ((List.range 17).findSome? fun i => onGrid? mantissa exponent (i + 1)).getD ⟨0, 0⟩

/-- How digits are laid out: the first exponent that is written without an exponent, the first
above it that is not, and the least number of digits in an exponent. -/
structure Layout where
  positionalFrom : Int
  positionalBelow : Int
  exponentDigits : Nat

/-- Digits and exponent as text.  Positional text always has a point and a digit behind it. -/
def Layout.render (layout : Layout) (d : Decimal) : Text :=
  let digits := (Text.ofNat d.digits).reverse.dropWhile (· == 0x30) |>.reverse
  let count : Int := (Text.ofNat d.digits).length
  let scale := d.exponent + count - 1
  if layout.positionalFrom ≤ scale && scale < layout.positionalBelow then
    if scale < 0 then
      ("0." : Text) ++ List.replicate (-scale - 1).toNat 0x30 ++ digits
    else
      let whole := (scale + 1).toNat
      let fraction := digits.drop whole
      digits.take whole ++ List.replicate (whole - digits.length) 0x30 ++ ("." : Text) ++
        (if fraction.isEmpty then ("0" : Text) else fraction)
  else
    let point : Text := if digits.length ≤ 1 then [] else ("." : Text) ++ digits.drop 1
    let places := Text.ofNat scale.natAbs
    digits.take 1 ++ point ++ (if scale < 0 then ("e-" : Text) else "e+") ++
      List.replicate (layout.exponentDigits - places.length) 0x30 ++ places

def render (layout : Layout) : Double → Text
  | .nan => "nan"
  | .infinite negative => if negative then "-inf" else "inf"
  | .finite negative mantissa exponent =>
    (if negative then ("-" : Text) else []) ++
      (if mantissa = 0 then ("0.0" : Text) else layout.render (shortest mantissa exponent))

end LineShell.Double
