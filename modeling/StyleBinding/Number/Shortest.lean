import StyleBinding.Number.Double
import StyleBinding.Text.Basic

/-!
# Shortest decimals

A number is written with the fewest digits that read back as it; of several
decimals with that many digits the nearest is taken, and of two equally near
ones the one with an even last digit. It is laid out with a point as long as
that stands behind at most sixteen digits and before at most three zeros, and
with an exponent of at least two digits otherwise.
-/

namespace StyleBinding.Double

/-! ## Digits -/

/-- A decimal `0.d₁d₂… * 10 ^ point` by its digits. -/
structure Decimal where
  digits : List Char
  point : Int
deriving DecidableEq

/-- A number with the two ends of the interval of reals that are nearer to it than
to any other number, all over one denominator. The ends belong to the interval
when the significand is even. -/
structure Neighbourhood where
  low : Nat
  value : Nat
  high : Nat
  denominator : Nat
  closed : Bool

/-- The neighbourhood of a finite number. Below a power of two the numbers are
twice as dense as above it. -/
def neighbourhood (m : Nat) (e : Int) : Neighbourhood :=
  let up := power 2 (e - 2).toNat
  let gap := if m = power 2 52 ∧ leastExponent < e then 1 else 2
  ⟨(4 * m - gap) * up, 4 * m * up, (4 * m + 2) * up, power 2 (2 - e).toNat, m % 2 = 0⟩

namespace Neighbourhood

/-- Whether `digit * 10 ^ grid` lies in the interval. -/
def contains (n : Neighbourhood) (digit : Nat) (grid : Int) : Bool :=
  let x := digit * power 10 grid.toNat * n.denominator
  let scale := power 10 (-grid).toNat
  (n.low * scale < x && x < n.high * scale) ||
    (n.closed && (n.low * scale == x || n.high * scale == x))

/-- The place of the first digit of the value: the least `p` with
`value < 10 ^ p`, looked for from a bound that is never above it. -/
def point (n : Neighbourhood) (bound : Int) : Int :=
  let isBelow (p : Int) : Bool :=
    n.value * power 10 (-p).toNat < power 10 p.toNat * n.denominator
  if isBelow bound then bound
  else if isBelow (bound + 1) then bound + 1
  else bound + 2

/-- The multiple of `10 ^ grid` in the interval that is nearest to the value. -/
def nearest? (n : Neighbourhood) (grid : Int) : Option Nat :=
  let num := n.value * power 10 (-grid).toNat
  let den := n.denominator * power 10 grid.toNat
  let below := num / den
  match n.contains below grid, n.contains (below + 1) grid with
  | true, true => some (roundQuotient num den)
  | true, false => some below
  | false, true => some (below + 1)
  | false, false => none

/-- The shortest decimal in the interval with at most `count` digits less those
tried: grids are tried from the coarsest on. -/
def search (n : Neighbourhood) (point : Int) : Nat → Nat → Nat × Int
  | tried, 0 => ((n.nearest? (point - tried)).getD 0, point - tried)
  | tried, left + 1 =>
    match n.nearest? (point - tried) with
    | some digit => (digit, point - tried)
    | none => search n point (tried + 1) left

end Neighbourhood

/-- The shortest decimal of a positive finite number. -/
def shortest (m : Nat) (e : Int) : Decimal :=
  let n := neighbourhood m e
  let point := n.point ((((Nat.log2 m : Int) + e) * 30103).fdiv 100000)
  let (digit, grid) := n.search point 1 16
  let digits := Nat.toDigits 10 digit
  let kept := (digits.reverse.dropWhile (· == '0')).reverse
  ⟨kept, digits.length + grid⟩

/-! ## Layout -/

/-- A run of zeros. -/
def zeros (count : Nat) : List Char := List.replicate count '0'

/-- A decimal with a point and at least one digit on either side of it. -/
def positional (d : Decimal) : List Char :=
  if d.point ≤ 0 then '0' :: '.' :: zeros (-d.point).toNat ++ d.digits
  else
    let whole := d.point.toNat
    let fraction := d.digits.drop whole
    d.digits.take whole ++ zeros (whole - d.digits.length) ++
      '.' :: (if fraction.isEmpty then ['0'] else fraction)

/-- A decimal with one digit before the point and an exponent behind. -/
def scientific (d : Decimal) : List Char :=
  let exponent := d.point - 1
  let written := Nat.toDigits 10 exponent.natAbs
  d.digits.take 1 ++ (if d.digits.length ≤ 1 then [] else '.' :: d.digits.drop 1) ++
    'e' :: (if exponent < 0 then '-' else '+') :: zeros (2 - written.length) ++ written

/-- The text of a number. -/
def display : Double → Text
  | nan _ => "nan"
  | infinite negative => if negative then "-inf" else "inf"
  | finite negative m e =>
    let written :=
      if m = 0 then ['0', '.', '0']
      else
        let d := shortest m e
        if -4 < d.point ∧ d.point ≤ 16 then positional d else scientific d
    ((if negative then ['-'] else []) ++ written).map .scalar

end StyleBinding.Double
