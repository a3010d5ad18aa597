/-!
# Binary floating-point numbers

The finite numbers of 64 bits are the multiples `m * 2 ^ e` of powers of two
with `m < 2 ^ 53` and `-1074 ≤ e ≤ 971`; beside them stand two infinities and
the values that are no numbers, which differ in their payloads. A decimal is read
as the number nearest to it, and of two that are equally near, as the one with an
even significand.
-/

namespace StyleBinding

/-- A floating-point number of 64 bits. A finite one is `significand * 2 ^ exponent`,
with the sign in front; the exponent is the least that the significand allows. The
payload of a value that is no number shows nowhere but tells it from others. -/
inductive Double where
  | finite (negative : Bool) (significand : Nat) (exponent : Int)
  | infinite (negative : Bool)
  | nan (payload : Nat)
deriving DecidableEq

namespace Double

/-- The least exponent of a finite number. -/
def leastExponent : Int := -1074

/-- The greatest exponent of a finite number. -/
def greatestExponent : Int := 971

/-- A power of a whole number. -/
def power (base exponent : Nat) : Nat := Nat.pow base exponent

/-- The quotient rounded to the nearest whole number, a half to the even one. -/
def roundQuotient (num den : Nat) : Nat :=
  let below := num / den
  let twice := 2 * (num % den)
  if twice < den then below
  else if den < twice then below + 1
  else if below % 2 = 0 then below
  else below + 1

/-- The exponent of two under which `num / den` lies: the greatest `e` such that
`2 ^ e ≤ num / den`. -/
def magnitude (num den : Nat) : Int :=
  let e : Int := (Nat.log2 num : Int) - Nat.log2 den
  if den * power 2 e.toNat ≤ num * power 2 (-e).toNat then e else e - 1

/-- The number nearest to a positive or zero fraction, with a sign. -/
def ofFraction (negative : Bool) (num den : Nat) : Double :=
  if num = 0 then .finite negative 0 leastExponent
  else
    let e := max (magnitude num den - 52) leastExponent
    let m := roundQuotient (num * power 2 (-e).toNat) (den * power 2 e.toNat)
    let (m, e) := if m = power 2 53 then (power 2 52, e + 1) else (m, e)
    if greatestExponent < e then .infinite negative else .finite negative m e

/-- The number nearest to `digits * 10 ^ scale`. Decimals beyond the range of
finite numbers are told apart by the place of their first digit. -/
def ofDecimal (negative : Bool) (digits : Nat) (scale : Int) : Double :=
  if digits = 0 then .finite negative 0 leastExponent
  else
    let place := ((Nat.toDigits 10 digits).length : Int) + scale
    if 310 < place then .infinite negative
    else if place < -330 then .finite negative 0 leastExponent
    else ofFraction negative (digits * power 10 scale.toNat) (power 10 (-scale).toNat)

/-- Whether a number is zero, of either sign. -/
def isZero : Double → Bool
  | finite _ m _ => m = 0
  | _ => false

/-- The integer that a number is equal to. -/
def toInt? : Double → Option Int
  | finite negative m e =>
    let den := power 2 (-e).toNat
    if m % den = 0 then
      let n : Int := m / den * power 2 e.toNat
      some (if negative then -n else n)
    else none
  | _ => none

/-- Whether a finite number lies below another one, both as multiples of a power
of two. -/
def finiteLess (n : Int) (e : Int) (m : Int) (f : Int) : Bool :=
  let least := min e f
  n * power 2 (e - least).toNat < m * power 2 (f - least).toNat

/-- Whether a number lies below another one. What is no number lies nowhere. -/
def less : Double → Double → Bool
  | nan _, _ => false
  | _, nan _ => false
  | infinite a, infinite b => a && !b
  | infinite a, finite _ _ _ => a
  | finite _ _ _, infinite b => !b
  | finite a m e, finite b n f =>
    finiteLess (if a then -m else m) e (if b then -n else n) f

end Double

end StyleBinding
