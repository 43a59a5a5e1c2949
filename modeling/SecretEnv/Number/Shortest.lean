import SecretEnv.Number.Double

/-!
The shortest decimal that reads back as a given double, and of several the nearest. The numbers that
read back lie between the two points halfway to the neighbouring doubles; these points themselves
read back exactly if the mantissa is even. All comparisons are exact. A decimal is written out in
full from `10 ^ -5` up to below `10 ^ 16`, always with a point and a digit on either side of it;
smaller and greater ones have one digit before the point and a signed exponent.
-/
namespace SecretEnv

/-- The number `digits * 10 ^ exponent`. -/
structure Decimal where
  digits : Nat
  exponent : Int
  deriving DecidableEq, Repr

namespace Decimal

/-- The power of ten of the leading digit of the least number that is written out. -/
def leastPositional : Int := -5

def greatestPositional : Int := 15

def zeros (count : Int) : List Char :=
  List.replicate count.toNat '0'

def strip : Nat → Decimal → Decimal
  | 0, d => d
  | fuel + 1, d =>
    if d.digits % 10 = 0 then strip fuel ⟨d.digits / 10, d.exponent + 1⟩ else d

def positional (digits : List Char) (point : Int) : List Char :=
  if point ≤ 0 then '0' :: '.' :: (zeros (-point) ++ digits)
  else if digits.length ≤ point then digits ++ zeros (point - digits.length) ++ ['.', '0']
  else digits.take point.toNat ++ '.' :: digits.drop point.toNat

def scientific (digits : List Char) (power : Int) : List Char :=
  let fraction := if digits.length ≤ 1 then [] else '.' :: digits.drop 1
  let sign := if power < 0 then '-' else '+'
  digits.take 1 ++ fraction ++ 'e' :: sign :: Nat.toDigits 10 power.natAbs

def render (d : Decimal) : List Char :=
  if d.digits = 0 then ['0', '.', '0']
  else
    let digits := Nat.toDigits 10 d.digits
    let power := d.exponent + digits.length - 1
    if leastPositional ≤ power ∧ power ≤ greatestPositional then positional digits (power + 1)
    else scientific digits power

end Decimal

namespace Double

def compareScaled (d : Decimal) (n : Nat) (exponent : Int) : Ordering :=
  compare (d.digits * Nat.pow 10 d.exponent.toNat * Nat.pow 2 (-exponent).toNat)
    (n * Nat.pow 2 exponent.toNat * Nat.pow 10 (-d.exponent).toNat)

def hasNarrowGapBelow (x : Double) : Bool :=
  x.mantissa == fullMantissa && leastExponent < x.exponent

def readsBack (x : Double) (d : Decimal) : Bool :=
  let low := 4 * x.mantissa - (if x.hasNarrowGapBelow then 1 else 2)
  let high := 4 * x.mantissa + 2
  let closed := x.mantissa % 2 == 0
  let aboveLow := compareScaled d low (x.exponent - 2)
  let aboveHigh := compareScaled d high (x.exponent - 2)
  (aboveLow == .gt || (closed && aboveLow == .eq))
    && (aboveHigh == .lt || (closed && aboveHigh == .eq))

def powerAbove (x : Double) : Int :=
  let estimate := ((x.mantissa.log2 : Int) + x.exponent) * 30103 / 100000 - 1
  let steps := (List.range 5).find? fun (step : Nat) =>
    compareScaled ⟨1, estimate + step⟩ x.mantissa x.exponent == .gt
  estimate + steps.getD 0

/-- The decimal with a last digit at `10 ^ exponent` that reads back, if there is one; of two the
nearer one, and of two equally near the one whose digits are even. -/
def onGrid? (x : Double) (exponent : Int) : Option Decimal :=
  let (num, den) := x.ratio
  let below := num * Nat.pow 10 (-exponent).toNat / (den * Nat.pow 10 exponent.toNat)
  let lower : Decimal := ⟨below, exponent⟩
  let upper : Decimal := ⟨below + 1, exponent⟩
  if x.readsBack lower && x.readsBack upper then
    match compareScaled ⟨2 * below + 1, exponent⟩ x.mantissa (x.exponent + 1) with
    | .gt => some lower
    | .lt => some upper
    | .eq => some (if below % 2 = 0 then lower else upper)
  else if x.readsBack lower then some lower
  else if x.readsBack upper then some upper
  else none

def exact (x : Double) : Decimal :=
  ⟨x.mantissa * Nat.pow 2 x.exponent.toNat * Nat.pow 5 (-x.exponent).toNat, min 0 x.exponent⟩

def digitLimit : Nat := 17

def shortest (x : Double) : Decimal :=
  if x.mantissa = 0 then ⟨0, 0⟩
  else
    let power := x.powerAbove
    let found := (List.range digitLimit).findSome? fun (digits : Nat) =>
      x.onGrid? (power - (digits + 1))
    (found.getD x.exact).strip digitLimit

def render (x : Double) : List Char :=
  x.shortest.render

end Double

end SecretEnv
