/-!
Doubles as exact numbers: a mantissa of at most 53 bits times a power of two. Every operation is the
exact one followed by one rounding to the nearest double, a tie going to the even mantissa. Signs
are left to those who use a double, because a sign changes no rounding.
-/
namespace SecretEnv

structure Double where
  mantissa : Nat
  exponent : Int
  deriving DecidableEq, Repr

namespace Double

/-- The exponent of the least doubles, which may have fewer than 53 bits. -/
def leastExponent : Int := -1074

def greatestExponent : Int := 971

def fullMantissa : Nat := Nat.pow 2 52

def zero : Double := ⟨0, leastExponent⟩

def roundQuotient (num den : Nat) : Nat :=
  let quotient := num / den
  let remainder := 2 * (num % den)
  if remainder > den ∨ remainder = den ∧ quotient % 2 = 1 then quotient + 1 else quotient

/-- The fraction `num / den` in units of `2 ^ exponent`, as a fraction. -/
def inUnits (num den : Nat) (exponent : Int) : Nat × Nat :=
  (num * Nat.pow 2 (-exponent).toNat, den * Nat.pow 2 exponent.toNat)

def exponentFor (num den : Nat) : Int :=
  let estimate : Int := (num.log2 : Int) - den.log2 - 53
  let (n, d) := inUnits num den estimate
  max leastExponent (if n < 2 * fullMantissa * d then estimate else estimate + 1)

def nearest? (num den : Nat) : Option Double :=
  if num = 0 then some zero
  else
    let exponent := exponentFor num den
    let (n, d) := inUnits num den exponent
    let mantissa := roundQuotient n d
    let rounded : Double :=
      if mantissa = 2 * fullMantissa then ⟨fullMantissa, exponent + 1⟩ else ⟨mantissa, exponent⟩
    if rounded.exponent ≤ greatestExponent then some rounded else none

def ratio (x : Double) : Nat × Nat :=
  (x.mantissa * Nat.pow 2 x.exponent.toNat, Nat.pow 2 (-x.exponent).toNat)

def ofNat? (n : Nat) : Option Double :=
  nearest? n 1

def mul? (x y : Double) : Option Double :=
  nearest? (x.ratio.1 * y.ratio.1) (x.ratio.2 * y.ratio.2)

def div? (x y : Double) : Option Double :=
  nearest? (x.ratio.1 * y.ratio.2) (x.ratio.2 * y.ratio.1)

end Double

end SecretEnv
