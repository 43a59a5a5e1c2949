import SecretEnv.Number.Double

namespace SecretEnv.Json

structure Numeral where
  text : List Char
  negative : Bool
  whole : List Nat
  fraction : List Nat
  exponent : Int
  integral : Bool
  deriving DecidableEq, Repr

namespace Numeral

def digit (c : Char) : Nat :=
  c.toNat - '0'.toNat

def digits? (text : List Char) : Option (List Nat × List Char) :=
  match text.takeWhile Char.isDigit with
  | [] => none
  | run => some (run.map digit, text.dropWhile Char.isDigit)

def magnitude (digits : List Nat) : Nat :=
  digits.foldl (fun n d => 10 * n + d) 0

def whole? (text : List Char) : Option (List Nat × List Char) := do
  let (run, rest) ← digits? text
  if run.length > 1 ∧ run.head? = some 0 then none else some (run, rest)

def fraction? : List Char → Option (List Nat × List Char)
  | '.' :: rest => digits? rest
  | rest => some ([], rest)

def signedExponent? : List Char → Option (Int × List Char)
  | '-' :: rest => (digits? rest).map fun (run, rest) => (-(magnitude run : Int), rest)
  | '+' :: rest => (digits? rest).map fun (run, rest) => ((magnitude run : Int), rest)
  | rest => (digits? rest).map fun (run, rest) => ((magnitude run : Int), rest)

def exponent? : List Char → Option (Int × List Char)
  | 'e' :: rest => signedExponent? rest
  | 'E' :: rest => signedExponent? rest
  | rest => some (0, rest)

def ofChars? (text : List Char) : Option Numeral := do
  let negative := text.head? = some '-'
  let unsigned := if negative then text.tail else text
  let (whole, afterWhole) ← whole? unsigned
  let (fraction, afterFraction) ← fraction? afterWhole
  let (exponent, afterExponent) ← exponent? afterFraction
  if afterExponent = [] then
    some ⟨text, negative, whole, fraction, exponent, afterWhole.isEmpty⟩
  else none

def natural? (n : Numeral) : Option Nat :=
  if !n.negative && n.integral then some (magnitude n.whole) else none

def wordSize : Nat := 18446744073709551616

def append (n : Nat) : List Nat → Nat × Nat
  | [] => (n, 0)
  | d :: rest => if 10 * n + d < wordSize then append (10 * n + d) rest else (n, rest.length + 1)

/-- The leading digits as one number that fits a word, and the power of ten that it is times. -/
def significand (n : Numeral) : Nat × Int :=
  let (whole, leftOver) := append 0 n.whole
  let (significand, unread) := append whole n.fraction
  (significand, n.exponent + leftOver - (n.fraction.length - unread : Nat))

def greatestPower : Nat := 308

/-- Divides by a power of ten, in steps that no greater power takes part in. What is left after
three steps is zero. -/
def divideByPower (x : Double) (power : Nat) : Nat → Option Double
  | 0 => some .zero
  | steps + 1 =>
    if power ≤ greatestPower then (Double.ofNat? (Nat.pow 10 power)).bind x.div?
    else do
      let quotient ← x.div? (← Double.ofNat? (Nat.pow 10 greatestPower))
      divideByPower quotient (power - greatestPower) steps

/-- The double that the number is taken for, its sign left aside: the double nearest to the
significand times, or divided by, the one nearest to its power of ten. It is absent when it is not
finite. -/
def double? (n : Numeral) : Option Double := do
  let (significand, scale) := n.significand
  let x ← Double.ofNat? significand
  if significand = 0 then some .zero
  else if scale < 0 then divideByPower x scale.natAbs 3
  else if scale > greatestPower then none
  else x.mul? (← Double.ofNat? (Nat.pow 10 scale.toNat))

def fitsDouble (n : Numeral) : Bool :=
  n.double?.isSome

def exponentBound : Nat := 2147483648

def digitsBeyond (n : Nat) : List Nat → Nat
  | [] => 0
  | d :: rest => if 10 * n + d < exponentBound then digitsBeyond (10 * n + d) rest else rest.length

def lengthToOverflow (n : Numeral) : Nat :=
  let exponent := (n.text.dropWhile fun c => c != 'e' && c != 'E').filter Char.isDigit
  n.text.length - digitsBeyond 0 (exponent.map digit)

end Numeral

end SecretEnv.Json
