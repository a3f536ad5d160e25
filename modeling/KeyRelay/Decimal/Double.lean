import KeyRelay.Decimal.Shortest

set_option autoImplicit false

/-! # Doubles in text

How a double is written, and which double the digits of a number token stand for. A token's
digits are gathered in a 64-bit word; the token is then that word times or over a power of ten,
each of the two steps rounded on its own. Digits that no longer fit the word only move the
exponent, before the point, or are passed over, behind it. -/

namespace KeyRelay.Decimal

/-! ## Writing -/

/-- Digits to the left of the point up to which a double is written without an exponent. -/
def positionalDigits : Int := 16

/-- Zeros behind the point up to which a double below one is written without an exponent. -/
def positionalZeros : Int := 5

/-- An exponent with its letter. Its sign is always written. -/
def exponentMark (exponent : Int) : List Char :=
  ['e', if 0 ≤ exponent then '+' else '-'] ++ Nat.toDigits 10 exponent.natAbs

/-- A double in text: positional with at least one digit behind the point where the value is
    neither large nor small, else with an exponent. -/
def render (bits : UInt64) : String :=
  let sign := if bits >>> 63 = 1 then "-" else ""
  if bits &&& 0x7fffffffffffffff = 0 then sign ++ "0.0"
  else
    let (d, k) := shortest bits
    let digits := Nat.toDigits 10 d
    let point : Int := digits.length + k
    let body :=
      if 0 ≤ k ∧ point ≤ positionalDigits then
        digits ++ List.replicate k.toNat '0' ++ ['.', '0']
      else if 0 < point ∧ point ≤ positionalDigits then
        digits.take point.toNat ++ ['.'] ++ digits.drop point.toNat
      else if -positionalZeros < point ∧ point ≤ 0 then
        ['0', '.'] ++ List.replicate (-point).toNat '0' ++ digits
      else
        digits.take 1 ++ (if digits.length = 1 then [] else ['.'] ++ digits.drop 1)
          ++ exponentMark (point - 1)
    sign ++ String.ofList body

/-! ## Reading -/

/-- The digits of a number token, read so far: the word that holds them, the power of ten it is
    to be multiplied by, and whether a digit has already failed to fit the word. -/
structure Gathered where
  significand : Nat
  exponent : Int
  full : Bool
  deriving Repr

/-- The greatest 64-bit word. -/
def maxWord : Nat := Nat.pow 2 64 - 1

/-- Takes in a digit before the point. -/
def Gathered.whole (g : Gathered) (digit : Nat) : Gathered :=
  if g.full then { g with exponent := g.exponent + 1 }
  else if maxWord < g.significand * 10 + digit then
    { g with exponent := g.exponent + 1, full := true }
  else { g with significand := g.significand * 10 + digit }

/-- Takes in a digit behind the point. -/
def Gathered.fraction (g : Gathered) (digit : Nat) : Gathered :=
  if g.full then g
  else if maxWord < g.significand * 10 + digit then { g with full := true }
  else { g with significand := g.significand * 10 + digit, exponent := g.exponent - 1 }

/-- The digits before and behind the point of a token. -/
def gather (whole fraction : List Nat) : Gathered :=
  let before := whole.foldl Gathered.whole ⟨0, 0, false⟩
  fraction.foldl Gathered.fraction { before with full := false }

/-- `f * 10^exponent`, or nothing if it is too large. A power of ten beyond the range of doubles
    is divided out in steps of `10^308`. -/
def scaled : (fuel : Nat) → (f : Float) → (exponent : Int) → Option Float
  | 0, f, _ => some f
  | fuel + 1, f, exponent =>
      if exponent.natAbs ≤ 308 then
        let power := Float.ofScientific 1 false exponent.natAbs
        if 0 ≤ exponent then
          let product := f * power
          if product.isInf then none else some product
        else some (f / power)
      else if f == 0.0 then some f
      else if 0 ≤ exponent then none
      else scaled fuel (f / Float.ofScientific 1 false 308) (exponent + 308)

/-- The bits of the double that a token stands for, or nothing if it is too large. -/
def doubleBits (negative : Bool) (significand : Nat) (exponent : Int) : Option UInt64 :=
  (scaled (exponent.natAbs / 308 + 1) (UInt64.ofNat significand).toFloat exponent).map fun f =>
    (if negative then -f else f).toBits

end KeyRelay.Decimal
