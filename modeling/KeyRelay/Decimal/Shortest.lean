set_option autoImplicit false

/-! # The shortest decimal that reads back as a double

A finite double is `m * 2^q`. The reals that round to it form an interval around it, whose ends
belong to it when `m` is even. For one digit, two digits and so on, `shortest` looks at the two
points of that decimal grid next to the value; the first grid with a point in the interval wins,
and of two points the nearer one, a tie going to the even digit. All arithmetic is exact. -/

namespace KeyRelay.Decimal

/-- The magnitude of a finite double, in units of a quarter of its last bit: the value itself,
    and the ends of the interval of reals that round to it. -/
structure Interval where
  /-- The value is `value * 2^(scale - 2)`. -/
  value : Nat
  lower : Nat
  upper : Nat
  /-- The exponent of the last bit. -/
  scale : Int
  /-- The ends belong to the interval. -/
  closed : Bool

/-- The interval of a double that is neither zero, infinite nor undefined. -/
def Interval.ofBits (bits : UInt64) : Interval :=
  let exponent := ((bits >>> 52) &&& 0x7ff).toNat
  let fraction := (bits &&& 0xfffffffffffff).toNat
  let m := if exponent = 0 then fraction else Nat.pow 2 52 + fraction
  let q : Int := if exponent = 0 then -1074 else (exponent : Int) - 1075
  { value := 4 * m
    lower := if fraction = 0 ∧ 1 < exponent then 4 * m - 1 else 4 * m - 2
    upper := 4 * m + 2
    scale := q
    closed := m % 2 = 0 }

/-- `x * 2^(scale - 2) / 10^k` as a fraction. -/
def Interval.over (i : Interval) (x : Nat) (k : Int) : Nat × Nat :=
  let e := i.scale - 2
  (x * Nat.pow 2 e.toNat * Nat.pow 10 (-k).toNat, Nat.pow 2 (-e).toNat * Nat.pow 10 k.toNat)

/-- The point `c * 10^k` lies in the interval. -/
def Interval.holds (i : Interval) (c : Nat) (k : Int) : Bool :=
  let (lower, unit) := i.over i.lower k
  let (upper, _) := i.over i.upper k
  if i.closed then lower ≤ c * unit && c * unit ≤ upper
  else lower < c * unit && c * unit < upper

/-- The point of the grid of multiples of `10^k` that lies in the interval, the nearer of two. -/
def Interval.onGrid (i : Interval) (k : Int) : Option Nat :=
  let (num, den) := i.over i.value k
  let below := num / den
  let above := below + 1
  match i.holds below k, i.holds above k with
  | true, true =>
      if 2 * (num % den) < den then some below
      else if den < 2 * (num % den) then some above
      else if below % 2 = 0 then some below else some above
  | true, false => some below
  | false, true => some above
  | false, false => none

/-- The number of decimal digits of the whole part. -/
def digitCount (n : Nat) : Nat := (Nat.toDigits 10 n).length

/-- The least `t ≥ from` with `1 ≤ value * 10^t`, among at most `fuel` candidates. -/
def Interval.lift (i : Interval) : (fuel start : Nat) → Nat
  | 0, t => t
  | fuel + 1, t =>
      let (num, den) := i.over i.value (-(t : Int))
      if den ≤ num then t else Interval.lift i fuel (t + 1)

/-- The exponent of the leading decimal digit. -/
def Interval.leading (i : Interval) : Int :=
  let (num, den) := i.over i.value 0
  if den ≤ num then (digitCount (num / den) : Int) - 1 else -(i.lift 400 1 : Int)

/-- The first grid, from the coarsest, with a point in the interval. -/
def Interval.search (i : Interval) : (fuel : Nat) → (k : Int) → Nat × Int
  | 0, k => let (num, den) := i.over i.value k; (num / den, k)
  | fuel + 1, k =>
      match i.onGrid k with
      | some c => (c, k)
      | none => Interval.search i fuel (k - 1)

/-- Digits without trailing zeros, and the exponent that makes up for those dropped. -/
def dropZeros : (fuel : Nat) → Nat → Int → Nat × Int
  | 0, d, k => (d, k)
  | fuel + 1, d, k => if d ≠ 0 ∧ d % 10 = 0 then dropZeros fuel (d / 10) (k + 1) else (d, k)

/-- The shortest decimal `d * 10^k` that reads back as the magnitude of a finite nonzero
    double. -/
def shortest (bits : UInt64) : Nat × Int :=
  let i := Interval.ofBits bits
  let (d, k) := i.search 17 i.leading
  dropZeros 20 d k

end KeyRelay.Decimal
