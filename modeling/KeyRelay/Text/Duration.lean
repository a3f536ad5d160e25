set_option autoImplicit false

/-! # Spans of time in text

A span is shown in the largest of seconds, milliseconds, microseconds and nanoseconds of which it
holds at least one, as an exact decimal fraction without trailing zeros. -/

namespace KeyRelay.Text

/-- A span of time: whole seconds and less than a second in nanoseconds. -/
structure Duration where
  seconds : Nat
  nanos : Nat
  deriving Repr, DecidableEq, Inhabited

/-- Drops the zeros at the end. -/
def dropTrailingZeros (digits : List Char) : List Char :=
  (digits.reverse.dropWhile (· = '0')).reverse

/-- `whole` and `part` over ten to the `places`, with the part's trailing zeros dropped. -/
def decimal (whole part places : Nat) : List Char :=
  let digits := Nat.toDigits 10 part
  let padded := List.replicate (places - digits.length) '0' ++ digits
  match dropTrailingZeros padded with
  | [] => Nat.toDigits 10 whole
  | fraction => Nat.toDigits 10 whole ++ '.' :: fraction

/-- A span of time in text. -/
def Duration.render (d : Duration) : String :=
  let chars :=
    if 0 < d.seconds then decimal d.seconds d.nanos 9 ++ ['s']
    else if 1000000 ≤ d.nanos then
      decimal (d.nanos / 1000000) (d.nanos % 1000000) 6 ++ ['m', 's']
    else if 1000 ≤ d.nanos then decimal (d.nanos / 1000) (d.nanos % 1000) 3 ++ ['µ', 's']
    else decimal d.nanos 0 0 ++ ['n', 's']
  String.ofList chars

end KeyRelay.Text
