import KeyRelay.Json.Basic
import KeyRelay.Json.ReadError

set_option autoImplicit false

/-! # The words of a JSON text

Blanks, literal words, strings, numbers, and the steps from one item of a list or one field of an
object to the next. Each function takes the characters that are left and returns those that
follow what it has read, or the first fault in the order of the text. -/

namespace KeyRelay.Json

/-- What was read and the characters after it, or the fault that was met. -/
abbrev Reading (α : Type) := Except ReadError (α × List Char)

/-! ## Blanks and words -/

/-- The four characters that may stand between words. -/
def isBlank (c : Char) : Bool := c = ' ' || c = '\n' || c = '\t' || c = '\r'

/-- The characters from the first one that is not blank. -/
def skipBlanks (cs : List Char) : List Char := cs.dropWhile isBlank

/-- The rest of a literal word whose first letters have been read. -/
def readWord : (letters cs : List Char) → Except ReadError (List Char)
  | [], cs => .ok cs
  | _ :: _, [] => .error .noValue
  | letter :: letters, c :: cs =>
      if c = letter then readWord letters cs else .error .noWord

/-! ## Strings -/

/-- The value of a hexadecimal digit. -/
def hexDigit? (c : Char) : Option Nat :=
  if '0' ≤ c ∧ c ≤ '9' then some (c.toNat - 48)
  else if 'a' ≤ c ∧ c ≤ 'f' then some (c.toNat - 87)
  else if 'A' ≤ c ∧ c ≤ 'F' then some (c.toNat - 55)
  else none

/-- The value of four hexadecimal digits. -/
def hexWord? (a b c d : Char) : Option Nat :=
  match hexDigit? a, hexDigit? b, hexDigit? c, hexDigit? d with
  | some a, some b, some c, some d => some (((a * 16 + b) * 16 + c) * 16 + d)
  | _, _, _, _ => none

/-- The fault of a numeric escape that has fewer than four characters left: with at least four
    bytes left the digits are wrong, with fewer the text has ended. -/
def shortEscape (cs : List Char) : ReadError :=
  if 4 ≤ (String.ofList cs).utf8ByteSize then .badEscape else .openString

/-- The character that a one-letter escape stands for. -/
def simpleEscape? (c : Char) : Option Char :=
  match c with
  | '"' => some '"'
  | '\\' => some '\\'
  | '/' => some '/'
  | 'b' => some '\x08'
  | 'f' => some '\x0c'
  | 'n' => some '\n'
  | 'r' => some '\r'
  | 't' => some '\t'
  | _ => none

/-- The character of a pair of surrogates. -/
def pairedChar (high low : Nat) : Char :=
  Char.ofNat (0x10000 + (high - 0xd800) * 0x400 + (low - 0xdc00))

/-- Puts a character before those of a reading. -/
def Reading.cons (c : Char) (reading : Reading (List Char)) : Reading (List Char) :=
  reading.map fun (cs, rest) => (c :: cs, rest)

/-- The characters of a string whose opening quote has been read. A surrogate escape has to be
    one of a pair, high before low. -/
def readString : List Char → Reading (List Char)
  | [] => .error .openString
  | '"' :: rest => .ok ([], rest)
  | '\\' :: 'u' :: a :: b :: c :: d :: rest =>
      match hexWord? a b c d with
      | none => .error .badEscape
      | some high =>
          if 0xdc00 ≤ high ∧ high ≤ 0xdfff then .error .strayLowSurrogate
          else if 0xd800 ≤ high ∧ high ≤ 0xdbff then
            match rest with
            | '\\' :: 'u' :: e :: f :: g :: h :: rest =>
                match hexWord? e f g h with
                | none => .error .badEscape
                | some low =>
                    if 0xdc00 ≤ low ∧ low ≤ 0xdfff then
                      (readString rest).cons (pairedChar high low)
                    else .error .strayLowSurrogate
            | '\\' :: 'u' :: rest => .error (shortEscape rest)
            | ['\\'] | [] => .error .openString
            | _ => .error .halfPair
          else (readString rest).cons (Char.ofNat high)
  | '\\' :: 'u' :: rest => .error (shortEscape rest)
  | ['\\'] => .error .openString
  | '\\' :: c :: rest =>
      match simpleEscape? c with
      | some c => (readString rest).cons c
      | none => .error .badEscape
  | c :: rest => if c.toNat < 32 then .error .bareControl else (readString rest).cons c

/-! ## Numbers -/

/-- The value of a decimal digit. -/
def digitValue (c : Char) : Nat := c.toNat - 48

/-- The number that the digits of a token stand for. -/
def numberOf (negative : Bool) (whole fraction : List Nat) (exponent : Int) :
    Except ReadError Number :=
  let gathered := Decimal.gather whole fraction
  match Decimal.doubleBits negative gathered.significand (gathered.exponent + exponent) with
  | some bits => .ok (.double bits)
  | none => .error .numberTooLarge

/-- The greatest exponent that is taken at its value; a greater one is as good as infinite. -/
def maxExponent : Nat := Nat.pow 2 31 - 1

/-- A number token with an exponent, from behind the letter that opens the exponent. -/
def readExponent (negative : Bool) (whole fraction : List Nat) (cs : List Char) :
    Reading Number :=
  let (down, cs) :=
    match cs with
    | '+' :: rest => (false, rest)
    | '-' :: rest => (true, rest)
    | _ => (false, cs)
  let digits := cs.takeWhile Char.isDigit
  let rest := cs.dropWhile Char.isDigit
  match digits, cs with
  | [], [] => .error .noValue
  | [], _ => .error .badNumber
  | digits, _ =>
      let exponent := Nat.ofDigitChars 10 digits 0
      if maxExponent < exponent then
        if (Decimal.gather whole fraction).significand ≠ 0 ∧ !down then .error .numberTooLarge
        else .ok (.double (if negative then -0.0 else 0.0 : Float).toBits, rest)
      else
        (numberOf negative whole fraction (if down then -(exponent : Int) else exponent)).map
          fun n => (n, rest)

/-- A token without point and exponent: exact if it fits a 64-bit word. Minus zero does not. -/
def wholeNumber (negative : Bool) (digits : List Char) : Except ReadError Number :=
  let n := Nat.ofDigitChars 10 digits 0
  if !negative ∧ n < Nat.pow 2 64 then .ok (.whole n)
  else if negative ∧ 0 < n ∧ n ≤ Nat.pow 2 63 then .ok (.whole (-n))
  else numberOf negative (digits.map digitValue) [] 0

/-- A number whose sign has been read. A zero is not followed by further digits, and a point is
    followed by at least one. -/
def readNumber (negative : Bool) (cs : List Char) : Reading Number :=
  let digits := cs.takeWhile Char.isDigit
  let rest := cs.dropWhile Char.isDigit
  match digits, cs with
  | [], [] => .error .noValue
  | [], _ => .error .badNumber
  | '0' :: _ :: _, _ => .error .badNumber
  | digits, _ =>
      let whole := digits.map digitValue
      match rest with
      | '.' :: behind =>
          let fraction := (behind.takeWhile Char.isDigit).map digitValue
          match fraction, behind, behind.dropWhile Char.isDigit with
          | [], [], _ => .error .noValue
          | [], _, _ => .error .badNumber
          | _, _, 'e' :: rest | _, _, 'E' :: rest => readExponent negative whole fraction rest
          | _, _, rest =>
              (numberOf negative whole fraction 0).map fun n => (n, rest)
      | 'e' :: rest | 'E' :: rest => readExponent negative whole [] rest
      | rest => (wholeNumber negative digits).map fun n => (n, rest)

/-! ## Steps through lists and objects -/

/-- Where a list or an object goes on. -/
inductive Next where
  /-- Past its closing bracket. -/
  | finished (rest : List Char)
  /-- At an item, or behind the opening quote of a field's name. -/
  | at (rest : List Char)

/-- The step to an item of a list; `first` before the first one. -/
def nextItem (first : Bool) (cs : List Char) : Except ReadError Next :=
  match skipBlanks cs with
  | [] => .error .openList
  | ']' :: rest => .ok (.finished rest)
  | c :: rest =>
      if first then .ok (.at (c :: rest))
      else if c = ',' then
        match skipBlanks rest with
        | [] => .error .noValue
        | ']' :: _ => .error .commaAtEnd
        | rest => .ok (.at rest)
      else .error .noListComma

/-- The step to the name of a field of an object; `first` before the first one. -/
def nextField (first : Bool) (cs : List Char) : Except ReadError Next :=
  match skipBlanks cs with
  | [] => .error .openObject
  | '\x7d' :: rest => .ok (.finished rest)
  | c :: rest =>
      if !first && c ≠ ',' then .error .noObjectComma
      else
        match if first then c :: rest else skipBlanks rest with
        | [] => .error .noValue
        | '"' :: rest => .ok (.at rest)
        | '\x7d' :: _ => .error .commaAtEnd
        | _ => .error .nameNotText

/-- The colon behind the name of a field. -/
def readColon (cs : List Char) : Except ReadError (List Char) :=
  match skipBlanks cs with
  | [] => .error .openObject
  | ':' :: rest => .ok rest
  | _ => .error .noColon

/-- What is left of a text has to be blank. -/
def readEnd {α : Type} : Reading α → Except ReadError α
  | .error e => .error e
  | .ok (a, rest) => if skipBlanks rest = [] then .ok a else .error .textAfterEnd

/-! ## Values of another kind than asked for -/

/-- The value that starts here, as far as a message names it. -/
def foundAt : List Char → Except ReadError Found
  | 'n' :: rest => (readWord ['u', 'l', 'l'] rest).map fun _ => .null
  | 't' :: rest => (readWord ['r', 'u', 'e'] rest).map fun _ => .bool true
  | 'f' :: rest => (readWord ['a', 'l', 's', 'e'] rest).map fun _ => .bool false
  | '"' :: rest => (readString rest).map fun (cs, _) => .string (String.ofList cs)
  | '[' :: _ => .ok .sequence
  | '\x7b' :: _ => .ok .map
  | '-' :: rest => (readNumber true rest).map fun (n, _) => ofNumber n
  | c :: rest =>
      if c.isDigit then (readNumber false (c :: rest)).map fun (n, _) => ofNumber n
      else .error .unexpected
  | [] => .error .noValue
where
  /-- A number as messages name it. -/
  ofNumber : Number → Found
    | .whole value => .whole value
    | .double bits => .double bits

/-- The fault of a value that is not of the kind asked for; a fault inside the value goes
    first. -/
def mismatch (expected : String) (cs : List Char) : ReadError :=
  match foundAt cs with
  | .ok found => .wrongType found expected
  | .error e => e

end KeyRelay.Json
