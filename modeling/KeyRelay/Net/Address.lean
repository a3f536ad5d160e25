set_option autoImplicit false

/-! # Socket addresses

An address is four bytes or eight groups of sixteen bits, with a port. It is read from the usual
notations and shown in one canonical form: an address of eight groups in lower case between
brackets, its first longest run of at least two zero groups left out, an embedded address of four
bytes in dotted form, and its scope only if there is one. -/

namespace KeyRelay.Net

/-- A host and a port. -/
inductive Address where
  | v4 (host : List Nat) (port : Nat)
  | v6 (groups : List Nat) (scope port : Nat)
  deriving Repr, DecidableEq

/-! ## Reading -/

/-- The value of a digit in bases up to sixteen. -/
def digit? (base : Nat) (c : Char) : Option Nat :=
  let value :=
    if '0' ≤ c ∧ c ≤ '9' then c.toNat - 48
    else if 'a' ≤ c ∧ c ≤ 'f' then c.toNat - 87
    else if 'A' ≤ c ∧ c ≤ 'F' then c.toNat - 55
    else base
  if value < base then some value else none

/-- A number of at least one digit that is at most `greatest`. At most `places` digits are
    allowed, if given, and zeros in front only if `padded`. -/
def readNumber (base : Nat) (places : Option Nat) (padded : Bool) (greatest : Nat)
    (cs : List Char) : Option (Nat × List Char) :=
  let digits := cs.takeWhile fun c => (digit? base c).isSome
  let value := digits.foldl (fun n c => n * base + (digit? base c).getD 0) 0
  if digits = [] ∨ greatest < value then none
  else if (places.any fun p => p < digits.length) then none
  else if !padded ∧ digits.head? = some '0' ∧ 1 < digits.length then none
  else some (value, cs.drop digits.length)

/-- The given character. -/
def readChar (c : Char) : List Char → Option (List Char)
  | d :: rest => if d = c then some rest else none
  | [] => none

/-- Four bytes in decimal between points. -/
def readV4 (cs : List Char) : Option (List Nat × List Char) := do
  let byte := readNumber 10 (some 3) false 255
  let (a, cs) ← byte cs
  let (b, cs) ← byte (← readChar '.' cs)
  let (c, cs) ← byte (← readChar '.' cs)
  let (d, cs) ← byte (← readChar '.' cs)
  return ([a, b, c, d], cs)

/-- The character that stands between two groups, but not before the first. -/
def readSeparator (first : Bool) (cs : List Char) : Option (List Char) :=
  if first then some cs else readChar ':' cs

/-- At most `limit` groups between colons; the last two may be given as four bytes. The flag says
    whether they were. -/
def readGroups (first : Bool) : (limit : Nat) → List Char → List Nat × Bool × List Char
  | 0, cs => ([], false, cs)
  | limit + 1, cs =>
      let embedded := if 1 ≤ limit then (readSeparator first cs).bind readV4 else none
      match embedded with
      | some ([a, b, c, d], rest) => ([a * 256 + b, c * 256 + d], true, rest)
      | _ =>
          match (readSeparator first cs).bind (readNumber 16 (some 4) true 0xffff) with
          | some (group, rest) =>
              let (groups, dotted, rest) := readGroups false limit rest
              (group :: groups, dotted, rest)
          | none => ([], false, cs)

/-- Eight groups, a double colon standing for at least one zero group. -/
def readV6 (cs : List Char) : Option (List Nat × List Char) :=
  let (head, dotted, rest) := readGroups true 8 cs
  if head.length = 8 then some (head, rest)
  else if dotted then none
  else do
    let rest ← readChar ':' (← readChar ':' rest)
    let (tail, _, rest) := readGroups true (7 - head.length) rest
    return (head ++ List.replicate (8 - head.length - tail.length) 0 ++ tail, rest)

/-- A port behind a colon. -/
def readPort (cs : List Char) : Option (Nat × List Char) := do
  readNumber 10 none true 65535 (← readChar ':' cs)

/-- A socket address of four bytes. -/
def readSocketV4 (cs : List Char) : Option (Address × List Char) := do
  let (host, cs) ← readV4 cs
  let (port, cs) ← readPort cs
  return (.v4 host port, cs)

/-- A socket address of eight groups. -/
def readSocketV6 (cs : List Char) : Option (Address × List Char) := do
  let (groups, cs) ← readV6 (← readChar '[' cs)
  let (scope, cs) :=
    match (readChar '%' cs).bind (readNumber 10 none true 0xffffffff) with
    | some (scope, rest) => (scope, rest)
    | none => (0, cs)
  let (port, cs) ← readPort (← readChar ']' cs)
  return (.v6 groups scope port, cs)

/-- Reads a socket address. -/
def Address.parse? (text : String) : Option Address :=
  match (readSocketV4 text.toList).or (readSocketV6 text.toList) with
  | some (address, []) => some address
  | _ => none

/-! ## Showing -/

/-- Four bytes in decimal between points. -/
def renderV4 (host : List Nat) : String := ".".intercalate (host.map toString)

/-- Groups in hexadecimal between colons. -/
def renderGroups (groups : List Nat) : String :=
  ":".intercalate (groups.map fun g => String.ofList (Nat.toDigits 16 g))

/-- The number of zero groups in front. -/
def zeroRun (groups : List Nat) : Nat := (groups.takeWhile (· = 0)).length

/-- The start and the length of the first longest run of zero groups. -/
def longestZeroRun (groups : List Nat) : Nat × Nat :=
  (List.range groups.length).foldl
    (fun best start =>
      let run := zeroRun (groups.drop start)
      if best.2 < run then (start, run) else best)
    (0, 0)

/-- Eight groups in canonical form. -/
def renderV6 (groups : List Nat) : String :=
  match groups with
  | [0, 0, 0, 0, 0, 0xffff, ab, cd] =>
      "::ffff:" ++ renderV4 [ab / 256, ab % 256, cd / 256, cd % 256]
  | _ =>
      let (start, run) := longestZeroRun groups
      if 1 < run then
        renderGroups (groups.take start) ++ "::" ++ renderGroups (groups.drop (start + run))
      else renderGroups groups

/-- A socket address in canonical form. -/
def Address.render : Address → String
  | .v4 host port => renderV4 host ++ ":" ++ toString port
  | .v6 groups 0 port => "[" ++ renderV6 groups ++ "]:" ++ toString port
  | .v6 groups scope port =>
      "[" ++ renderV6 groups ++ "%" ++ toString scope ++ "]:" ++ toString port

end KeyRelay.Net
