import KeyRelay.Json.Lexeme

set_option autoImplicit false

/-! # JSON text, read

`parse` reads a whole text as one value. Lists and objects may nest 127 deep. -/

namespace KeyRelay.Json

/-- How deep lists and objects may nest, plus one. -/
def depthLimit : Nat := 128

mutual

/-- A value, with `depth - 1` levels of nesting left. The fuel bounds the number of calls. -/
def readValue : (fuel depth : Nat) → List Char → Reading Json
  | 0, _, _ => .error .tooDeep
  | fuel + 1, depth, cs =>
      match skipBlanks cs with
      | [] => .error .noValue
      | 'n' :: rest => (readWord ['u', 'l', 'l'] rest).map fun rest => (.null, rest)
      | 't' :: rest => (readWord ['r', 'u', 'e'] rest).map fun rest => (.bool true, rest)
      | 'f' :: rest => (readWord ['a', 'l', 's', 'e'] rest).map fun rest => (.bool false, rest)
      | '"' :: rest => (readString rest).map fun (s, rest) => (.string (String.ofList s), rest)
      | '-' :: rest => (readNumber true rest).map fun (n, rest) => (.number n, rest)
      | '[' :: rest =>
          if depth ≤ 1 then .error .tooDeep
          else (readItems fuel (depth - 1) true rest).map fun (xs, rest) => (.array xs, rest)
      | '\x7b' :: rest =>
          if depth ≤ 1 then .error .tooDeep
          else (readFields fuel (depth - 1) true rest).map fun (fs, rest) => (.object fs, rest)
      | c :: rest =>
          if c.isDigit then
            (readNumber false (c :: rest)).map fun (n, rest) => (.number n, rest)
          else .error .unexpected

/-- The items of a list from here on, and past its closing bracket. -/
def readItems : (fuel depth : Nat) → (first : Bool) → List Char → Reading (List Json)
  | 0, _, _, _ => .error .tooDeep
  | fuel + 1, depth, first, cs =>
      match nextItem first cs with
      | .error e => .error e
      | .ok (.finished rest) => .ok ([], rest)
      | .ok (.at rest) =>
          match readValue fuel depth rest with
          | .error e => .error e
          | .ok (x, rest) =>
              (readItems fuel depth false rest).map fun (xs, rest) => (x :: xs, rest)

/-- The fields of an object from here on, and past its closing brace. -/
def readFields : (fuel depth : Nat) → (first : Bool) → List Char →
    Reading (List (String × Json))
  | 0, _, _, _ => .error .tooDeep
  | fuel + 1, depth, first, cs =>
      match nextField first cs with
      | .error e => .error e
      | .ok (.finished rest) => .ok ([], rest)
      | .ok (.at rest) =>
          match readString rest with
          | .error e => .error e
          | .ok (name, rest) =>
              match readColon rest with
              | .error e => .error e
              | .ok rest =>
                  match readValue fuel depth rest with
                  | .error e => .error e
                  | .ok (x, rest) =>
                      (readFields fuel depth false rest).map fun (fs, rest) =>
                        ((String.ofList name, x) :: fs, rest)

end

/-- Reads a text as one value, its fields in the order in which they are written. -/
def parse (text : String) : Except ReadError Json :=
  let cs := text.toList
  readEnd (readValue (2 * cs.length + 3) depthLimit cs)

end KeyRelay.Json
