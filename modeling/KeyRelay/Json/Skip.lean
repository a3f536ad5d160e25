import KeyRelay.Json.Lexeme

set_option autoImplicit false

/-! # Passing over a JSON value

A field that nobody asked for is passed over without being kept. Its words are checked, but not
that surrogates come in pairs, nor how deep it nests; and a comma has to be followed by a further
item or field, whose absence is reported as what is missing there. -/

namespace KeyRelay.Json

/-- Past the closing quote of a string whose opening quote has been read. -/
def skipString : List Char → Except ReadError (List Char)
  | [] => .error .openString
  | '"' :: rest => .ok rest
  | '\\' :: 'u' :: a :: b :: c :: d :: rest =>
      match hexWord? a b c d with
      | none => .error .badEscape
      | some _ => skipString rest
  | '\\' :: 'u' :: rest => .error (shortEscape rest)
  | ['\\'] => .error .openString
  | '\\' :: c :: rest =>
      match simpleEscape? c with
      | some _ => skipString rest
      | none => .error .badEscape
  | c :: rest => if c.toNat < 32 then .error .bareControl else skipString rest

/-- Past the digits of an exponent, from behind the letter that opens it. -/
def skipExponent (cs : List Char) : Except ReadError (List Char) :=
  let cs :=
    match cs with
    | '+' :: rest | '-' :: rest => rest
    | _ => cs
  match cs with
  | c :: rest => if c.isDigit then .ok (rest.dropWhile Char.isDigit) else .error .badNumber
  | [] => .error .badNumber

/-- Past a number whose sign has been passed. -/
def skipNumber (cs : List Char) : Except ReadError (List Char) :=
  match cs.takeWhile Char.isDigit, cs.dropWhile Char.isDigit with
  | [], _ => .error .badNumber
  | '0' :: _ :: _, _ => .error .badNumber
  | _, '.' :: behind =>
      match behind.takeWhile Char.isDigit, behind.dropWhile Char.isDigit with
      | [], _ => .error .badNumber
      | _, 'e' :: rest | _, 'E' :: rest => skipExponent rest
      | _, rest => .ok rest
  | _, 'e' :: rest | _, 'E' :: rest => skipExponent rest
  | _, rest => .ok rest

mutual

/-- Past a value. The fuel bounds the number of calls. -/
def skipValue : (fuel : Nat) → List Char → Except ReadError (List Char)
  | 0, _ => .error .tooDeep
  | fuel + 1, cs =>
      match skipBlanks cs with
      | [] => .error .noValue
      | 'n' :: rest => readWord ['u', 'l', 'l'] rest
      | 't' :: rest => readWord ['r', 'u', 'e'] rest
      | 'f' :: rest => readWord ['a', 'l', 's', 'e'] rest
      | '"' :: rest => skipString rest
      | '-' :: rest => skipNumber rest
      | '[' :: rest =>
          match skipBlanks rest with
          | [] => .error .openList
          | ']' :: rest => .ok rest
          | rest => skipItems fuel rest
      | '\x7b' :: rest =>
          match skipBlanks rest with
          | [] => .error .openObject
          | '\x7d' :: rest => .ok rest
          | rest => skipFields fuel rest
      | c :: rest => if c.isDigit then skipNumber (c :: rest) else .error .unexpected

/-- Past the items of a list, from an item on. -/
def skipItems : (fuel : Nat) → List Char → Except ReadError (List Char)
  | 0, _ => .error .tooDeep
  | fuel + 1, cs =>
      match skipValue fuel cs with
      | .error e => .error e
      | .ok rest =>
          match skipBlanks rest with
          | [] => .error .openList
          | ']' :: rest => .ok rest
          | ',' :: rest => skipItems fuel rest
          | _ => .error .noListComma

/-- Past the fields of an object, from a field on. -/
def skipFields : (fuel : Nat) → List Char → Except ReadError (List Char)
  | 0, _ => .error .tooDeep
  | fuel + 1, cs =>
      match skipBlanks cs with
      | [] => .error .openObject
      | '"' :: rest =>
          match (skipString rest).bind readColon with
          | .error e => .error e
          | .ok rest =>
              match skipValue fuel rest with
              | .error e => .error e
              | .ok rest =>
                  match skipBlanks rest with
                  | [] => .error .openObject
                  | '\x7d' :: rest => .ok rest
                  | ',' :: rest => skipFields fuel rest
                  | _ => .error .noObjectComma
      | _ => .error .nameNotText

end

/-- Past the value that starts here. -/
def skip (cs : List Char) : Except ReadError (List Char) :=
  skipValue (2 * cs.length + 3) cs

end KeyRelay.Json
