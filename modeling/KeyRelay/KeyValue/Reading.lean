import KeyRelay.Json.Lexeme
import KeyRelay.Json.Skip
import KeyRelay.Json.Variant
import KeyRelay.KeyValue

set_option autoImplicit false

/-! # Raw pairs, read

A raw pair is an object with the fields `key` and `value`, among which others are passed over, or
a list of the two. It is read from a text on the way through it, so the first fault in the order
of the text is reported; and it is taken from a value, whose fields are looked at one by one. -/

namespace KeyRelay.KeyValue

open Json

/-- What a message expects where a pair is asked for. -/
def expected : String := "struct KeyValue"

/-- What a message expects where a list is too short for a pair. -/
def expectedBoth : String := "struct KeyValue with 2 elements"

/-- The byte that a number stands for. -/
def byteOf : Number → Except ReadError UInt8
  | .whole value =>
      if 0 ≤ value ∧ value < 256 then .ok (UInt8.ofNat value.toNat)
      else .error (.wrongValue (.whole value) "u8")
  | .double bits => .error (.wrongType (.double bits) "u8")

/-! ## From a text -/

/-- A key at the start of a text. -/
def readKey (cs : List Char) : Reading Key :=
  match skipBlanks cs with
  | [] => .error .noValue
  | '"' :: rest => (readString rest).map fun (key, rest) => (String.ofList key, rest)
  | rest => .error (mismatch "a string" rest)

/-- A byte at the start of a text. -/
def readByte (cs : List Char) : Except ReadError (UInt8 × List Char) :=
  match skipBlanks cs with
  | [] => .error .noValue
  | '-' :: rest => do
      let (digits, rest) ← readNumber true rest
      return (← byteOf digits, rest)
  | c :: rest =>
      if c.isDigit then do
        let (digits, rest) ← readNumber false (c :: rest)
        return (← byteOf digits, rest)
      else .error (mismatch "u8" (c :: rest))

/-- The bytes of a list from here on, and past its closing bracket. The fuel bounds the number of
    bytes. -/
def readBytes : (fuel : Nat) → (first : Bool) → List Char → Reading (List UInt8)
  | 0, _, _ => .error .tooDeep
  | fuel + 1, first, cs =>
      match nextItem first cs with
      | .error e => .error e
      | .ok (.finished rest) => .ok ([], rest)
      | .ok (.at rest) =>
          match readByte rest with
          | .error e => .error e
          | .ok (byte, rest) =>
              (readBytes fuel false rest).map fun (bytes, rest) => (byte :: bytes, rest)

/-- A list of bytes at the start of a text. -/
def readValue (cs : List Char) : Reading (List UInt8) :=
  match skipBlanks cs with
  | [] => .error .noValue
  | '[' :: rest => readBytes (rest.length + 1) true rest
  | rest => .error (mismatch "a sequence" rest)

/-- Past the closing bracket of a list that has had all its items. -/
def readListEnd (cs : List Char) : Except ReadError (List Char) :=
  match skipBlanks cs with
  | [] => .error .openList
  | ']' :: rest => .ok rest
  | ',' :: rest =>
      .error (if (skipBlanks rest).head? = some ']' then .commaAtEnd else .textAfterEnd)
  | _ => .error .textAfterEnd

/-- A pair that is written as a list, from behind the opening bracket. -/
def readPair (cs : List Char) : Except ReadError (KeyValue × List Char) :=
  match nextItem true cs with
  | .error e => .error e
  | .ok (.finished _) => .error (.wrongLength 0 expectedBoth)
  | .ok (.at rest) => do
      let (key, rest) ← readKey rest
      match nextItem false rest with
      | .error e => throw e
      | .ok (.finished _) => throw (.wrongLength 1 expectedBoth)
      | .ok (.at rest) =>
          let (value, rest) ← readValue rest
          return (⟨key, value⟩, ← readListEnd rest)

/-- The pair whose fields have been found, the key being missed first. -/
def ofFields : (key : Option Key) → (value : Option (List UInt8)) → Except ReadError KeyValue
  | none, _ => .error (.missingField "key")
  | some _, none => .error (.missingField "value")
  | some key, some value => .ok ⟨key, value⟩

/-- The fields of a pair from here on, and past the closing brace, with those found before. A
    field that comes twice is reported before its content is looked at. The fuel bounds the number
    of fields. -/
def readFields : (fuel : Nat) → (first : Bool) → (key : Option Key) →
    (value : Option (List UInt8)) → List Char → Except ReadError (KeyValue × List Char)
  | 0, _, _, _, _ => .error .tooDeep
  | fuel + 1, first, key, value, cs =>
      match nextField first cs with
      | .error e => .error e
      | .ok (.finished rest) => (ofFields key value).map fun pair => (pair, rest)
      | .ok (.at rest) => do
          let (name, rest) ← readString rest
          match String.ofList name with
          | "key" =>
              if key.isSome then throw (.repeatedField "key")
              let (key, rest) ← readKey (← readColon rest)
              readFields fuel false (some key) value rest
          | "value" =>
              if value.isSome then throw (.repeatedField "value")
              let (value, rest) ← readValue (← readColon rest)
              readFields fuel false key (some value) rest
          | _ =>
              let rest ← skip (← readColon rest)
              readFields fuel false key value rest

/-- A pair at the start of a text. -/
def read (cs : List Char) : Reading KeyValue :=
  match skipBlanks cs with
  | [] => .error .noValue
  | '[' :: rest => readPair rest
  | '\x7b' :: rest => readFields (rest.length + 1) true none none rest
  | rest => .error (mismatch expected rest)

/-- Reads a text as a raw pair. -/
def parse (text : String) : Except ReadError KeyValue := readEnd (read text.toList)

/-! ## From a value -/

/-- Takes a value as a key. -/
def keyOf : Json → Except ReadError Key
  | .string key => .ok key
  | value => .error (.wrongType value.found "a string")

/-- Takes a value as a byte. -/
def byteOfJson : Json → Except ReadError UInt8
  | .number value => byteOf value
  | value => .error (.wrongType value.found "u8")

/-- Takes a value as a list of bytes. -/
def bytesOf : Json → Except ReadError (List UInt8)
  | .array items => items.mapM byteOfJson
  | value => .error (.wrongType value.found "a sequence")

/-- Takes the fields of an object, one after the other, as those of a pair. -/
def ofObject : (key : Option Key) → (value : Option (List UInt8)) → List (String × Json) →
    Except ReadError KeyValue
  | key, value, [] => ofFields key value
  | key, value, (name, content) :: rest =>
      if name = "key" then do
        if key.isSome then throw (.repeatedField "key")
        ofObject (some (← keyOf content)) value rest
      else if name = "value" then do
        if value.isSome then throw (.repeatedField "value")
        ofObject key (some (← bytesOf content)) rest
      else ofObject key value rest

/-- Takes a value as a raw pair. -/
def ofJson : Json → Except ReadError KeyValue
  | .object fields => ofObject none none fields
  | .array [] => .error (.wrongLength 0 expectedBoth)
  | .array [key] => do
      let _ ← keyOf key
      throw (.wrongLength 1 expectedBoth)
  | .array (key :: value :: more) => do
      let key ← keyOf key
      let value ← bytesOf value
      if more.isEmpty then return ⟨key, value⟩
      else throw (.wrongLength (more.length + 2) "fewer elements in array")
  | value => .error (.wrongType value.found expected)

end KeyRelay.KeyValue
