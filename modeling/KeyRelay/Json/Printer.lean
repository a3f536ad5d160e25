import KeyRelay.Json.Basic
import KeyRelay.Text.Quoted
import KeyRelay.Decimal.Double

set_option autoImplicit false

/-! # JSON text, written

The compact form: no spaces, fields in the order of the value. -/

namespace KeyRelay.Json

/-- The characters of a number. -/
def Number.chars : Number → List Char
  | .whole value =>
      match value with
      | .ofNat n => Nat.toDigits 10 n
      | .negSucc n => '-' :: Nat.toDigits 10 (n + 1)
  | .double bits => (Decimal.render bits).toList

mutual

/-- The characters of the compact text of a value. -/
def chars : Json → List Char
  | .null => "null".toList
  | .bool true => "true".toList
  | .bool false => "false".toList
  | .number value => value.chars
  | .string value => Text.quoted value.toList
  | .array items => '[' :: itemsChars items
  | .object fields => '\x7b' :: fieldsChars fields

/-- The items of an array and its closing bracket. -/
def itemsChars : List Json → List Char
  | [] => [']']
  | item :: rest => item.chars ++ moreItemsChars rest

/-- The items of an array after its first one, and its closing bracket. -/
def moreItemsChars : List Json → List Char
  | [] => [']']
  | item :: rest => ',' :: item.chars ++ moreItemsChars rest

/-- The fields of an object and its closing brace. -/
def fieldsChars : List (String × Json) → List Char
  | [] => ['\x7d']
  | (name, value) :: rest =>
      Text.quoted name.toList ++ ':' :: value.chars ++ moreFieldsChars rest

/-- The fields of an object after its first one, and its closing brace. -/
def moreFieldsChars : List (String × Json) → List Char
  | [] => ['\x7d']
  | (name, value) :: rest =>
      ',' :: Text.quoted name.toList ++ ':' :: value.chars ++ moreFieldsChars rest

end

/-- The compact text of a value. -/
def render (value : Json) : String := String.ofList value.chars

end KeyRelay.Json
