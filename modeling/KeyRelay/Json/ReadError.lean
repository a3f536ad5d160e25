import KeyRelay.Text.Literal
import KeyRelay.Decimal.Double

set_option autoImplicit false

/-! # What can be wrong with a JSON text or value

The faults of a text (where it ends too early, which sign is missing) and the faults of a value
(another kind of value than asked for, a name that is not known), with the wording of each. -/

namespace KeyRelay.Json

/-- What stands where something else was asked for. -/
inductive Found where
  | null
  | bool (value : Bool)
  | whole (value : Int)
  | double (bits : UInt64)
  | string (value : String)
  | sequence
  | map
  deriving Repr, DecidableEq

/-- A found value as messages name it. -/
def Found.describe : Found → String
  | .null => "null"
  | .bool value => "boolean `" ++ toString value ++ "`"
  | .whole value => "integer `" ++ toString value ++ "`"
  | .double bits => "floating point `" ++ Decimal.render bits ++ "`"
  | .string value => "string " ++ Text.literal value
  | .sequence => "sequence"
  | .map => "map"

/-- Why a text or a value was not read. -/
inductive ReadError where
  | openList
  | openObject
  | openString
  | noValue
  | noColon
  | noListComma
  | noObjectComma
  | noWord
  | unexpected
  | badEscape
  | badNumber
  | numberTooLarge
  | bareControl
  | nameNotText
  | strayLowSurrogate
  | halfPair
  | commaAtEnd
  | textAfterEnd
  | tooDeep
  | wrongType (found : Found) (expected : String)
  | wrongValue (found : Found) (expected : String)
  | wrongLength (length : Nat) (expected : String)
  | unknownVariant (name : String) (known : List String)
  | missingField (name : String)
  | repeatedField (name : String)
  deriving Repr, DecidableEq

/-- Names one of which is expected. -/
def oneOf (names : List String) : String :=
  match names.map fun name => "`" ++ name ++ "`" with
  | [a] => a
  | [a, b] => a ++ " or " ++ b
  | quoted => "one of " ++ ", ".intercalate quoted

/-- The wording of a read error. -/
def ReadError.message : ReadError → String
  | .openList => "EOF while parsing a list"
  | .openObject => "EOF while parsing an object"
  | .openString => "EOF while parsing a string"
  | .noValue => "EOF while parsing a value"
  | .noColon => "expected `:`"
  | .noListComma => "expected `,` or `]`"
  | .noObjectComma => "expected `,` or `\x7d`"
  | .noWord => "expected ident"
  | .unexpected => "expected value"
  | .badEscape => "invalid escape"
  | .badNumber => "invalid number"
  | .numberTooLarge => "number out of range"
  | .bareControl => "control character (\\u0000-\\u001F) found while parsing a string"
  | .nameNotText => "key must be a string"
  | .strayLowSurrogate => "lone leading surrogate in hex escape"
  | .halfPair => "unexpected end of hex escape"
  | .commaAtEnd => "trailing comma"
  | .textAfterEnd => "trailing characters"
  | .tooDeep => "recursion limit exceeded"
  | .wrongType found expected =>
      "invalid type: " ++ found.describe ++ ", expected " ++ expected
  | .wrongValue found expected =>
      "invalid value: " ++ found.describe ++ ", expected " ++ expected
  | .wrongLength length expected =>
      "invalid length " ++ toString length ++ ", expected " ++ expected
  | .unknownVariant name known =>
      "unknown variant `" ++ name ++ "`, expected " ++ oneOf known
  | .missingField name => "missing field `" ++ name ++ "`"
  | .repeatedField name => "duplicate field `" ++ name ++ "`"

end KeyRelay.Json
