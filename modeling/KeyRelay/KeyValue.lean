import KeyRelay.Json.Basic
import KeyRelay.Key

set_option autoImplicit false

/-! # Raw pairs

A key and the bytes that are stored under it, as they came from a client. -/

namespace KeyRelay

/-- A raw key and opaque bytes. -/
structure KeyValue where
  key : Key
  value : List UInt8
  deriving Repr, DecidableEq

/-- The JSON form of a raw pair: the bytes as numbers. -/
def KeyValue.toJson (kv : KeyValue) : Json :=
  .object
    [("key", .string kv.key),
      ("value", .array (kv.value.map fun b => .number (.whole b.toNat)))]

end KeyRelay
