set_option autoImplicit false

/-! # Keys

A key is a text, and everything that orders keys or compares their beginnings looks at the bytes
of their UTF-8 encodings. Range reads and watch patterns both go through `Key.beginsWith`, so a
stem that selects a record in the store selects the change to it in the feed as well. -/

namespace KeyRelay

/-- The name of an object. -/
abbrev Key := String

namespace Key

/-- The UTF-8 encoding of a key. -/
def bytes (key : Key) : List UInt8 := key.toByteArray.data.toList

/-- Byte order: `a` comes strictly before `b`. -/
def Before (a b : Key) : Prop := a.bytes < b.bytes

instance (a b : Key) : Decidable (Before a b) :=
  inferInstanceAs (Decidable (a.bytes < b.bytes))

/-- The encoding of `key` begins with the encoding of `stem`. -/
def beginsWith (key stem : Key) : Bool := stem.bytes.isPrefixOf key.bytes

/-- Two keys with the same bytes are the same key. -/
theorem eq_of_bytes_eq {a b : Key} (h : a.bytes = b.bytes) : a = b := by
  apply String.toByteArray_inj.1
  apply ByteArray.ext
  exact Array.toList_inj.1 h

end Key

end KeyRelay
