import KeyRelay.Json.Printer
import KeyRelay.KeyValue
import KeyRelay.Text.Place

set_option autoImplicit false

/-! # Items

What a producer hands over: a raw pair of key and bytes, a document with a JSON body, a keyed
object that cannot be encoded, or an object that cannot even tell its key. An item is never
changed; an update replaces it. -/

namespace KeyRelay

/-- A keyed object that a producer hands over. -/
inductive Item where
  /-- A raw pair, served as its bytes. -/
  | raw (pair : KeyValue)
  /-- A structured object, served as its JSON text. -/
  | document (id : Key) (body : Json)
  /-- An object whose encoding fails for this reason. -/
  | unencodable (key : Key) (reason : String)
  /-- An object that breaks off when it is asked for its key. -/
  | keyless
  deriving Repr, DecidableEq

namespace Item

/-- The key of an item, if it has one. -/
def key? : Item → Option Key
  | .raw pair => some pair.key
  | .document id _ => some id
  | .unencodable key _ => some key
  | .keyless => none

/-- The structured form of an item, or why there is none. -/
def toJson : Item → Except String Json
  | .raw pair => .ok pair.toJson
  | .document id body => .ok (.object [("id", .string id), ("body", body)])
  | .unencodable _ reason => .error (Text.settlePlace reason)
  | .keyless => .error "item has no key"

/-- The bytes that clients are served, or why there are none. -/
def marshal : Item → Except String (List UInt8)
  | .raw pair => .ok pair.value
  | item => item.toJson.map fun json => json.render.toByteArray.data.toList

/-- The item in log entries: its JSON text, or a note that it has none. -/
def logValue (item : Item) : String :=
  match item.toJson with
  | .ok json => json.render
  | .error reason => "<unencodable: " ++ reason ++ ">"

end Item

end KeyRelay
