import KeyRelay.Key

set_option autoImplicit false

/-! # JSON values

Numbers come in two kinds: whole numbers that fit a 64-bit word, signed or unsigned, are kept
exactly, and every other number is a double, kept as its 64 bits so that values can be compared.
An object is the list of its fields in the order in which they are written; `Json.sorted` brings
a value into the form in which fields come in key order and no name occurs twice. -/

namespace KeyRelay

/-- A JSON number. -/
inductive Json.Number where
  /-- A whole number that fits a signed or an unsigned 64-bit word. -/
  | whole (value : Int)
  /-- A double, given by its bits. -/
  | double (bits : UInt64)
  deriving Repr, DecidableEq, Inhabited

/-- A JSON value. -/
inductive Json where
  | null
  | bool (value : Bool)
  | number (value : Json.Number)
  | string (value : String)
  | array (items : List Json)
  | object (fields : List (String × Json))
  deriving Repr, Inhabited

namespace Json

/-! ## Equality -/

mutual

/-- Equality of values is decidable. -/
def decEq : (a b : Json) → Decidable (a = b)
  | .null, .null => isTrue rfl
  | .bool a, .bool b => decidable_of_iff (a = b) (by simp)
  | .number a, .number b => decidable_of_iff (a = b) (by simp)
  | .string a, .string b => decidable_of_iff (a = b) (by simp)
  | .array a, .array b =>
      match decEqItems a b with
      | isTrue h => isTrue (by rw [h])
      | isFalse h => isFalse (by simpa using h)
  | .object a, .object b =>
      match decEqFields a b with
      | isTrue h => isTrue (by rw [h])
      | isFalse h => isFalse (by simpa using h)
  | .null, .bool _ | .null, .number _ | .null, .string _ | .null, .array _ | .null, .object _
  | .bool _, .null | .bool _, .number _ | .bool _, .string _ | .bool _, .array _
  | .bool _, .object _
  | .number _, .null | .number _, .bool _ | .number _, .string _ | .number _, .array _
  | .number _, .object _
  | .string _, .null | .string _, .bool _ | .string _, .number _ | .string _, .array _
  | .string _, .object _
  | .array _, .null | .array _, .bool _ | .array _, .number _ | .array _, .string _
  | .array _, .object _
  | .object _, .null | .object _, .bool _ | .object _, .number _ | .object _, .string _
  | .object _, .array _ => isFalse (by simp)

/-- Equality of lists of values is decidable. -/
def decEqItems : (a b : List Json) → Decidable (a = b)
  | [], [] => isTrue rfl
  | [], _ :: _ | _ :: _, [] => isFalse (by simp)
  | a :: as, b :: bs =>
      match decEq a b, decEqItems as bs with
      | isTrue h, isTrue hs => isTrue (by rw [h, hs])
      | isFalse h, _ => isFalse (by simp [h])
      | _, isFalse hs => isFalse (by simp [hs])

/-- Equality of lists of fields is decidable. -/
def decEqFields : (a b : List (String × Json)) → Decidable (a = b)
  | [], [] => isTrue rfl
  | [], _ :: _ | _ :: _, [] => isFalse (by simp)
  | (m, a) :: as, (n, b) :: bs =>
      match decEq a b, decEqFields as bs with
      | isTrue h, isTrue hs =>
          if hn : m = n then isTrue (by rw [h, hs, hn]) else isFalse (by simp [hn])
      | isFalse h, _ => isFalse (by simp [h])
      | _, isFalse hs => isFalse (by simp [hs])

end

instance : DecidableEq Json := decEq

/-! ## Fields in key order -/

/-- Puts a field at its place in a list of fields in key order, in place of one of its name. -/
def insertField (name : String) (value : Json) : List (String × Json) → List (String × Json)
  | [] => [(name, value)]
  | (n, v) :: rest =>
      if name = n then (name, value) :: rest
      else if Key.Before name n then (name, value) :: (n, v) :: rest
      else (n, v) :: insertField name value rest

mutual

/-- The value with the fields of every object in key order; of fields of one name the last
    stays. -/
def sorted : Json → Json
  | .array items => .array (sortedItems items)
  | .object fields => .object (sortedFields [] fields)
  | value => value

def sortedItems : List Json → List Json
  | [] => []
  | item :: rest => item.sorted :: sortedItems rest

def sortedFields (done : List (String × Json)) : List (String × Json) → List (String × Json)
  | [] => done
  | (name, value) :: rest => sortedFields (insertField name value.sorted done) rest

end

/-- The field of an object, the last one of that name. -/
def field? (name : String) : Json → Option Json
  | .object fields => (fields.reverse.find? fun (n, _) => n = name).map (·.2)
  | _ => none

end Json

end KeyRelay
