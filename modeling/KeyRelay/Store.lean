import KeyRelay.Record

set_option autoImplicit false

/-! # The store

The current record of every key, in byte order of the keys. A range read starts at its stem and
stops at the first key that does not begin with it, which is enough: the keys that begin with a
stem stand together, and the stem comes before all of them. -/

namespace KeyRelay

/-- Records by key, in key order, each key once. -/
structure Store where
  entries : List (Key × Record) := []
  deriving Repr, DecidableEq, Inhabited

namespace Store

/-! ## Lists of entries -/

/-- Puts a record at the place of its key, in place of the one that stood there. -/
def insertEntry (key : Key) (record : Record) : List (Key × Record) → List (Key × Record)
  | [] => [(key, record)]
  | (k, r) :: rest =>
      if key = k then (key, record) :: rest
      else if Key.Before key k then (key, record) :: (k, r) :: rest
      else (k, r) :: insertEntry key record rest

/-! ## Writing -/

/-- Stores a record under a key. -/
def insert (s : Store) (key : Key) (record : Record) : Store :=
  ⟨insertEntry key record s.entries⟩

/-- Removes a key. -/
def erase (s : Store) (key : Key) : Store := ⟨s.entries.filter fun (k, _) => k ≠ key⟩

/-! ## Reading -/

/-- The record of a key. -/
def get? (s : Store) (key : Key) : Option Record :=
  (s.entries.find? fun (k, _) => k = key).map (·.2)

/-- All keys in order. -/
def keys (s : Store) : List Key := s.entries.map (·.1)

/-- All records in key order. -/
def records (s : Store) : List Record := s.entries.map (·.2)

/-- The number of keys. -/
def size (s : Store) : Nat := s.entries.length

/-- The store holds no key. -/
def isEmpty (s : Store) : Bool := s.entries.isEmpty

/-- The records of the keys that begin with `stem`, in key order. -/
def range (s : Store) (stem : Key) : List Record :=
  let fromStem := s.entries.dropWhile fun (k, _) => Key.Before k stem
  (fromStem.takeWhile fun (k, _) => Key.beginsWith k stem).map (·.2)

/-! ## Writing by record -/

/-- Stores a record under its own key. -/
def put (s : Store) (record : Record) : Except Crash Store :=
  match record.key? with
  | some key => .ok (s.insert key record)
  | none => .error .keyless

/-- Removes the key of a record; the first part is the record that stood there. -/
def delete (s : Store) (record : Record) : Except Crash (Option Record × Store) :=
  match record.key? with
  | some key => .ok (s.get? key, s.erase key)
  | none => .error .keyless

end Store

end KeyRelay
