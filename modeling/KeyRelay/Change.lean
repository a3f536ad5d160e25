import KeyRelay.Record

set_option autoImplicit false

/-! # Changes

What watchers are told of: that the record of a key was put or deleted, with the record after the
change and the one before it. After a delete, the record is a tombstone that carries the revision
of the delete. -/

namespace KeyRelay

/-- Whether a key has a record after the change. -/
inductive ChangeKind where
  | put
  | delete
  deriving Repr, DecidableEq, Inhabited

namespace ChangeKind

/-- The kinds by name. -/
def table : List (String × ChangeKind) := [("Put", .put), ("Delete", .delete)]

/-- The name of a kind. -/
def name : ChangeKind → String
  | .put => "Put"
  | .delete => "Delete"

end ChangeKind

/-- A change to one key. -/
structure Change where
  kind : ChangeKind
  record : Record
  previous : Option Record
  deriving Repr, DecidableEq

namespace Change

/-- The key that changed. -/
def key? (c : Change) : Option Key := c.record.key?

/-- The revision of the change. -/
def revision (c : Change) : Revision := c.record.modifyRevision

/-- A record was put, in place of `previous` if there was one. -/
def put (record : Record) (previous : Option Record) : Change := ⟨.put, record, previous⟩

/-- A record was removed, and this is its tombstone. -/
def delete (tombstone previous : Record) : Change := ⟨.delete, tombstone, some previous⟩

end Change

end KeyRelay
