import KeyRelay.Counter
import KeyRelay.Fault
import KeyRelay.Item

set_option autoImplicit false

/-! # Records

A record is an item with the revision at which its object was created and the revision at which
this version of it was written. -/

namespace KeyRelay

/-- An item and its revisions. -/
structure Record where
  item : Item
  createRevision : Revision
  modifyRevision : Revision
  deriving Repr, DecidableEq

namespace Record

/-- The first version of an object. -/
def created (item : Item) (revision : Revision) : Record := ⟨item, revision, revision⟩

/-- A further version of an object, which keeps the revision of its creation. It must not be older
    than that. -/
def modified (item : Item) (previous : Record) (revision : Revision) : Except Crash Record :=
  if previous.createRevision ≤ revision then .ok ⟨item, previous.createRevision, revision⟩
  else .error .revisionRegressed

/-- The key of a record. -/
def key? (r : Record) : Option Key := r.item.key?

/-- The next version after the last one, or a first version. It has to have a key. -/
def revised (last : Option Record) (item : Item) (revision : Revision) : Except Crash Record := do
  let record ←
    match last with
    | some previous => modified item previous revision
    | none => pure (created item revision)
  if record.key?.isNone then throw .keyless
  return record

/-- The versions of an object, each made from the last one before it that did not crash. -/
def history (last : Option Record) : List (Item × Revision) → List (Except Crash Record)
  | [] => []
  | (item, revision) :: rest =>
      match revised last item revision with
      | .ok record => .ok record :: history (some record) rest
      | .error crash => .error crash :: history last rest

/-- The JSON form of a record, or why there is none. -/
def toJson (r : Record) : Except String Json :=
  r.item.toJson.map fun value =>
    .object
      [("create_revision", .number (.whole r.createRevision)),
        ("modify_revision", .number (.whole r.modifyRevision)), ("value", value)]

end Record

end KeyRelay
