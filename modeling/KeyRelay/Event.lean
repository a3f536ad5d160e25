import KeyRelay.Item

set_option autoImplicit false

/-! # Events

A producer tells of its objects in events: what happened, and to which items. Items of one event
are applied one after the other, each on its own. -/

namespace KeyRelay

/-- What happened to the items of an event. -/
inductive EventKind where
  | add
  | update
  | delete
  deriving Repr, DecidableEq, Inhabited

namespace EventKind

/-- The kinds by name. -/
def table : List (String × EventKind) := [("Add", .add), ("Update", .update), ("Delete", .delete)]

/-- The name of a kind. -/
def name : EventKind → String
  | .add => "Add"
  | .update => "Update"
  | .delete => "Delete"

/-- The name of a kind inside a sentence. -/
def verb : EventKind → String
  | .add => "add"
  | .update => "update"
  | .delete => "delete"

end EventKind

/-- A batch of items to which the same thing happened. -/
structure Event where
  kind : EventKind
  items : List Item
  deriving Repr, DecidableEq

end KeyRelay
