import KeyRelay.Store
import KeyRelay.Change
import KeyRelay.LogEntry

set_option autoImplicit false

/-! # Reduction

Events are reduced item by item. Every item takes a revision, whatever becomes of it. An item that
is added becomes a first version, also in place of an object that exists; an update and a delete
need an object to work on and are rejected where there is none. What is accepted changes the store
and is reported as a change; what is rejected leaves a note in the log and no trace elsewhere.

A crash ends the event at the item that caused it: that item has taken its revision and has done
nothing else, the items before it are done, and those after it are not looked at. -/

namespace KeyRelay

/-- What reduction works on: the counter of revisions and the store. -/
structure Ledger where
  counter : Counter := {}
  store : Store := {}
  deriving Repr, DecidableEq, Inhabited

/-- What became of an item. -/
structure Outcome where
  applied : Bool
  key : Key
  revision : Revision
  deriving Repr, DecidableEq

/-- An item weighed against the store: the outcome, the change if it was accepted, the note for
    the log, and the store afterwards. -/
structure Verdict where
  outcome : Outcome
  change? : Option Change
  entry : LogEntry
  store : Store

/-- What reducing an event came to, up to a crash if there was one. -/
structure Report where
  outcomes : List Outcome := []
  changes : List Change := []
  entries : List LogEntry := []
  crash? : Option Crash := none
  deriving Repr, DecidableEq

/-- A verdict that accepts an item. -/
def Verdict.accept (key : Key) (revision : Revision) (change : Change) (entry : LogEntry)
    (store : Store) : Verdict :=
  { outcome := ⟨true, key, revision⟩
    change? := some change
    entry := entry
    store := store }

/-- A verdict that rejects an item and leaves the store as it is. -/
def Verdict.reject (kind : EventKind) (key : Key) (revision : Revision) (store : Store) :
    Verdict :=
  { outcome := ⟨false, key, revision⟩
    change? := none
    entry := .ignored kind key revision
    store := store }

/-- Puts a verdict in front of a report. -/
def Report.after (v : Verdict) (r : Report) : Report :=
  { r with
    outcomes := v.outcome :: r.outcomes
    changes := v.change?.toList ++ r.changes
    entries := v.entry :: r.entries }

/-- Weighs an item that has taken `revision` against the store. -/
def Store.weigh (s : Store) (kind : EventKind) (item : Item) (revision : Revision) :
    Except Crash Verdict :=
  match item.key? with
  | none => .error .keyless
  | some key =>
      match kind, s.get? key with
      | .add, previous =>
          let record := Record.created item revision
          .ok (.accept key revision (.put record previous)
            (.applied .add key revision revision (some record.item)) (s.insert key record))
      | .update, some previous => do
          let record ← Record.modified item previous revision
          return .accept key revision (.put record (some previous))
            (.applied .update key record.createRevision revision (some record.item))
            (s.insert key record)
      | .delete, some previous => do
          let tombstone ← Record.modified item previous revision
          return .accept key revision (.delete tombstone previous)
            (.applied .delete key tombstone.createRevision revision none) (s.erase key)
      | kind, none => .ok (.reject kind key revision s)

namespace Ledger

/-- Reduces items one after the other, up to the first crash. -/
def applyItems (kind : EventKind) : List Item → Ledger → Report × Ledger
  | [], l => ({}, l)
  | item :: rest, l =>
      let (revision, counter) := l.counter.next
      match l.store.weigh kind item revision with
      | .error crash => ({ crash? := some crash }, ⟨counter, l.store⟩)
      | .ok verdict =>
          let (report, l) := applyItems kind rest ⟨counter, verdict.store⟩
          (report.after verdict, l)

/-- Reduces an event. -/
def apply (l : Ledger) (event : Event) : Report × Ledger :=
  let (report, l) := applyItems event.kind event.items l
  ({ report with entries := .applying event.kind event.items.length :: report.entries }, l)

end Ledger

end KeyRelay
