import KeyRelay.Conduit
import KeyRelay.Reduction

set_option autoImplicit false

/-! # Running a reducer on the conduit

A run owns the receiver of a conduit. Each poll first looks at the cancellation: once that has
fired, nothing more is taken, even if an event is waiting. Else it takes and reduces events until
the slot is empty, and it stops for good when nobody is left to send. Whenever it ends, by
cancellation, for want of producers or by a crash, the receiver goes with it. -/

namespace KeyRelay

/-- Whether a run goes on. -/
inductive Run.Status where
  | running
  | stopped
  | crashed (crash : Crash)
  deriving Repr, DecidableEq

/-- What a poll of a run leaves behind. -/
structure Run.Progress where
  status : Run.Status
  conduit : Conduit
  ledger : Ledger
  changes : List Change := []
  entries : List LogEntry := []
  deriving Repr, DecidableEq

namespace Run

/-- Entries that were noted before. -/
def Progress.noting (entries : List LogEntry) (p : Progress) : Progress :=
  { p with entries := entries ++ p.entries }

/-- A run that ends in good order. -/
def stop (conduit : Conduit) (ledger : Ledger) : Progress :=
  { status := .stopped
    conduit := conduit.close
    ledger := ledger
    entries := [.reducerStopped ledger.counter.current] }

/-- A run that finds nothing in the slot. -/
def rest (receipt : Conduit.Receipt) (conduit : Conduit) (ledger : Ledger) : Progress :=
  if receipt = .ended then (stop conduit ledger).noting [.producersGone]
  else { status := .running, conduit := conduit, ledger := ledger }

/-- A run that reduces an event it has taken. Taking it has emptied the slot, and nobody fills the
    slot during a poll of the run, so it looks there once more and finds nothing. -/
def reduce (event : Event) (conduit : Conduit) (ledger : Ledger) : Progress :=
  let (report, ledger) := ledger.apply event
  let progress : Progress :=
    match report.crash? with
    | some crash => { status := .crashed crash, conduit := conduit.close, ledger := ledger }
    | none => rest conduit.emptyReceipt conduit ledger
  { progress with
    changes := report.changes
    entries := report.entries ++ progress.entries }

/-- Takes what the slot holds. -/
def work (conduit : Conduit) (ledger : Ledger) : Progress :=
  match conduit.recv with
  | (.event event, entries, conduit) => (reduce event conduit ledger).noting entries
  | (receipt, entries, conduit) => (rest receipt conduit ledger).noting entries

/-- Polls a run; `started` once it was polled before. -/
def poll (started cancelled : Bool) (conduit : Conduit) (ledger : Ledger) : Progress :=
  (if cancelled then stop conduit ledger else work conduit ledger).noting
    (if started then [] else [.reducerStarted])

end Run

end KeyRelay
