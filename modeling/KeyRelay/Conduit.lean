import KeyRelay.LogEntry

set_option autoImplicit false

/-! # The conduit

Events go from any number of producers to one receiver through a single slot. A send first needs
the permit for the slot: it takes it at once if the slot is free and nobody waits, else it joins
the line. It then puts its event into the slot, and it is accepted once the receiver has taken the
event. So a send is only ever accepted after its event was handed over.

The first send in the line holds the permit as soon as the slot is free, also before it is polled
again; nobody else can use the slot meanwhile. A send may be dropped at any time. It then leaves
the line, and the permit goes to the next one; if its event stands in the slot, it stays there, and
the receiver passes over it. When the receiver is gone, every send whose event was not taken is
refused. -/

namespace KeyRelay

/-- The number of a send, in the order in which sends were started. -/
abbrev Ticket := Nat

/-- How far a send has come. -/
inductive Send.Stage where
  /-- It has not been polled yet. -/
  | fresh
  /-- It waits for the permit, or holds it and has not been polled since. -/
  | queued
  /-- Its event stands in the slot. -/
  | placed
  /-- Its event was taken, and it has not been told yet. -/
  | taken
  /-- The receiver went away, and it has not been told yet. -/
  | refused
  deriving Repr, DecidableEq

/-- A send that has neither finished nor been dropped. -/
structure Send where
  ticket : Ticket
  event : Event
  stage : Send.Stage := .fresh
  deriving Repr, DecidableEq

/-- What a poll of a send answers. -/
inductive Send.Answer where
  | pending
  /-- The receiver has taken the event. -/
  | accepted
  /-- The receiver is gone and has not taken the event. -/
  | refused
  deriving Repr, DecidableEq

/-- What a finished send was told. -/
def Send.Answer.result? : Send.Answer → Option (Except Fault Unit)
  | .pending => none
  | .accepted => some (.ok ())
  | .refused => some (.error .channelClosed)

/-- The slot, the sends, and who is left at the two ends. -/
structure Conduit where
  /-- The unfinished sends, oldest first. -/
  sends : List Send := []
  /-- Who waits for the permit, first come first; the first one holds it when the slot is free. -/
  line : List Ticket := []
  /-- The event in the slot, and whose it is. -/
  slot : Option (Ticket × Event) := none
  /-- The number of senders, without those that unfinished sends keep alive. -/
  senders : Nat := 1
  /-- The receiver is gone. -/
  closed : Bool := false
  /-- The number of sends that were ever started. -/
  issued : Nat := 0
  deriving Repr, DecidableEq

/-- What a poll of the receiver answers. -/
inductive Conduit.Receipt where
  | event (event : Event)
  /-- The slot is empty, and there may be more. -/
  | pending
  /-- The slot is empty, and nobody is left to fill it. -/
  | ended
  deriving Repr, DecidableEq

namespace Conduit

/-! ## Looking -/

/-- The unfinished send with this ticket. -/
def send? (c : Conduit) (ticket : Ticket) : Option Send :=
  c.sends.find? fun s => s.ticket = ticket

/-- The permit is there for the taking. -/
def isFree (c : Conduit) : Bool := c.slot.isNone && c.line.isEmpty

/-- The permit belongs to this waiting send. -/
def holdsPermit (c : Conduit) (ticket : Ticket) : Bool :=
  c.slot.isNone && c.line.head? = some ticket

/-- No sender and no unfinished send is left. -/
def isDeserted (c : Conduit) : Bool := c.senders = 0 && c.sends.isEmpty

/-! ## The producers' end -/

/-- Another sender. -/
def addSender (c : Conduit) : Conduit := { c with senders := c.senders + 1 }

/-- A sender is dropped. -/
def dropSender (c : Conduit) : Conduit := { c with senders := c.senders - 1 }

/-- Starts a send, which does nothing before its first poll. -/
def start (c : Conduit) (event : Event) : Ticket × Conduit :=
  (c.issued, { c with sends := c.sends ++ [⟨c.issued, event, .fresh⟩], issued := c.issued + 1 })

/-- Moves a send to another stage. -/
def advance (c : Conduit) (ticket : Ticket) (stage : Send.Stage) : Conduit :=
  { c with sends := c.sends.map fun s => if s.ticket = ticket then { s with stage } else s }

/-- Removes a finished send. -/
def finish (c : Conduit) (ticket : Ticket) : Conduit :=
  { c with sends := c.sends.filter fun s => s.ticket ≠ ticket }

/-- Puts the event of a send into the slot. -/
def place (c : Conduit) (send : Send) : Conduit :=
  { c.advance send.ticket .placed with
    slot := some (send.ticket, send.event)
    line := c.line.filter fun t => t ≠ send.ticket }

/-- Lets a send wait for the permit. -/
def enqueue (c : Conduit) (send : Send) : Conduit :=
  { c.advance send.ticket .queued with line := c.line ++ [send.ticket] }

/-- Polls a send. There is no answer if there is no unfinished send with this ticket. -/
def poll (c : Conduit) (ticket : Ticket) : Option Send.Answer × Conduit :=
  match c.send? ticket with
  | none => (none, c)
  | some send =>
      match send.stage with
      | .fresh =>
          if c.closed then (some .refused, c.finish ticket)
          else if c.isFree then (some .pending, c.place send)
          else (some .pending, c.enqueue send)
      | .queued =>
          if c.holdsPermit ticket then (some .pending, c.place send) else (some .pending, c)
      | .placed => (some .pending, c)
      | .taken => (some .accepted, c.finish ticket)
      | .refused => (some .refused, c.finish ticket)

/-- Drops a send. An event of it that stands in the slot stays there. -/
def drop (c : Conduit) (ticket : Ticket) : Conduit :=
  { c.finish ticket with line := c.line.filter fun t => t ≠ ticket }

/-! ## The receiver's end -/

/-- What a receiver finds in an empty slot. -/
def emptyReceipt (c : Conduit) : Receipt := if c.isDeserted then .ended else .pending

/-- Polls the receiver. An event whose send was dropped is passed over with a note. -/
def recv (c : Conduit) : Receipt × List LogEntry × Conduit :=
  match c.slot with
  | none => (c.emptyReceipt, [], c)
  | some (ticket, event) =>
      let c := { c with slot := none }
      if (c.send? ticket).isSome then (.event event, [], c.advance ticket .taken)
      else (c.emptyReceipt, [.abandoned event.items.length], c)

/-- The receiver goes away. Whoever waits is refused at the next poll; so is whoever comes. -/
def close (c : Conduit) : Conduit :=
  { c with
    closed := true
    slot := none
    line := []
    sends := c.sends.map fun s =>
      if s.stage = .queued ∨ s.stage = .placed then { s with stage := .refused } else s }

end Conduit

end KeyRelay
