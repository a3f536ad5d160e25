import KeyRelay.Feed
import KeyRelay.Run

set_option autoImplicit false

/-! # An assembly of the parts

Counters, one store, reducers that may share a counter, one feed, one conduit and one cancellation,
put together and driven by hand: every command is one step, and nothing happens between commands.
An observed reducer publishes its changes to the feed. A run takes a reducer and the receiver of
the conduit with it for good. A command that crashes leaves behind what it had done before.

Records can also be written and changes published past the reducers, from drafts, which say what
record to make. -/

namespace KeyRelay

/-- A reducer: which counter it takes its revisions from, and whether its changes are published. -/
structure Reducer where
  counter : Nat := 0
  observed : Bool := true
  deriving Repr, DecidableEq, Inhabited

/-- A record to be made: a further version of the object under `previous` if the store holds one,
    else a first version. -/
structure Draft where
  item : Item
  revision : Revision
  previous : Option Key
  deriving Repr, DecidableEq

/-- The parts. -/
structure Assembly where
  counters : List Counter
  store : Store := {}
  /-- The reducers by number, without those that were moved into a run. -/
  reducers : List (Option Reducer)
  feed : Feed
  conduit : Conduit := {}
  /-- The senders by name. -/
  senders : List String
  /-- The unfinished sends by name. -/
  sends : List (String × Ticket) := []
  /-- The receiver is there, and not in a run. -/
  receiver : Bool := true
  /-- The reducer of the run, and whether the run was polled. -/
  running : Option (Reducer × Bool) := none
  cancelled : Bool := false
  deriving Repr, DecidableEq

namespace Assembly

/-! ## Commands and replies -/

/-- What an assembly can be told to do. -/
inductive Command where
  | apply (reducer : Nat) (event : Event)
  | next (counter : Nat)
  | current (counter : Nat)
  | get (key : Key)
  | range (stem : Key)
  | keys
  | isEmpty
  | logValue (key : Key)
  | put (draft : Draft)
  | delete (draft : Draft)
  | emit (draft : Draft) (delete : Bool)
  | subscribe (name : String) (pattern : Pattern)
  | poll (name : String)
  | drain (name : String)
  | unsubscribe (name : String)
  | countStreams
  | closeFeed
  | send (name via : String) (event : Event)
  | pollSend (name : String)
  | dropSend (name : String)
  | cloneSender (via name : String)
  | dropSender (via : String)
  | isClosed (via : String)
  | recv
  | dropReceiver
  | run (reducer : Nat)
  | pollRun
  | dropRun
  | cancel
  deriving Repr, DecidableEq

/-- Why a command could not be carried out. -/
inductive Refusal where
  | reducerMoved
  | noStream
  | feedClosed
  | noSend
  | noSender
  | noReceiver
  | cannotRun
  | notRunning
  deriving Repr, DecidableEq

/-- The wording of a refusal. -/
def Refusal.message : Refusal → String
  | .reducerMoved => "reducer was moved into run"
  | .noStream => "no such stream"
  | .feedClosed => "watch closed"
  | .noSend => "no such send"
  | .noSender => "no such sender"
  | .noReceiver => "no receiver"
  | .cannotRun => "cannot run"
  | .notRunning => "not running"

/-- What a command answers. -/
inductive Reply where
  | done
  | refused (refusal : Refusal)
  | crashed (crash : Crash)
  | outcomes (outcomes : List Outcome)
  | revision (revision : Revision)
  | record (record : Option Record)
  | records (records : List Record)
  | keys (keys : List Key)
  | flag (value : Option Bool)
  | count (value : Option Nat)
  | text (value : Option String)
  | change (answer : Stream.Answer)
  | changes (answers : List Stream.Answer)
  | send (answer : Send.Answer)
  | receipt (receipt : Conduit.Receipt)
  | run (status : Run.Status)
  deriving Repr

/-- The effect of a command: its answer, the changes that observed reducers reported, the log, and
    the parts afterwards. -/
structure Effect where
  reply : Reply
  changes : List Change := []
  entries : List LogEntry := []
  after : Assembly

/-! ## Making an assembly -/

/-- The name of the sender that is there from the start. -/
def firstSender : String := "0"

/-- New parts: so many counters, these reducers, and a feed of this capacity. -/
def create (counters : Nat) (reducers : List Reducer) (capacity : Nat) : Except Crash Assembly :=
  (Feed.create capacity).map fun feed =>
    { counters := List.replicate counters {}
      reducers := reducers.map some
      feed
      senders := [firstSender] }

/-! ## Counters and reducers -/

/-- The counter of this number. -/
def counter (a : Assembly) (number : Nat) : Counter := a.counters[number]?.getD {}

/-- What a reducer works on. -/
def ledger (a : Assembly) (reducer : Reducer) : Ledger := ⟨a.counter reducer.counter, a.store⟩

/-- Takes back what a reducer has worked on, and publishes its changes if it is observed. -/
def settle (a : Assembly) (reducer : Reducer) (ledger : Ledger) (changes : List Change) :
    Assembly :=
  { a with
    counters := a.counters.set reducer.counter ledger.counter
    store := ledger.store
    feed := if reducer.observed then a.feed.publishAll changes else a.feed }

/-- The changes that a reducer reports. -/
def reported (reducer : Reducer) (changes : List Change) : List Change :=
  if reducer.observed then changes else []

/-- Lets a reducer apply an event. -/
def applyEvent (a : Assembly) (number : Nat) (event : Event) : Effect :=
  match a.reducers[number]? with
  | some (some reducer) =>
      let (report, ledger) := (a.ledger reducer).apply event
      { reply :=
          match report.crash? with
          | some crash => .crashed crash
          | none => .outcomes report.outcomes
        changes := reported reducer report.changes
        entries := report.entries
        after := a.settle reducer ledger report.changes }
  | _ => ⟨.refused .reducerMoved, [], [], a⟩

/-- Takes a revision from a counter. -/
def takeRevision (a : Assembly) (number : Nat) : Effect :=
  let (revision, counter) := (a.counter number).next
  ⟨.revision revision, [], [], { a with counters := a.counters.set number counter }⟩

/-! ## Writing past the reducers -/

/-- The record under the key that a draft names. -/
def previousOf (a : Assembly) (draft : Draft) : Option Record := draft.previous.bind a.store.get?

/-- Makes the record of a draft. -/
def recordOf (a : Assembly) (draft : Draft) : Except Crash Record :=
  match a.previousOf draft with
  | some previous => Record.modified draft.item previous draft.revision
  | none => .ok (.created draft.item draft.revision)

/-- Stores the record of a draft. -/
def putRecord (a : Assembly) (draft : Draft) : Effect :=
  match a.recordOf draft >>= a.store.put with
  | .ok store => ⟨.done, [], [], { a with store }⟩
  | .error crash => ⟨.crashed crash, [], [], a⟩

/-- Removes the key of the record of a draft. -/
def deleteRecord (a : Assembly) (draft : Draft) : Effect :=
  match a.recordOf draft >>= a.store.delete with
  | .ok (removed, store) => ⟨.record removed, [], [], { a with store }⟩
  | .error crash => ⟨.crashed crash, [], [], a⟩

/-- Publishes a change to the record of a draft: a delete if that is asked for and there is a
    record to delete. -/
def emitChange (a : Assembly) (draft : Draft) (delete : Bool) : Effect :=
  match a.recordOf draft with
  | .ok record =>
      let change : Change :=
        match delete, a.previousOf draft with
        | true, some previous => .delete record previous
        | _, previous => .put record previous
      ⟨.done, [], [], { a with feed := a.feed.publish change }⟩
  | .error crash => ⟨.crashed crash, [], [], a⟩

/-! ## Streams -/

/-- Starts a stream. -/
def subscribe (a : Assembly) (name : String) (pattern : Pattern) : Effect :=
  if a.feed.closed then ⟨.refused .feedClosed, [], [], a⟩
  else ⟨.text (some pattern), [], [], { a with feed := a.feed.subscribe name pattern }⟩

/-- Ends a stream. -/
def unsubscribe (a : Assembly) (name : String) : Effect :=
  ⟨.flag (some (a.feed.stream? name).isSome), [], [],
    { a with feed := a.feed.unsubscribe name }⟩

/-- Polls a stream. -/
def pollStream (a : Assembly) (name : String) : Effect :=
  let (answer, entries, feed) := a.feed.poll name
  { reply :=
      match answer with
      | none => .refused .noStream
      | some (.ok answer) => .change answer
      | some (.error crash) => .crashed crash
    entries
    after := { a with feed } }

/-- Polls a stream until it has nothing more. -/
def drainStream (a : Assembly) (name : String) : Effect :=
  let (answers, entries, feed) := a.feed.drain name
  { reply :=
      match answers with
      | none => .refused .noStream
      | some (.ok answers) => .changes answers
      | some (.error crash) => .crashed crash
    entries
    after := { a with feed } }

/-- The number of streams, as long as the feed is open. -/
def countStreams (a : Assembly) : Option Nat :=
  if a.feed.closed then none else some a.feed.streams.length

/-! ## Senders and sends -/

/-- The ticket of an unfinished send. -/
def ticket? (a : Assembly) (name : String) : Option Ticket :=
  (a.sends.find? fun (n, _) => n = name).map (·.2)

/-- Forgets the name of a send. -/
def forgetSend (a : Assembly) (name : String) : Assembly :=
  { a with sends := a.sends.filter fun (n, _) => n ≠ name }

/-- Drops the send of this name if there is one. -/
def dropSend (a : Assembly) (name : String) : Assembly :=
  match a.ticket? name with
  | some ticket => { a.forgetSend name with conduit := a.conduit.drop ticket }
  | none => a

/-- Polls the send of this name. -/
def pollSend (a : Assembly) (name : String) : Effect :=
  match a.ticket? name with
  | none => ⟨.refused .noSend, [], [], a⟩
  | some ticket =>
      match a.conduit.poll ticket with
      | (some .pending, conduit) => ⟨.send .pending, [], [], { a with conduit }⟩
      | (some answer, conduit) => ⟨.send answer, [], [], { a.forgetSend name with conduit }⟩
      | (none, conduit) => ⟨.refused .noSend, [], [], { a.forgetSend name with conduit }⟩

/-- Starts a send in place of one of its name, and polls it once. -/
def startSend (a : Assembly) (name via : String) (event : Event) : Effect :=
  if via ∈ a.senders then
    let a := a.dropSend name
    let (ticket, conduit) := a.conduit.start event
    { a with conduit, sends := a.sends ++ [(name, ticket)] }.pollSend name
  else ⟨.refused .noSender, [], [], a⟩

/-- Drops the sender of this name if there is one. -/
def dropSender (a : Assembly) (name : String) : Assembly :=
  if name ∈ a.senders then
    { a with senders := a.senders.filter (· ≠ name), conduit := a.conduit.dropSender }
  else a

/-- Makes another sender, in place of one of its name. -/
def cloneSender (a : Assembly) (via name : String) : Effect :=
  if via ∈ a.senders then
    let a := { a with conduit := a.conduit.addSender }.dropSender name
    ⟨.done, [], [], { a with senders := a.senders ++ [name] }⟩
  else ⟨.refused .noSender, [], [], a⟩

/-! ## The receiver and the run -/

/-- A receipt as a reply. The items of an event are asked for their keys. -/
def replyTo : Conduit.Receipt → Reply
  | .event event =>
      if event.items.all fun item => item.key?.isSome then .receipt (.event event)
      else .crashed .keyless
  | receipt => .receipt receipt

/-- Polls the receiver. -/
def pollReceiver (a : Assembly) : Effect :=
  if a.receiver then
    let (receipt, entries, conduit) := a.conduit.recv
    ⟨replyTo receipt, [], entries, { a with conduit }⟩
  else ⟨.refused .noReceiver, [], [], a⟩

/-- Drops the receiver if it is there. -/
def dropReceiver (a : Assembly) : Assembly :=
  if a.receiver then { a with receiver := false, conduit := a.conduit.close } else a

/-- Drops the run if there is one, and the receiver with it. -/
def dropRun (a : Assembly) : Assembly :=
  if a.running.isSome then { a with running := none, conduit := a.conduit.close } else a

/-- Polls the run. A run that has ended is gone. -/
def pollRun (a : Assembly) : Effect :=
  match a.running with
  | none => ⟨.refused .notRunning, [], [], a⟩
  | some (reducer, started) =>
      let p := Run.poll started a.cancelled a.conduit (a.ledger reducer)
      let a := { a.settle reducer p.ledger p.changes with
        conduit := p.conduit
        running := if p.status = .running then some (reducer, true) else none }
      { reply :=
          match p.status with
          | .crashed crash => .crashed crash
          | status => .run status
        changes := reported reducer p.changes
        entries := p.entries
        after := a }

/-- Moves a reducer and the receiver into a run and polls it. If one of them is missing, the other
    one is lost. -/
def startRun (a : Assembly) (number : Nat) : Effect :=
  let without := { a with reducers := a.reducers.set number none }
  match a.reducers[number]?.join, a.receiver with
  | some reducer, true =>
      { without with receiver := false, running := some (reducer, false) }.pollRun
  | _, _ => ⟨.refused .cannotRun, [], [], without.dropReceiver⟩

/-! ## Steps -/

/-- Carries out a command. -/
def step (a : Assembly) : Command → Effect
  | .apply reducer event => a.applyEvent reducer event
  | .next number => a.takeRevision number
  | .current number => ⟨.revision (a.counter number).current, [], [], a⟩
  | .get key => ⟨.record (a.store.get? key), [], [], a⟩
  | .range stem => ⟨.records (a.store.range stem), [], [], a⟩
  | .keys => ⟨.keys a.store.keys, [], [], a⟩
  | .isEmpty => ⟨.flag (some a.store.isEmpty), [], [], a⟩
  | .logValue key => ⟨.text ((a.store.get? key).map (·.item.logValue)), [], [], a⟩
  | .put draft => a.putRecord draft
  | .delete draft => a.deleteRecord draft
  | .emit draft delete => a.emitChange draft delete
  | .subscribe name pattern => a.subscribe name pattern
  | .poll name => a.pollStream name
  | .drain name => a.drainStream name
  | .unsubscribe name => a.unsubscribe name
  | .countStreams => ⟨.count a.countStreams, [], [], a⟩
  | .closeFeed => ⟨.flag (some !a.feed.closed), [], [], { a with feed := a.feed.close }⟩
  | .send name via event => a.startSend name via event
  | .pollSend name => a.pollSend name
  | .dropSend name => ⟨.flag (some (a.ticket? name).isSome), [], [], a.dropSend name⟩
  | .cloneSender via name => a.cloneSender via name
  | .dropSender via => ⟨.flag (some (via ∈ a.senders)), [], [], a.dropSender via⟩
  | .isClosed via =>
      ⟨.flag (if via ∈ a.senders then some a.conduit.closed else none), [], [], a⟩
  | .recv => a.pollReceiver
  | .dropReceiver => ⟨.flag (some a.receiver), [], [], a.dropReceiver⟩
  | .run number => a.startRun number
  | .pollRun => a.pollRun
  | .dropRun => ⟨.flag (some a.running.isSome), [], [], a.dropRun⟩
  | .cancel => ⟨.done, [], [], { a with cancelled := true }⟩

end Assembly

end KeyRelay
