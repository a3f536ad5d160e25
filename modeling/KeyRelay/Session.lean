import KeyRelay.Adapter.Lifecycle
import KeyRelay.Http.Router

set_option autoImplicit false

/-! # Sessions with an adapter

A session gives commands to an adapter. Between commands everything that can move moves: calls and
sends are polled in order, then the worker and the signals, round after round until nothing is
left to do. What has finished meanwhile is reported in that order.

A session sees all that is noted if the surroundings have a logger. Else it sees what the
adapter's own calls, tasks and requests note, if the adapter was given a logger. Whether clients
reach the listener is a matter of the network, which a session is given. -/

namespace KeyRelay

/-- An adapter, the sends by name, and the surroundings. -/
structure Session where
  adapter : Adapter
  /-- The unfinished sends, oldest first, with their names. Several may have one name. -/
  sends : List (String × Ticket) := []
  /-- The surroundings have a logger. -/
  logging : Bool
  /-- Clients reach a listener. -/
  reachable : Bool
  deriving Repr, DecidableEq

namespace Session

/-! ## Letting everything move -/

/-- Something that has finished. -/
inductive Finished where
  | serve (number : Nat) (result : Except Fault Unit)
  | send (name : String) (result : Except Fault Unit)
  deriving Repr, DecidableEq

/-- A session after a while: what has finished, and what was noted. -/
structure Progress where
  session : Session
  finished : List Finished := []
  entries : List LogEntry := []

/-- Goes on after a while. -/
def Progress.andThen (p : Progress) (f : Session → Progress) : Progress :=
  let q := f p.session
  ⟨q.session, p.finished ++ q.finished, p.entries ++ q.entries⟩

/-- Goes on once for each member of a list. -/
def Progress.each {α : Type} (p : Progress) (f : α → Session → Progress) (members : List α) :
    Progress :=
  members.foldl (fun p member => p.andThen (f member)) p

/-- Polls an unfinished call of `serve`. -/
def pollServe (number : Nat) (s : Session) : Progress :=
  match s.adapter.serveResult? number with
  | some _ => { session := s }
  | none =>
      let (adapter, entries) := s.adapter.pollServe number
      let finished := (adapter.serveResult? number).toList.map (.serve number)
      { session := { s with adapter }, finished, entries }

/-- The tickets of the unfinished sends of a name. -/
def tickets (s : Session) (name : String) : List Ticket :=
  (s.sends.filter fun (n, _) => n = name).map (·.2)

/-- Forgets a send. -/
def forgetSend (s : Session) (ticket : Ticket) : Session :=
  { s with sends := s.sends.filter fun (_, t) => t ≠ ticket }

/-- Another conduit. -/
def withConduit (s : Session) (conduit : Conduit) : Session :=
  { s with adapter := { s.adapter with conduit } }

/-- Polls an unfinished send. -/
def pollSend (send : String × Ticket) (s : Session) : Progress :=
  let (name, ticket) := send
  let (answer, conduit) := s.adapter.conduit.poll ticket
  let s := s.withConduit conduit
  match answer.bind (·.result?) with
  | some result => { session := s.forgetSend ticket, finished := [.send name result] }
  | none => { session := s }

/-- Polls the worker. -/
def pollWorker (s : Session) : Progress :=
  let (adapter, entries) := s.adapter.pollWorker
  { session := { s with adapter }, entries }

/-- The numbers of the calls of `serve`. -/
def serveNumbers (s : Session) : List Nat := List.range s.adapter.serves.length

/-- Polls the signals. -/
def pollSignals (s : Session) : Progress :=
  { session := { s with adapter := s.serveNumbers.foldl Adapter.pollSignal s.adapter } }

/-- Lets everything move once. -/
def round (s : Session) : Progress :=
  let start : Progress := { session := s }
  let polled := (start.each pollServe s.serveNumbers).each pollSend s.sends
  (polled.andThen pollWorker).andThen pollSignals

/-- So many rounds. -/
def rounds : Nat → Session → Progress
  | 0, s => { session := s }
  | n + 1, s => s.round.andThen (rounds n)

/-- Rounds after which nothing moves any more: two for each send, and those in which a call claims
    the receiver, hears the signal, tells the worker and sees its end. -/
def enough (s : Session) : Nat := 2 * s.sends.length + s.adapter.serves.length + 6

/-- Lets everything move until nothing is left to do. -/
def settle (s : Session) : Progress := rounds s.enough s

/-! ## Commands -/

/-- What an adapter can be told to do. -/
inductive Command where
  | serve (cancelled : Bool)
  | cancel (serve : Nat)
  /-- Shuts down; the calls and sends go on meanwhile if it is driven. -/
  | shutdown (limit : Text.Duration) (driven : Bool)
  | send (name : String) (event : Event)
  /-- Drops all sends of a name. -/
  | dropSend (name : String)
  | isClosed
  | watch (name : String) (pattern : Pattern)
  | poll (name : String)
  | drain (name : String)
  | get (key : Key)
  | range (stem : Key)
  | settle
  /-- Sends a request to the listener of the first call of `serve`. -/
  | request (method path : String)
  /-- Binds an address that is bound already. -/
  | bindTaken (address : Net.Address)
  deriving Repr, DecidableEq

/-- What a command answers. -/
inductive Reply where
  | done
  | fault (fault : Fault)
  | flag (value : Bool)
  | pattern (pattern : Pattern)
  | change (answer : Stream.Answer)
  | changes (answers : List Stream.Answer)
  | record (record : Option Record)
  | records (records : List Record)
  | response (response : Http.Response)
  | noStream
  | neverServed
  | noConnection
  | crashed (crash : Crash)
  deriving Repr

/-- A session with an adapter with these options. -/
def create (options : Options) (logging reachable : Bool) : Except Crash Session :=
  (Adapter.create options).map fun adapter => { adapter, logging, reachable }

/-- The reply that goes with a result. -/
def replyOf : Except Fault Unit → Reply
  | .ok _ => .done
  | .error fault => .fault fault

/-- Calls `serve`. -/
def callServe (s : Session) (cancelled : Bool) : Session :=
  let (adapter, _) := s.adapter.step (.callServe none)
  let number := s.adapter.serves.length
  { s with adapter := if cancelled then adapter.cancelServe number else adapter }

/-- Calls `shutdown` and lets it finish or run out of time. -/
def shutdown (s : Session) (limit : Text.Duration) (driven : Bool) : Reply × Progress :=
  let number := s.adapter.shutdowns.length
  let (adapter, _) := s.adapter.step (.callShutdown limit)
  let s := { s with adapter := adapter.pollShutdown number false }
  let p := if driven then s.settle else { session := s }
  let adapter := p.session.adapter.pollShutdown number true
  let reply := ((adapter.shutdownResult? number).map replyOf).getD .done
  (reply, { p with session := { p.session with adapter } }.andThen settle)

/-- Drops a send. -/
def dropSend (s : Session) (ticket : Ticket) : Session :=
  (s.forgetSend ticket).withConduit (s.adapter.conduit.drop ticket)

/-- Drops all sends of a name. -/
def dropSends (s : Session) (name : String) : Session := (s.tickets name).foldl dropSend s

/-- Starts a send. -/
def startSend (s : Session) (name : String) (event : Event) : Session :=
  let (ticket, conduit) := s.adapter.conduit.start event
  let s := s.withConduit conduit
  { s with sends := s.sends ++ [(name, ticket)] }

/-- Another feed. -/
def withFeed (s : Session) (feed : Feed) : Session := { s with adapter := { s.adapter with feed } }

/-- Sends a request to the listener of the first call of `serve`. The connection is not kept. -/
def request (s : Session) (r : Http.Request) : Reply × List LogEntry :=
  match s.adapter.serves with
  | [] => (.neverServed, [])
  | ⟨_, _, .listening false _⟩ :: _ =>
      if s.reachable then
        let response := Http.respond r
        let headers := response.headers ++ [("connection", "close")]
        (.response { response with headers }, Http.entries r)
      else (.noConnection, [])
  | _ => (.noConnection, [])

/-- The effect of a command: its reply, what has finished, the log as far as it is seen, and the
    session afterwards. -/
structure Effect where
  reply : Reply
  finished : List Finished := []
  entries : List LogEntry := []
  after : Session

/-- The effect of a command after which everything moves. -/
def Effect.of (reply : Reply) (p : Progress) : Effect :=
  { reply
    finished := p.finished
    entries := if p.session.logging || p.session.adapter.options.logger then p.entries else []
    after := p.session }

/-- The effect of reading a stream, whose notes are not the adapter's own. -/
def Effect.ofReading (reply : Reply) (entries : List LogEntry) (s : Session) : Effect :=
  { reply, entries := if s.logging then entries else [], after := s }

/-- Carries out a command. -/
def step (s : Session) : Command → Effect
  | .serve cancelled => .of .done (s.callServe cancelled).settle
  | .cancel number =>
      .of .done { s with adapter := s.adapter.cancelServe number }.settle
  | .shutdown limit driven =>
      let (reply, p) := s.shutdown limit driven
      .of reply p
  | .send name event => .of .done (s.startSend name event).settle
  | .dropSend name => .of (.flag !(s.tickets name).isEmpty) (s.dropSends name).settle
  | .isClosed => .of (.flag s.adapter.conduit.closed) s.settle
  | .watch name pattern =>
      .of (.pattern pattern) (s.withFeed (s.adapter.feed.subscribe name pattern)).settle
  | .poll name =>
      let (answer, entries, feed) := s.adapter.feed.poll name
      let reply :=
        match answer with
        | none => .noStream
        | some (.ok answer) => .change answer
        | some (.error crash) => .crashed crash
      .ofReading reply entries (s.withFeed feed)
  | .drain name =>
      let (answers, entries, feed) := s.adapter.feed.drain name
      let reply :=
        match answers with
        | none => .noStream
        | some (.ok answers) => .changes answers
        | some (.error crash) => .crashed crash
      .ofReading reply entries (s.withFeed feed)
  | .get key => .of (.record (s.adapter.ledger.store.get? key)) s.settle
  | .range stem => .of (.records (s.adapter.ledger.store.range stem)) s.settle
  | .settle => .of .done s.settle
  | .request method path =>
      let (reply, entries) := s.request ⟨method, path⟩
      .of reply (Progress.andThen { session := s, entries } settle)
  | .bindTaken address => .of (.fault (.bind address (.numbered 98))) s.settle

end Session

end KeyRelay
