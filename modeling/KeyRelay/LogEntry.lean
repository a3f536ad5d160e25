import KeyRelay.Counter
import KeyRelay.Event
import KeyRelay.Fault

set_option autoImplicit false

/-! # Log entries

What the parts of the program note while they work. An entry either opens a span, which has a
name, or is a message with a level; both carry fields.

Two fields are left out, as they are no part of what the program decides: `addr`, the listener's
address, of the three messages on serving, and `latency`, the time that a request took, of the
message on its end. -/

namespace KeyRelay

/-- How much an entry matters. -/
inductive LogLevel where
  | debug
  | info
  | warn
  | error
  deriving Repr, DecidableEq

/-- The name of a level. -/
def LogLevel.name : LogLevel → String
  | .debug => "DEBUG"
  | .info => "INFO"
  | .warn => "WARN"
  | .error => "ERROR"

/-- Something worth noting. -/
inductive LogEntry where
  /-- The items of an event are about to be applied. -/
  | applying (kind : EventKind) (items : Nat)
  /-- An item was accepted under a key and has changed an object that was created at one revision,
      at another. What the item holds is shown unless it was deleted. -/
  | applied (kind : EventKind) (key : Key) (createRevision modifyRevision : Revision)
    (shown? : Option Item)
  /-- An update or a delete found no object to work on. -/
  | ignored (kind : EventKind) (key : Key) (revision : Revision)
  | reducerStarted
  /-- The reducer has stopped, with the counter at this revision. -/
  | reducerStopped (current : Revision)
  /-- No producer is left. -/
  | producersGone
  /-- The producer of an event had given up before the event was taken. -/
  | abandoned (items : Nat)
  /-- A watch stream fell behind and has lost changes. -/
  | lagged (pattern : String) (skipped : Nat)
  /-- A listener's requests are about to be answered. The field `addr` is left out. -/
  | serving
  /-- The listener has ended. The field `addr` is left out. -/
  | stoppedServing
  /-- Serving ended with a fatal fault. The field `addr` is left out. -/
  | failed (fault : Fault)
  /-- A request came in. -/
  | requested (method uri : String)
  | requestStarted
  /-- A request was answered. The field `latency` is left out. -/
  | requestFinished (status : Nat)
  deriving Repr, DecidableEq

/-- The head of an entry. -/
inductive LogEntry.Head where
  | span (name : String)
  | message (level : LogLevel) (text : String)
  deriving Repr, DecidableEq

namespace LogEntry

/-- The head of an entry: a span, or a level and a message. -/
def head : LogEntry → Head
  | .applying _ _ => .span "apply_event"
  | .applied kind _ _ _ _ => .message .debug (kind.verb ++ " event received")
  | .ignored kind _ _ =>
      .message .warn
        ("ignore " ++ kind.verb ++ " event as object is not found from the cache")
  | .reducerStarted => .message .debug "event reducer started"
  | .reducerStopped _ => .message .debug "event reducer stopped"
  | .producersGone => .message .debug "all event producers dropped"
  | .abandoned _ => .message .debug "producer abandoned event before hand-off"
  | .lagged _ _ => .message .warn "watch stream lagged, events dropped"
  | .serving => .message .info "etcd adapter serving"
  | .stoppedServing => .message .info "etcd adapter stopped serving"
  | .failed _ => .message .error "etcd adapter failed"
  | .requested _ _ => .span "request"
  | .requestStarted => .message .debug "started processing request"
  | .requestFinished _ => .message .debug "finished processing request"

/-- A field with a whole number. -/
def numberField (name : String) (value : Int) : String × Json := (name, .number (.whole value))

/-- The field with what an item holds. -/
def valueField (item : Item) : String × Json := ("value", .string item.logValue)

/-- The fields of an entry. -/
def fields : LogEntry → List (String × Json)
  | .applying kind items => [("event_type", .string kind.name), numberField "items" items]
  | .applied _ key createRevision modifyRevision shown? =>
      [("key", .string key), numberField "create_revision" createRevision,
        numberField "modify_revision" modifyRevision] ++ shown?.toList.map valueField
  | .ignored _ key revision => [("key", .string key), numberField "revision" revision]
  | .reducerStopped current => [numberField "revision" current]
  | .abandoned items => [numberField "items" items]
  | .lagged pattern skipped => [("pattern", .string pattern), numberField "skipped" skipped]
  | .failed fault => [("error", .string fault.detailed)]
  | .requested method uri =>
      [("method", .string method), ("uri", .string uri), ("version", .string "HTTP/1.1")]
  | .requestFinished status => [numberField "status" status]
  | .reducerStarted | .producersGone | .serving | .stoppedServing | .requestStarted => []

end LogEntry

end KeyRelay
