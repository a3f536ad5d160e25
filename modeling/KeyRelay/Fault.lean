import KeyRelay.Http.Message
import KeyRelay.Net.Address
import KeyRelay.Net.SystemError
import KeyRelay.Text.Duration
import KeyRelay.Text.Literal

set_option autoImplicit false

/-! # Faults and crashes

A fault is an answer: an operation of the conduit, of the listener or of the adapter's lifecycle
says what went wrong, and the program goes on. A crash ends the step in which it happens; what the
step had done before stays done. -/

namespace KeyRelay

/-! ## Faults -/

/-- What can go wrong while feeding or serving the adapter. -/
inductive Fault where
  /-- The other end of the conduit is gone. -/
  | channelClosed
  /-- The adapter serves already, or has served. -/
  | alreadyServing
  /-- The listener's address could not be bound. -/
  | bind (address : Net.Address) (cause : Net.SystemError)
  /-- The shutdown did not finish within the time it was given. -/
  | shutdownTimeout (limit : Text.Duration)
  /-- An item could not be encoded, or a text not be read. -/
  | serialization (reason : String)
  /-- An unexpected condition; the detail is for the log only. -/
  | internal (detail : String)
  /-- An input or output error while serving. -/
  | io (cause : Net.SystemError)
  deriving Repr, DecidableEq

namespace Fault

/-- The short name of a fault. -/
def name : Fault → String
  | .channelClosed => "ChannelClosed"
  | .alreadyServing => "AlreadyServing"
  | .bind _ _ => "Bind"
  | .shutdownTimeout _ => "ShutdownTimeout"
  | .serialization _ => "Serialization"
  | .internal _ => "Internal"
  | .io _ => "Io"

/-- The wording of a fault. The detail of an internal fault is not part of it. -/
def message : Fault → String
  | .channelClosed => "event channel closed"
  | .alreadyServing => "adapter is already serving"
  | .bind address cause => "failed to bind " ++ address.render ++ ": " ++ cause.message
  | .shutdownTimeout limit => "shutdown did not complete within " ++ limit.render
  | .serialization reason => "serialization error: " ++ reason
  | .internal _ => "internal error"
  | .io cause => "io error: " ++ cause.message

/-- A fault as the log shows it, with its detail and with all that is known of the system's error
    behind it. -/
def detailed : Fault → String
  | .channelClosed => "ChannelClosed"
  | .alreadyServing => "AlreadyServing"
  | .internal detail => "Internal(" ++ Text.literal detail ++ ")"
  | .serialization reason => "Serialization(" ++ Text.literal reason ++ ")"
  | .shutdownTimeout limit => "ShutdownTimeout(" ++ limit.render ++ ")"
  | .bind address cause =>
      Text.fielded "Bind" [("addr", address.render), ("source", cause.detailed)]
  | .io cause => "Io(" ++ cause.detailed ++ ")"

/-- The adapter cannot go on after this fault. -/
def isFatal : Fault → Bool
  | .bind _ _ | .io _ | .internal _ => true
  | _ => false

/-- The status that clients of the protocol are given. -/
def status : Fault → Nat
  | .channelClosed | .alreadyServing | .shutdownTimeout _ => 503
  | _ => 500

/-- The system's error behind a fault. -/
def cause? : Fault → Option Net.SystemError
  | .bind _ cause | .io cause => some cause
  | _ => none

/-- The response that clients are given: only a temporary fault is told in its own words. -/
def response (f : Fault) : Http.Response :=
  { status := f.status
    headers := [("content-type", "text/plain; charset=utf-8")]
    body := if f.status = 500 then "internal error" else f.message }

/-- How calls ended can be compared. -/
instance decEqResult : DecidableEq (Except Fault Unit)
  | .ok (), .ok () => isTrue rfl
  | .error a, .error b =>
      if h : a = b then isTrue (by rw [h]) else isFalse fun e => h (by injection e)
  | .ok _, .error _ | .error _, .ok _ => isFalse (by simp)

end Fault

/-! ## Crashes -/

/-- Why a step broke off. -/
inductive Crash where
  /-- An item was asked for its key and has none. -/
  | keyless
  /-- A new version would be older than the object it belongs to. -/
  | revisionRegressed
  /-- A watch buffer without a place in it. -/
  | noCapacity
  /-- A watch buffer with more places than half the address range has bytes. -/
  | hugeCapacity
  /-- A watch buffer whose places take more bytes than half the address range has. -/
  | noAddressSpace
  deriving Repr, DecidableEq

/-- The wording of a crash. -/
def Crash.message : Crash → String
  | .keyless => "item has no key"
  | .revisionRegressed => "assertion failed: revision >= previous.create_revision"
  | .noCapacity => "broadcast channel capacity cannot be zero"
  | .hugeCapacity => "broadcast channel capacity exceeded `usize::MAX / 2`"
  | .noAddressSpace => "capacity overflow"

end KeyRelay
