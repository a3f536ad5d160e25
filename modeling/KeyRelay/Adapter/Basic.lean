import KeyRelay.Feed
import KeyRelay.Options
import KeyRelay.Run

set_option autoImplicit false

/-! # The adapter

An adapter owns a counter, a store, a feed and a conduit. Its conduit's receiver stays in a slot
until a call of `serve` claims it; that call then answers requests and lets a worker reduce events
until it is told to stop. Calls are futures: a call does something only when it is polled, and each
poll is one step. The worker, and the signal that tells the listener to stop, are tasks of their
own. -/

namespace KeyRelay

/-- What an adapter tells those who wait for its end. -/
inductive Adapter.Phase where
  | idle
  | serving
  | stopped
  deriving Repr, DecidableEq

/-- How far a call of `serve` has come. -/
inductive Adapter.Serve.Stage where
  /-- It has not been polled yet. -/
  | fresh
  /-- It has claimed the receiver and answers requests, with so many connections under way;
      `signalled` once the listener was told to stop. -/
  | listening (signalled : Bool) (connections : Nat)
  /-- The listener has ended like this, and the worker was told to stop. -/
  | joining (listener : Except Fault Unit)
  | finished (result : Except Fault Unit)
  deriving Repr, DecidableEq

/-- A call of `serve`. -/
structure Adapter.Serve where
  /-- Its own cancellation has fired. -/
  cancelled : Bool := false
  /-- The error, if any, that its listener has instead of an address. -/
  addressError : Option Net.SystemError := none
  stage : Adapter.Serve.Stage := .fresh
  deriving Repr, DecidableEq

/-- The task that reduces events. -/
structure Adapter.Worker where
  started : Bool := false
  /-- It was told to stop. -/
  stopping : Bool := false
  status : Run.Status := .running
  deriving Repr, DecidableEq

/-- How far a call of `shutdown` has come. -/
inductive Adapter.Shutdown.Stage where
  | fresh
  | waiting
  | finished (result : Except Fault Unit)
  deriving Repr, DecidableEq

/-- A call of `shutdown`, with the time it may take. -/
structure Adapter.Shutdown where
  limit : Text.Duration
  stage : Adapter.Shutdown.Stage := .fresh
  deriving Repr, DecidableEq

/-- An adapter and the calls on it. -/
structure Adapter where
  options : Options
  ledger : Ledger := {}
  feed : Feed
  conduit : Conduit := {}
  /-- The receiver is in its slot. -/
  receiver : Bool := true
  phase : Adapter.Phase := .idle
  /-- A shutdown was asked for. -/
  stopping : Bool := false
  /-- The calls of `serve`, in order. -/
  serves : List Adapter.Serve := []
  /-- The worker of the call that has claimed the receiver. -/
  worker : Option Adapter.Worker := none
  /-- The calls of `shutdown`, in order. -/
  shutdowns : List Adapter.Shutdown := []
  deriving Repr, DecidableEq

namespace Adapter

/-- A new adapter. -/
def create (options : Options) : Except Crash Adapter :=
  (Feed.create options.watchCapacity).map fun feed => { options, feed }

/-- The call of `serve` of this number. -/
def serve? (a : Adapter) (number : Nat) : Option Serve := a.serves[number]?

/-- Replaces the call of `serve` of this number. -/
def setServe (a : Adapter) (number : Nat) (serve : Serve) : Adapter :=
  { a with serves := a.serves.set number serve }

/-- Moves a call of `serve` to another stage. -/
def moveServe (a : Adapter) (number : Nat) (stage : Serve.Stage) : Adapter :=
  match a.serve? number with
  | some serve => a.setServe number { serve with stage }
  | none => a

/-- The call of `shutdown` of this number. -/
def shutdown? (a : Adapter) (number : Nat) : Option Shutdown := a.shutdowns[number]?

/-- Moves a call of `shutdown` to another stage. -/
def moveShutdown (a : Adapter) (number : Nat) (stage : Shutdown.Stage) : Adapter :=
  match a.shutdown? number with
  | some call => { a with shutdowns := a.shutdowns.set number { call with stage } }
  | none => a

/-- The result of a finished call of `serve`. -/
def serveResult? (a : Adapter) (number : Nat) : Option (Except Fault Unit) :=
  match a.serve? number with
  | some ⟨_, _, .finished result⟩ => some result
  | _ => none

/-- The result of a finished call of `shutdown`. -/
def shutdownResult? (a : Adapter) (number : Nat) : Option (Except Fault Unit) :=
  match a.shutdown? number with
  | some ⟨_, .finished result⟩ => some result
  | _ => none

end Adapter

end KeyRelay
