import KeyRelay.Adapter.Basic

set_option autoImplicit false

/-! # The lifecycle of an adapter

The first poll of a call of `serve` claims the receiver and publishes that the adapter serves, in
one step; a call that finds the slot empty is refused. The listener ends once it was told to stop
and its last connection is gone, or by an error. Then the worker is told to stop, and when it has
ended, the adapter is stopped and the call has its result.

A call of `shutdown` asks for the stop. If nobody has claimed the receiver yet, the adapter is
stopped at once; else the call waits for the stop until its time is over. -/

namespace KeyRelay.Adapter

/-! ## Serving -/

/-- What a call of `serve` returns: the error of its listener, else that of its worker. The number
    that the runtime has given to the worker's task, which stands between `task` and `panicked` in
    the text of the worker's error, is left out. -/
def resultOf (listener : Except Fault Unit) (worker : Run.Status) : Except Fault Unit :=
  match listener, worker with
  | .error fault, _ => .error fault
  | .ok _, .crashed crash =>
      .error (.internal
        ("event reducer failed: task panicked with message " ++ Text.literal crash.message))
  | .ok _, _ => .ok ()

/-- What is noted of a result: a fatal fault. -/
def resultEntries : Except Fault Unit → List LogEntry
  | .error fault => if fault.isFatal then [.failed fault] else []
  | .ok _ => []

/-- A call whose listener has ended waits for the worker; with the worker's end it publishes the
    stop and has its result. -/
def join (a : Adapter) (number : Nat) (listener : Except Fault Unit) : Adapter × List LogEntry :=
  match a.worker with
  | some ⟨_, _, .running⟩ => (a.moveServe number (.joining listener), [])
  | worker =>
      let result := resultOf listener ((worker.map (·.status)).getD .stopped)
      ({ a with phase := .stopped }.moveServe number (.finished result), resultEntries result)

/-- Tells a worker to stop. -/
def Worker.stop (w : Worker) : Worker := { w with stopping := true }

/-- The end of the listener: the worker is told to stop. -/
def leave (a : Adapter) (number : Nat) (listener : Except Fault Unit) : Adapter × List LogEntry :=
  let a := { a with worker := a.worker.map Worker.stop }
  let (a, entries) := a.join number listener
  (a, .stoppedServing :: entries)

/-- The first poll of a call of `serve`. -/
def claim (a : Adapter) (number : Nat) : Adapter × List LogEntry :=
  if a.receiver then
    ({ a with receiver := false, phase := .serving, worker := some {} }.moveServe number
      (.listening false 0), [.serving])
  else (a.moveServe number (.finished (.error .alreadyServing)), [])

/-- Polls a call of `serve`. -/
def pollServe (a : Adapter) (number : Nat) : Adapter × List LogEntry :=
  match a.serve? number with
  | some ⟨_, some error, .fresh⟩ => (a.moveServe number (.finished (.error (.io error))), [])
  | some ⟨_, none, .fresh⟩ => a.claim number
  | some ⟨_, _, .listening true 0⟩ => a.leave number (.ok ())
  | some ⟨_, _, .joining listener⟩ => a.join number listener
  | _ => (a, [])

/-- Polls the signal of a call of `serve`: it tells the listener to stop once the call was
    cancelled or a shutdown was asked for. -/
def pollSignal (a : Adapter) (number : Nat) : Adapter :=
  match a.serve? number with
  | some ⟨cancelled, _, .listening false connections⟩ =>
      if cancelled || a.stopping then a.moveServe number (.listening true connections) else a
  | _ => a

/-- A client connects, if the listener was not told to stop. -/
def connect (a : Adapter) (number : Nat) : Adapter :=
  match a.serve? number with
  | some ⟨_, _, .listening false connections⟩ =>
      a.moveServe number (.listening false (connections + 1))
  | _ => a

/-- The last request of a connection is answered. -/
def disconnect (a : Adapter) (number : Nat) : Adapter :=
  match a.serve? number with
  | some ⟨_, _, .listening signalled (connections + 1)⟩ =>
      a.moveServe number (.listening signalled connections)
  | _ => a

/-- The listener of a call fails. -/
def failListener (a : Adapter) (number : Nat) (error : Net.SystemError) :
    Adapter × List LogEntry :=
  match a.serve? number with
  | some ⟨_, _, .listening _ _⟩ => a.leave number (.error (.io error))
  | _ => (a, [])

/-- Cancels a call of `serve`. -/
def cancelServe (a : Adapter) (number : Nat) : Adapter :=
  match a.serve? number with
  | some serve => a.setServe number { serve with cancelled := true }
  | none => a

/-! ## Reducing -/

/-- Polls the worker. Its changes are published. -/
def pollWorker (a : Adapter) : Adapter × List LogEntry :=
  match a.worker with
  | some ⟨started, stopping, .running⟩ =>
      let p := Run.poll started stopping a.conduit a.ledger
      ({ a with
          ledger := p.ledger
          conduit := p.conduit
          feed := a.feed.publishAll p.changes
          worker := some ⟨true, stopping, p.status⟩ }, p.entries)
  | _ => (a, [])

/-! ## Shutting down -/

/-- A call of `shutdown` waits for the stop; `expired` once its time is over. -/
def await (a : Adapter) (number : Nat) (limit : Text.Duration) (expired : Bool) : Adapter :=
  if a.phase = .stopped then a.moveShutdown number (.finished (.ok ()))
  else if expired then a.moveShutdown number (.finished (.error (.shutdownTimeout limit)))
  else a.moveShutdown number .waiting

/-- Polls a call of `shutdown`. Its first poll asks for the stop. -/
def pollShutdown (a : Adapter) (number : Nat) (expired : Bool) : Adapter :=
  match a.shutdown? number with
  | some ⟨limit, .fresh⟩ =>
      let a := { a with stopping := true }
      if a.phase = .idle ∧ a.receiver then
        { a with phase := .stopped }.moveShutdown number (.finished (.ok ()))
      else a.await number limit expired
  | some ⟨limit, .waiting⟩ => a.await number limit expired
  | _ => a

/-! ## Moves -/

/-- An atomic step of one of the calls, tasks, producers or clients of an adapter. -/
inductive Move where
  | callServe (addressError : Option Net.SystemError)
  | cancelServe (serve : Nat)
  | pollServe (serve : Nat)
  | pollSignal (serve : Nat)
  | connect (serve : Nat)
  | disconnect (serve : Nat)
  | failListener (serve : Nat) (error : Net.SystemError)
  | pollWorker
  | callShutdown (limit : Text.Duration)
  | pollShutdown (call : Nat) (expired : Bool)
  | addSender
  | dropSender
  | startSend (event : Event)
  | pollSend (ticket : Ticket)
  | dropSend (ticket : Ticket)
  deriving Repr, DecidableEq

/-- The adapter after a move, and what was noted. -/
def step (a : Adapter) : Move → Adapter × List LogEntry
  | .callServe addressError => ({ a with serves := a.serves ++ [{ addressError }] }, [])
  | .cancelServe serve => (a.cancelServe serve, [])
  | .pollServe serve => a.pollServe serve
  | .pollSignal serve => (a.pollSignal serve, [])
  | .connect serve => (a.connect serve, [])
  | .disconnect serve => (a.disconnect serve, [])
  | .failListener serve error => a.failListener serve error
  | .pollWorker => a.pollWorker
  | .callShutdown limit => ({ a with shutdowns := a.shutdowns ++ [{ limit }] }, [])
  | .pollShutdown call expired => (a.pollShutdown call expired, [])
  | .addSender => ({ a with conduit := a.conduit.addSender }, [])
  | .dropSender => ({ a with conduit := a.conduit.dropSender }, [])
  | .startSend event => ({ a with conduit := (a.conduit.start event).2 }, [])
  | .pollSend ticket => ({ a with conduit := (a.conduit.poll ticket).2 }, [])
  | .dropSend ticket => ({ a with conduit := a.conduit.drop ticket }, [])

end KeyRelay.Adapter
