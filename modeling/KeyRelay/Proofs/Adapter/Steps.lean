import Mathlib.Tactic.Common
import KeyRelay.Adapter.Lifecycle
import KeyRelay.Proofs.Conduit.Handover

set_option autoImplicit false

/-! # What a move of an adapter can be

`Adapter.Stepping` lists everything that a move can do to an adapter, with the state in which it
does so: a call of `serve` is refused, claims the receiver, hears the signal, loses its listener
and joins its worker; a call of `shutdown` is granted at once or waits; the worker is polled; a
producer acts. All that is known of the runs of an adapter rests on this list. -/

namespace KeyRelay

namespace Adapter

/-! ## Finding a call -/

variable {a : Adapter} {n : Nat} {s : Serve}

theorem serve?_setServe {old : Serve} (hs : a.serve? n = some old) (s : Serve) (m : Nat) :
    (a.setServe n s).serve? m = if m = n then some s else a.serve? m := by
  obtain ⟨hn, -⟩ := List.getElem?_eq_some_iff.1 hs
  simp only [serve?, setServe, List.getElem?_set]
  by_cases h : n = m
  · subst h
    simp [hn]
  · rw [if_neg h, if_neg (Ne.symm h)]

theorem moveServe_of_serve? (hs : a.serve? n = some s) (stage : Serve.Stage) :
    a.moveServe n stage = a.setServe n { s with stage } := by
  simp only [moveServe, hs]

/-- Replaces the call of `shutdown` of this number. -/
def setShutdown (a : Adapter) (number : Nat) (call : Shutdown) : Adapter :=
  { a with shutdowns := a.shutdowns.set number call }

theorem shutdown?_setShutdown {old : Shutdown} {i : Nat} (hcall : a.shutdown? i = some old)
    (call : Shutdown) (j : Nat) :
    (a.setShutdown i call).shutdown? j = if j = i then some call else a.shutdown? j := by
  obtain ⟨hi, -⟩ := List.getElem?_eq_some_iff.1 hcall
  simp only [shutdown?, setShutdown, List.getElem?_set]
  by_cases h : i = j
  · subst h
    simp [hi]
  · rw [if_neg h, if_neg (Ne.symm h)]

theorem moveShutdown_of_shutdown? {call : Shutdown} {i : Nat} (hcall : a.shutdown? i = some call)
    (stage : Shutdown.Stage) : a.moveShutdown i stage = a.setShutdown i { call with stage } := by
  simp only [moveShutdown, hcall, setShutdown]

theorem serveResult?_eq_some_iff {result : Except Fault Unit} :
    a.serveResult? n = some result ↔ ∃ s, a.serve? n = some s ∧ s.stage = .finished result := by
  unfold serveResult?
  constructor
  · intro h
    split at h
    · next cancelled error found hs =>
        obtain rfl := Option.some.inj h
        exact ⟨_, hs, rfl⟩
    · simp at h
  · rintro ⟨⟨cancelled, error, stage⟩, hs, rfl⟩
    rw [hs]

theorem shutdownResult?_eq_some_iff {i : Nat} {result : Except Fault Unit} :
    a.shutdownResult? i = some result
      ↔ ∃ call, a.shutdown? i = some call ∧ call.stage = .finished result := by
  unfold shutdownResult?
  constructor
  · intro h
    split at h
    · next limit found hcall =>
        obtain rfl := Option.some.inj h
        exact ⟨_, hcall, rfl⟩
    · simp at h
  · rintro ⟨⟨limit, stage⟩, hcall, rfl⟩
    rw [hcall]

/-! ## The end of a call of `serve` -/

/-- How the worker has ended. -/
def ending (a : Adapter) : Run.Status := (a.worker.map (·.status)).getD .stopped

theorem join_of_running {w : Worker} (hw : a.worker = some w) (hrunning : w.status = .running)
    (n : Nat) (listener : Except Fault Unit) :
    a.join n listener = (a.moveServe n (.joining listener), []) := by
  obtain ⟨started, stopping, status⟩ := w
  obtain rfl : status = .running := hrunning
  simp only [join, hw]

theorem join_of_ended (hended : a.worker.map (·.status) ≠ some .running) (n : Nat)
    (listener : Except Fault Unit) :
    a.join n listener = ({ a with phase := .stopped }.moveServe n
      (.finished (resultOf listener a.ending)), resultEntries (resultOf listener a.ending)) := by
  unfold join
  split
  · next hw => exact absurd (by rw [hw]; rfl) hended
  · rfl

/-! ## The list of all moves -/

/-- The move of a producer. -/
def Move.act? : Move → Option Conduit.Act
  | .startSend event => some (.start event)
  | .pollSend ticket => some (.poll ticket)
  | .dropSend ticket => some (.drop ticket)
  | .addSender => some .addSender
  | .dropSender => some .dropSender
  | _ => none

/-- The call is under way: it has claimed the receiver and has not returned. -/
def Serve.isActive (s : Serve) : Bool :=
  match s.stage with
  | .listening _ _ | .joining _ => true
  | .fresh | .finished _ => false

/-- The errors with which a move breaks off a listener, with the call whose listener it is. -/
def breaking (a : Adapter) : Move → List (Nat × Net.SystemError)
  | .failListener n error =>
      match a.serve? n with
      | some ⟨_, _, .listening _ _⟩ => [(n, error)]
      | _ => []
  | _ => []

/-- How the listener of a call comes to its end: it was told to stop and the last connection is
    gone, or it breaks off. -/
inductive Leaving (n : Nat) : Move → Serve.Stage → Except Fault Unit → Prop where
  | drained : Leaving n (.pollServe n) (.listening true 0) (.ok ())
  | broken (error : Net.SystemError) (signalled : Bool) (connections : Nat) :
      Leaving n (.failListener n error) (.listening signalled connections) (.error (.io error))

theorem Leaving.listening {n : Nat} {m : Move} {stage : Serve.Stage}
    {listener : Except Fault Unit} (h : Leaving n m stage listener) :
    ∃ signalled connections, stage = .listening signalled connections := by
  cases h with
  | drained => exact ⟨true, 0, rfl⟩
  | broken error signalled connections => exact ⟨signalled, connections, rfl⟩

/-- Where a call of `shutdown` stands after it has looked for the stop. -/
def Shutdown.Stage.awaiting (phase : Phase) (limit : Text.Duration) (expired : Bool) :
    Shutdown.Stage :=
  if phase = .stopped then .finished (.ok ())
  else if expired then .finished (.error (.shutdownTimeout limit))
  else .waiting

/-- How a move goes: the adapter afterwards, and what is noted. -/
inductive Stepping (a : Adapter) : Move → Adapter → List LogEntry → Prop where
  | callServe (error : Option Net.SystemError) :
      Stepping a (.callServe error)
        { a with serves := a.serves ++ [{ addressError := error }] } []
  | callShutdown (limit : Text.Duration) :
      Stepping a (.callShutdown limit) { a with shutdowns := a.shutdowns ++ [{ limit }] } []
  | cancelled {n : Nat} {s : Serve} (hs : a.serve? n = some s) :
      Stepping a (.cancelServe n) (a.setServe n { s with cancelled := true }) []
  /-- The listener has no address. -/
  | addressless {n : Nat} {s : Serve} {error : Net.SystemError} (hs : a.serve? n = some s)
      (hfresh : s.stage = .fresh) (herror : s.addressError = some error) :
      Stepping a (.pollServe n)
        (a.setServe n { s with stage := .finished (.error (.io error)) }) []
  /-- The receiver is not in its slot. -/
  | refused {n : Nat} {s : Serve} (hs : a.serve? n = some s) (hfresh : s.stage = .fresh)
      (haddress : s.addressError = none) (hreceiver : a.receiver = false) :
      Stepping a (.pollServe n)
        (a.setServe n { s with stage := .finished (.error .alreadyServing) }) []
  | claimed {n : Nat} {s : Serve} (hs : a.serve? n = some s) (hfresh : s.stage = .fresh)
      (haddress : s.addressError = none) (hreceiver : a.receiver = true) :
      Stepping a (.pollServe n)
        ({ a with receiver := false, phase := .serving, worker := some {} }.setServe n
          { s with stage := .listening false 0 }) [.serving]
  | signalled {n connections : Nat} {s : Serve} (hs : a.serve? n = some s)
      (hstage : s.stage = .listening false connections)
      (hstop : s.cancelled = true ∨ a.stopping = true) :
      Stepping a (.pollSignal n)
        (a.setServe n { s with stage := .listening true connections }) []
  | connected {n connections : Nat} {s : Serve} (hs : a.serve? n = some s)
      (hstage : s.stage = .listening false connections) :
      Stepping a (.connect n)
        (a.setServe n { s with stage := .listening false (connections + 1) }) []
  | disconnected {n connections : Nat} {signalled : Bool} {s : Serve} (hs : a.serve? n = some s)
      (hstage : s.stage = .listening signalled (connections + 1)) :
      Stepping a (.disconnect n)
        (a.setServe n { s with stage := .listening signalled connections }) []
  /-- The listener has ended, and the worker has not. -/
  | left {m : Move} {n : Nat} {s : Serve} {listener : Except Fault Unit} {w : Worker}
      (hs : a.serve? n = some s) (hleaving : Leaving n m s.stage listener)
      (hw : a.worker = some w) (hrunning : w.status = .running) :
      Stepping a m
        ({ a with worker := some w.stop }.setServe n { s with stage := .joining listener })
        [.stoppedServing]
  /-- The listener has ended after the worker. -/
  | leftEnded {m : Move} {n : Nat} {s : Serve} {listener : Except Fault Unit}
      (hs : a.serve? n = some s) (hleaving : Leaving n m s.stage listener)
      (hended : a.worker.map (·.status) ≠ some .running) :
      Stepping a m
        ({ a with phase := .stopped, worker := a.worker.map Worker.stop }.setServe n
          { s with stage := .finished (resultOf listener a.ending) })
        (.stoppedServing :: resultEntries (resultOf listener a.ending))
  /-- The worker has ended after the listener. -/
  | joined {n : Nat} {s : Serve} {listener : Except Fault Unit} (hs : a.serve? n = some s)
      (hstage : s.stage = .joining listener)
      (hended : a.worker.map (·.status) ≠ some .running) :
      Stepping a (.pollServe n)
        ({ a with phase := .stopped }.setServe n
          { s with stage := .finished (resultOf listener a.ending) })
        (resultEntries (resultOf listener a.ending))
  | worked {w : Worker} (hw : a.worker = some w) (hrunning : w.status = .running) :
      Stepping a .pollWorker
        { a with
          ledger := (Run.poll w.started w.stopping a.conduit a.ledger).ledger
          conduit := (Run.poll w.started w.stopping a.conduit a.ledger).conduit
          feed := a.feed.publishAll (Run.poll w.started w.stopping a.conduit a.ledger).changes
          worker := some ⟨true, w.stopping,
            (Run.poll w.started w.stopping a.conduit a.ledger).status⟩ }
        (Run.poll w.started w.stopping a.conduit a.ledger).entries
  /-- The adapter is idle, so there is nothing to wait for. -/
  | granted {i : Nat} {call : Shutdown} (expired : Bool) (hcall : a.shutdown? i = some call)
      (hfresh : call.stage = .fresh) (hphase : a.phase = .idle) (hreceiver : a.receiver = true) :
      Stepping a (.pollShutdown i expired)
        ({ a with stopping := true, phase := .stopped }.setShutdown i
          { call with stage := .finished (.ok ()) }) []
  | awaited {i : Nat} {call : Shutdown} (expired : Bool) (hcall : a.shutdown? i = some call)
      (hfresh : call.stage = .fresh) (hbusy : ¬ (a.phase = .idle ∧ a.receiver = true)) :
      Stepping a (.pollShutdown i expired)
        ({ a with stopping := true }.setShutdown i
          { call with stage := .awaiting a.phase call.limit expired }) []
  | reawaited {i : Nat} {call : Shutdown} (expired : Bool) (hcall : a.shutdown? i = some call)
      (hwaiting : call.stage = .waiting) :
      Stepping a (.pollShutdown i expired)
        (a.setShutdown i { call with stage := .awaiting a.phase call.limit expired }) []
  | acted {m : Move} (act : Conduit.Act) (hact : m.act? = some act) :
      Stepping a m { a with conduit := a.conduit.act act } []
  /-- There is nothing to do, or nothing has changed for the one who looks. -/
  | nothing {m : Move} (hact : m.act? = none) (hbreaking : a.breaking m = [])
      (hidle : m = .pollWorker → a.worker.map (·.status) ≠ some .running) : Stepping a m a []

theorem stepping_claim (hs : a.serve? n = some s) (hfresh : s.stage = .fresh)
    (haddress : s.addressError = none) :
    Stepping a (.pollServe n) (a.claim n).1 (a.claim n).2 := by
  unfold claim
  split
  · next hreceiver =>
      have hsame : ({ a with receiver := false, phase := .serving, worker := some {} } :
        Adapter).serve? n = some s := hs
      rw [moveServe_of_serve? hsame]
      exact .claimed hs hfresh haddress hreceiver
  · next hreceiver =>
      rw [moveServe_of_serve? hs]
      exact .refused hs hfresh haddress (by simpa using hreceiver)

/-- The listener ends before the worker, which is told to stop. -/
theorem leave_of_running {w : Worker} (hs : a.serve? n = some s) (hw : a.worker = some w)
    (hrunning : w.status = .running) (listener : Except Fault Unit) :
    a.leave n listener = ({ a with worker := some w.stop }.setServe n
      { s with stage := .joining listener }, [.stoppedServing]) := by
  have hstop : ({ a with worker := a.worker.map Worker.stop } : Adapter).worker = some w.stop := by
    rw [hw]
    rfl
  have hsame : ({ a with worker := some w.stop } : Adapter).serve? n = some s := hs
  simp only [leave, join_of_running hstop hrunning]
  rw [hw, Option.map_some, moveServe_of_serve? hsame]

/-- The listener ends after the worker, so the call returns at once. -/
theorem leave_of_ended (hs : a.serve? n = some s)
    (hended : a.worker.map (·.status) ≠ some .running) (listener : Except Fault Unit) :
    a.leave n listener = ({ a with phase := .stopped, worker := a.worker.map Worker.stop }.setServe
        n { s with stage := .finished (resultOf listener a.ending) },
      .stoppedServing :: resultEntries (resultOf listener a.ending)) := by
  have hstatus : (a.worker.map Worker.stop).map (·.status) = a.worker.map (·.status) := by
    rw [Option.map_map]
    rfl
  have hsame : ({ a with phase := .stopped, worker := a.worker.map Worker.stop } :
    Adapter).serve? n = some s := hs
  have hending : ({ a with worker := a.worker.map Worker.stop } : Adapter).ending = a.ending := by
    rw [ending, hstatus, ending]
  have hended' : ({ a with worker := a.worker.map Worker.stop } : Adapter).worker.map (·.status)
      ≠ some .running := by
    rw [hstatus]
    exact hended
  simp only [leave, join_of_ended hended', hending]
  rw [moveServe_of_serve? hsame]

theorem stepping_leave {m : Move} {listener : Except Fault Unit} (hs : a.serve? n = some s)
    (hleaving : Leaving n m s.stage listener) :
    Stepping a m (a.leave n listener).1 (a.leave n listener).2 := by
  by_cases hended : a.worker.map (·.status) = some .running
  · obtain ⟨w, hw, hrunning⟩ := Option.map_eq_some_iff.1 hended
    rw [leave_of_running hs hw hrunning]
    exact .left hs hleaving hw hrunning
  · rw [leave_of_ended hs hended]
    exact .leftEnded hs hleaving hended

theorem stepping_join {listener : Except Fault Unit} (hs : a.serve? n = some s)
    (hstage : s.stage = .joining listener) :
    Stepping a (.pollServe n) (a.join n listener).1 (a.join n listener).2 := by
  by_cases hended : a.worker.map (·.status) = some .running
  · obtain ⟨w, hw, hrunning⟩ := Option.map_eq_some_iff.1 hended
    -- The call stays where it is, so nothing has changed.
    have hsame : a.moveServe n (.joining listener) = a := by
      obtain ⟨hn, hget⟩ := List.getElem?_eq_some_iff.1 hs
      rw [moveServe_of_serve? hs, setServe, ← hstage, ← hget, List.set_getElem_self]
    rw [join_of_running hw hrunning, hsame]
    exact .nothing rfl rfl nofun
  · have hsame : ({ a with phase := .stopped } : Adapter).serve? n = some s := hs
    rw [join_of_ended hended, moveServe_of_serve? hsame]
    exact .joined hs hstage hended

theorem stepping_pollServe (a : Adapter) (n : Nat) :
    Stepping a (.pollServe n) (a.pollServe n).1 (a.pollServe n).2 := by
  unfold pollServe
  split
  · next hs =>
      rw [moveServe_of_serve? hs]
      exact .addressless hs rfl rfl
  · next hs => exact stepping_claim hs rfl rfl
  · next hs => exact stepping_leave hs .drained
  · next hs => exact stepping_join hs rfl
  · exact .nothing rfl rfl nofun

theorem stepping_pollSignal (a : Adapter) (n : Nat) :
    Stepping a (.pollSignal n) (a.pollSignal n) [] := by
  unfold pollSignal
  split
  · next hs =>
      split
      · next hstop =>
          rw [moveServe_of_serve? hs]
          exact .signalled hs rfl (by simpa using hstop)
      · exact .nothing rfl rfl nofun
  · exact .nothing rfl rfl nofun

theorem stepping_failListener (a : Adapter) (n : Nat) (error : Net.SystemError) :
    Stepping a (.failListener n error) (a.failListener n error).1 (a.failListener n error).2 := by
  unfold failListener
  split
  · next hs => exact stepping_leave hs (.broken error _ _)
  · next hnot =>
      -- By `hnot` the call is not at the stage that `breaking` asks for.
      exact .nothing rfl (by simp only [breaking]) nofun

theorem stepping_pollWorker (a : Adapter) :
    Stepping a .pollWorker a.pollWorker.1 a.pollWorker.2 := by
  unfold pollWorker
  split
  · next hw => exact .worked hw rfl
  · next hnot =>
      refine .nothing rfl rfl fun _ hrunning => ?_
      obtain ⟨⟨started, stopping, status⟩, hw, hstatus⟩ := Option.map_eq_some_iff.1 hrunning
      obtain rfl : status = .running := hstatus
      exact hnot started stopping hw

theorem await_of_shutdown? {call : Shutdown} {i : Nat} (hcall : a.shutdown? i = some call)
    (limit : Text.Duration) (expired : Bool) :
    a.await i limit expired
      = a.setShutdown i { call with stage := .awaiting a.phase limit expired } := by
  unfold await Shutdown.Stage.awaiting
  split
  · exact moveShutdown_of_shutdown? hcall _
  · split
    · exact moveShutdown_of_shutdown? hcall _
    · exact moveShutdown_of_shutdown? hcall _

theorem stepping_pollShutdown (a : Adapter) (i : Nat) (expired : Bool) :
    Stepping a (.pollShutdown i expired) (a.pollShutdown i expired) [] := by
  unfold pollShutdown
  split
  · next limit hcall =>
      have hcall' : ({ a with stopping := true } : Adapter).shutdown? i
        = some ⟨limit, .fresh⟩ := hcall
      have hcall'' : ({ a with stopping := true, phase := .stopped } : Adapter).shutdown? i
        = some ⟨limit, .fresh⟩ := hcall
      dsimp only
      split
      · next hidle =>
          rw [moveShutdown_of_shutdown? hcall'']
          exact .granted expired hcall rfl hidle.1 hidle.2
      · next hbusy =>
          rw [await_of_shutdown? hcall']
          exact .awaited expired hcall rfl hbusy
  · next hcall =>
      rw [await_of_shutdown? hcall]
      exact .reawaited expired hcall rfl
  · exact .nothing rfl rfl nofun

theorem stepping_step (a : Adapter) (m : Move) : Stepping a m (a.step m).1 (a.step m).2 := by
  cases m with
  | callServe error => exact .callServe error
  | cancelServe n =>
    simp only [step, cancelServe]
    split
    · next hs => exact .cancelled hs
    · exact .nothing rfl rfl nofun
  | pollServe n => exact stepping_pollServe a n
  | pollSignal n => exact stepping_pollSignal a n
  | connect n =>
    simp only [step, connect]
    split
    · next hs =>
        rw [moveServe_of_serve? hs]
        exact .connected hs rfl
    · exact .nothing rfl rfl nofun
  | disconnect n =>
    simp only [step, disconnect]
    split
    · next hs =>
        rw [moveServe_of_serve? hs]
        exact .disconnected hs rfl
    · exact .nothing rfl rfl nofun
  | failListener n error => exact stepping_failListener a n error
  | pollWorker => exact stepping_pollWorker a
  | callShutdown limit => exact .callShutdown limit
  | pollShutdown i expired => exact stepping_pollShutdown a i expired
  | addSender => exact .acted .addSender rfl
  | dropSender => exact .acted .dropSender rfl
  | startSend event => exact .acted (.start event) rfl
  | pollSend ticket => exact .acted (.poll ticket) rfl
  | dropSend ticket => exact .acted (.drop ticket) rfl

/-! ## What is final -/

variable {b : Adapter} {m : Move} {entries : List LogEntry}

/-- A result stays where another call moves, and no call moves on from a result. -/
theorem serveResult?_setServe {k : Nat} {old t : Serve} {result : Except Fault Unit}
    (h : a.serveResult? n = some result) (hold : a.serve? k = some old)
    (ht : (∀ result, old.stage ≠ .finished result) ∨ t.stage = old.stage) :
    (a.setServe k t).serveResult? n = some result := by
  obtain ⟨s, hs, hstage⟩ := serveResult?_eq_some_iff.1 h
  refine serveResult?_eq_some_iff.2 ?_
  rw [serve?_setServe hold]
  by_cases hn : n = k
  · subst hn
    obtain rfl : s = old := Option.some.inj (hs.symm.trans hold)
    rcases ht with ht | ht
    · exact absurd hstage (ht result)
    · exact ⟨t, if_pos rfl, ht.trans hstage⟩
  · exact ⟨s, (if_neg hn).trans hs, hstage⟩

/-- A call of `serve` that has returned has its result for good. -/
theorem Stepping.serveResult? (h : Stepping a m b entries) {result : Except Fault Unit}
    (hresult : a.serveResult? n = some result) : b.serveResult? n = some result := by
  have hmoved : ∀ {c : Adapter} {k old t}, c.serves = a.serves → c.serve? k = some old →
      (∀ result, old.stage ≠ .finished result) →
      (c.setServe k t).serveResult? n = some result := by
    intro c k old t hserves hold hnot
    refine serveResult?_setServe ?_ hold (Or.inl hnot)
    rw [Adapter.serveResult?, serve?, hserves]
    exact hresult
  cases h with
  | callServe error =>
    obtain ⟨s, hs, hstage⟩ := serveResult?_eq_some_iff.1 hresult
    obtain ⟨hn, -⟩ := List.getElem?_eq_some_iff.1 hs
    exact serveResult?_eq_some_iff.2 ⟨s, (List.getElem?_append_left hn).trans hs, hstage⟩
  | cancelled hs => exact serveResult?_setServe hresult hs (Or.inr rfl)
  | addressless hs hfresh _ => exact hmoved rfl hs (by simp [hfresh])
  | refused hs hfresh _ _ => exact hmoved rfl hs (by simp [hfresh])
  | claimed hs hfresh _ _ => exact hmoved rfl hs (by simp [hfresh])
  | signalled hs hstage _ => exact hmoved rfl hs (by simp [hstage])
  | connected hs hstage => exact hmoved rfl hs (by simp [hstage])
  | disconnected hs hstage => exact hmoved rfl hs (by simp [hstage])
  | left hs hleaving _ _ =>
    obtain ⟨_, _, hstage⟩ := hleaving.listening
    exact hmoved rfl hs (by simp [hstage])
  | leftEnded hs hleaving _ =>
    obtain ⟨_, _, hstage⟩ := hleaving.listening
    exact hmoved rfl hs (by simp [hstage])
  | joined hs hstage _ => exact hmoved rfl hs (by simp [hstage])
  | callShutdown _ | worked _ _ | granted _ _ _ _ _ | awaited _ _ _ _ | reawaited _ _ _
  | acted _ _ | nothing _ _ _ => exact hresult

/-- The receiver does not come back into its slot. -/
theorem Stepping.receiver (h : Stepping a m b entries) (hreceiver : a.receiver = false) :
    b.receiver = false := by
  cases h <;> first | exact hreceiver | rfl

/-- A stop that was asked for is asked for ever. -/
theorem Stepping.stopping (h : Stepping a m b entries) (hstopping : a.stopping = true) :
    b.stopping = true := by
  cases h <;> first | exact hstopping | rfl

end Adapter

end KeyRelay
