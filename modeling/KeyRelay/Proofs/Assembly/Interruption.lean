import KeyRelay.Proofs.Assembly.Steps
import KeyRelay.Proofs.Reduction.Interruption
import KeyRelay.Proofs.Run.Ending

set_option autoImplicit false

/-! # A reducer is interrupted

What a reducer does with an event is the same whether it is asked to apply it or takes it in a run
(`Assembly.enacts_step`). When it crashes in the middle of the event, the parts are left as the
items before the crash have left them, but for the counter: the item that has crashed has taken its
revision (`Assembly.Interrupts.leaves`). -/

namespace KeyRelay

namespace Assembly

/-- The reducer that a command works through. -/
def worker? (a : Assembly) : Command → Option Reducer
  | .apply number _ => a.reducers[number]?.join
  | .run number => if a.receiver then a.reducers[number]?.join else none
  | .pollRun => a.running.map (·.1)
  | _ => none

/-- An effect in which a reducer has applied an event: what was done and what was told of it, with a
    crash as the answer if there was one. -/
structure Enacts (a : Assembly) (reducer : Reducer) (event : Event) (e : Effect) : Prop where
  store : e.after.store = ((a.ledger reducer).apply event).2.store
  counters : e.after.counters
    = a.counters.set reducer.counter ((a.ledger reducer).apply event).2.counter
  changes : e.changes = reported reducer ((a.ledger reducer).apply event).1.changes
  feed : e.after.feed = a.feed.publishAll e.changes
  entries : ((a.ledger reducer).apply event).1.entries <:+: e.entries
  crash : ∀ crash, ((a.ledger reducer).apply event).1.crash? = some crash →
    e.reply = .crashed crash

variable {a : Assembly} {command : Command} {reducer : Reducer} {event : Event} {i : Nat}
  {crash : Crash}

/-! ## An event is applied -/

theorem enacts_applyEvent {number : Nat} (hreducer : a.reducers[number]? = some (some reducer))
    (event : Event) : Enacts a reducer event (a.applyEvent number event) := by
  obtain ⟨hafter, hchanges⟩ := applyEvent_of_reducer hreducer event
  constructor
  case store => rw [hafter]; rfl
  case counters => rw [hafter]; rfl
  case changes => exact hchanges
  case feed => rw [hafter, hchanges, feed_settle]
  case entries =>
    simp only [applyEvent, hreducer]
    exact List.infix_rfl
  case crash => exact fun crash hcrash => reply_applyEvent_of_some hreducer hcrash

/-- A run applies the event that it takes. -/
theorem enacts_pollRun {started : Bool} (hrunning : a.running = some (reducer, started))
    (htaking : (Run.taking a.cancelled a.conduit).map (·.2) = [event]) :
    Enacts a reducer event a.pollRun := by
  have happlied : Ledger.applyAll ((Run.taking a.cancelled a.conduit).map (·.2))
      (a.ledger reducer)
      = ([((a.ledger reducer).apply event).1], ((a.ledger reducer).apply event).2) := by
    rw [htaking]
    rfl
  obtain ⟨hcounters, hstore, hfeed, hchanges, -⟩ := pollRun_of_running hrunning happlied
  constructor
  case store => exact hstore
  case counters => exact hcounters
  case changes => rw [hchanges, List.flatMap_singleton]
  case feed => exact hfeed
  case entries =>
    obtain ⟨⟨t, own⟩, htaken, rfl⟩ := List.map_eq_singleton_iff.1 htaking
    simp only [pollRun, hrunning]
    exact Run.entries_poll_of_taking started htaken _
  case crash =>
    intro crash hcrash
    have hmem : ((a.ledger reducer).apply event).1 ∈ (Ledger.applyAll
        ((Run.taking a.cancelled a.conduit).map (·.2)) (a.ledger reducer)).1 := by
      rw [happlied]
      exact List.mem_singleton.2 rfl
    have hstatus := Run.status_poll_of_crash started a.cancelled a.conduit (a.ledger reducer) hmem
      hcrash
    simp only [pollRun, hrunning, hstatus]

/-- A run that can start is polled at once. -/
theorem startRun_of_reducer {number : Nat} (hreceiver : a.receiver = true)
    (hreducer : a.reducers[number]?.join = some reducer) :
    a.startRun number
      = pollRun { a with
          reducers := a.reducers.set number none
          receiver := false
          running := some (reducer, false) } := by
  simp only [startRun, hreducer, hreceiver]

theorem enacts_startRun {number : Nat} (hreceiver : a.receiver = true)
    (hreducer : a.reducers[number]?.join = some reducer)
    (htaking : (Run.taking a.cancelled a.conduit).map (·.2) = [event]) :
    Enacts a reducer event (a.startRun number) := by
  rw [startRun_of_reducer hreceiver hreducer]
  -- Counters, store and feed are as they were before the reducer was moved.
  obtain ⟨hstore, hcounters, hchanges, hfeed, hentries, hcrash⟩ :=
    enacts_pollRun (a := { a with
      reducers := a.reducers.set number none
      receiver := false
      running := some (reducer, false) }) rfl htaking
  exact ⟨hstore, hcounters, hchanges, hfeed, hentries, hcrash⟩

/-- Whatever a command has for the reducer that it works through is applied by it. -/
theorem enacts_step (hworker : a.worker? command = some reducer)
    (hevents : a.eventsOf command = [event]) : Enacts a reducer event (a.step command) := by
  cases command with
  | apply number own =>
    obtain rfl : own = event := List.singleton_inj.1 hevents
    exact enacts_applyEvent (Option.join_eq_some_iff.1 hworker) own
  | run number =>
    simp only [worker?] at hworker
    split at hworker
    · next hreceiver => exact enacts_startRun hreceiver hworker hevents
    · simp at hworker
  | pollRun =>
    obtain ⟨⟨r, started⟩, hrunning, rfl⟩ := Option.map_eq_some_iff.1 hworker
    exact enacts_pollRun hrunning hevents
  | _ => simp [worker?] at hworker

/-! ## An event is broken off -/

/-- The reducer that a command works through has an event to apply, and the item at this place is
    the first one of it that crashes. -/
structure Interrupts (a : Assembly) (command : Command) (reducer : Reducer) (event : Event)
    (i : Nat) (crash : Crash) : Prop where
  worker : a.worker? command = some reducer
  events : a.eventsOf command = [event]
  stops : (a.ledger reducer).StopsAt event i crash

/-- An effect that leaves behind what the items before this one have done, and nothing else but the
    revisions that all of them have taken. -/
structure LeavesOff (a : Assembly) (reducer : Reducer) (event : Event) (i : Nat) (crash : Crash)
    (e : Effect) : Prop where
  reply : e.reply = .crashed crash
  store : e.after.store = ((a.ledger reducer).apply (event.upTo i)).2.store
  changes : e.changes = reported reducer ((a.ledger reducer).apply (event.upTo i)).1.changes
  feed : e.after.feed = a.feed.publishAll e.changes
  counters : e.after.counters
    = a.counters.set reducer.counter ⟨(a.counter reducer.counter).current + (i + 1)⟩

/-- An effect that does what the event does leaves off where the event does. -/
theorem leavesOff_of_stopsAt (h : (a.ledger reducer).StopsAt event i crash) {e : Effect}
    (hreply : e.reply = .crashed crash)
    (hstore : e.after.store = ((a.ledger reducer).apply event).2.store)
    (hchanges : e.changes = reported reducer ((a.ledger reducer).apply event).1.changes)
    (hfeed : e.after.feed = a.feed.publishAll e.changes)
    (hcounters : e.after.counters
      = a.counters.set reducer.counter ((a.ledger reducer).apply event).2.counter) :
    LeavesOff a reducer event i crash e where
  reply := hreply
  store := by rw [hstore, h.ledger]
  changes := by rw [hchanges, h.report.2.1]
  feed := hfeed
  counters := by rw [hcounters, h.ledger]; rfl

theorem Enacts.leavesOff {e : Effect} (he : Enacts a reducer event e)
    (h : (a.ledger reducer).StopsAt event i crash) : LeavesOff a reducer event i crash e :=
  leavesOff_of_stopsAt h (he.crash crash h.report.2.2) he.store he.changes he.feed he.counters

/-- An interrupted reducer leaves off in front of the item that has crashed. -/
theorem Interrupts.leaves (h : a.Interrupts command reducer event i crash) :
    LeavesOff a reducer event i crash (a.step command) :=
  (enacts_step h.worker h.events).leavesOff h.stops

/-- A run that has crashed is gone. -/
theorem running_pollRun_of_crashed {started : Bool}
    (hrunning : a.running = some (reducer, started))
    (hreply : a.pollRun.reply = .crashed crash) : a.pollRun.after.running = none := by
  have hstatus := status_of_crashed hrunning hreply
  simp only [pollRun, hrunning, hstatus]
  rfl

/-- What a reducer leaves that was asked to apply an event and was interrupted is what it would
    leave if it had been asked to apply the items before, and then a revision had been taken. -/
theorem after_applyEvent {number : Nat} (hreducer : a.reducers[number]? = some (some reducer))
    (h : (a.ledger reducer).StopsAt event i crash) :
    (a.applyEvent number event).after
      = ((a.applyEvent number (event.upTo i)).after.takeRevision reducer.counter).after := by
  have hset : ∀ c : Counter,
      (a.counters.set reducer.counter c).set reducer.counter
          ((a.counters.set reducer.counter c)[reducer.counter]?.getD {}).next.2
        = a.counters.set reducer.counter c.next.2 := by
    intro c
    rw [List.set_set]
    by_cases hlt : reducer.counter < a.counters.length
    · simp [hlt]
    · rw [List.set_eq_of_length_le (Nat.le_of_not_lt hlt),
        List.set_eq_of_length_le (Nat.le_of_not_lt hlt)]
  have hcurrent : ((a.ledger reducer).apply (event.upTo i)).2.counter.next.2
      = ⟨(a.ledger reducer).counter.current + (i + 1)⟩ := by
    simp only [Counter.next, h.current, Int.add_assoc]
  rw [(applyEvent_of_reducer hreducer event).1, (applyEvent_of_reducer hreducer _).1]
  simp only [settle, takeRevision, counter, hset, hcurrent, h.ledger, h.report.2.1]

/-- Whoever reduces and crashes has left off in the middle of an event. -/
theorem Doing.leavesOff {feeds : Bool} {events : List Event} {e : Effect}
    (h : Doing a true feeds events e) (hreply : e.reply = .crashed crash) :
    ∃ reducer event i, a.Employs reducer ∧ events = [event]
      ∧ (a.ledger reducer).StopsAt event i crash ∧ LeavesOff a reducer event i crash e := by
  cases h with
  | rests _ _ _ _ _ hcrash => exact absurd hreply (hcrash rfl crash)
  | counts _ _ _ _ _ hreduces => simp at hreduces
  | @applies reducer event hemployed hevents hcounters hstore hfeed _ hchanges hcrash =>
    obtain ⟨i, hstops⟩ := Ledger.crash?_eq_some_iff.1 (hcrash crash hreply)
    exact ⟨reducer, event, i, hemployed, hevents, hstops,
      leavesOff_of_stopsAt hstops hreply hstore hchanges hfeed hcounters⟩

end Assembly

end KeyRelay
