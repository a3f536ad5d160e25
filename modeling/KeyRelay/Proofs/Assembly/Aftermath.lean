import KeyRelay.Proofs.Assembly.Delivery

set_option autoImplicit false

/-! # After an interruption

A crash in the middle of an event leaves behind exactly what the items before it have done, and the
parts can be used on. If it strikes a run, the run is gone and the receiver with it: nothing is
handed over or applied by a run any more, and every send learns whether its event was handed over,
as the one was that has crashed (`Delivery.aftermath_perform`). -/

namespace KeyRelay

namespace Assembly

variable {a : Assembly} {command : Command} {reducer : Reducer} {event : Event} {i : Nat}
  {crash : Crash}

/-- The command polls a run. -/
def Command.isRun : Command → Bool
  | .run _ | .pollRun => true
  | _ => false

theorem employs_of_worker (h : a.worker? command = some reducer) : a.Employs reducer := by
  cases command with
  | apply number event => exact Or.inl (List.mem_of_getElem? (Option.join_eq_some_iff.1 h))
  | run number =>
    simp only [worker?] at h
    split at h
    · exact Or.inl (List.mem_of_getElem? (Option.join_eq_some_iff.1 h))
    · simp at h
  | pollRun =>
    obtain ⟨⟨r, started⟩, hrunning, rfl⟩ := Option.map_eq_some_iff.1 h
    exact Or.inr ⟨started, hrunning⟩
  | _ => simp [worker?] at h

/-! ## Without a receiver -/

/-- Nothing is moved into a run without a receiver. -/
theorem startRun_of_gone (hgone : a.keeper = .nobody) (number : Nat) :
    a.startRun number
      = ⟨.refused .cannotRun, [], [], { a with reducers := a.reducers.set number none }⟩ := by
  obtain ⟨hreceiver, -⟩ := keeper_eq_nobody_iff.1 hgone
  unfold startRun
  simp only [hreceiver, dropReceiver, Bool.false_eq_true, if_false]
  cases a.reducers[number]?.join <;> rfl

theorem pollRun_of_gone (hgone : a.keeper = .nobody) :
    a.pollRun = ⟨.refused .notRunning, [], [], a⟩ := by
  obtain ⟨-, hrunning⟩ := keeper_eq_nobody_iff.1 hgone
  simp only [pollRun, hrunning]

/-- A receiver that is gone does not come back, and nothing is handed over any more. -/
theorem gone_step (hgone : a.keeper = .nobody) (command : Command) :
    (a.step command).after.keeper = .nobody ∧ a.handing command = [] := by
  obtain ⟨hreceiver, hrunning⟩ := keeper_eq_nobody_iff.1 hgone
  cases hreceives : command.receives with
  | false =>
    obtain ⟨hproduces, hnone⟩ := produces_step a hreceives
    exact ⟨(keeper_congr hproduces.receiver hproduces.running).trans hgone, hnone⟩
  | true =>
    cases command with
    | recv =>
      refine ⟨?_, by simp [handing, hreceiver]⟩
      simp only [step, pollReceiver, hreceiver, Bool.false_eq_true, if_false]
      exact hgone
    | run number =>
      refine ⟨?_, by simp [handing, worker?, hreceiver]⟩
      rw [step, startRun_of_gone hgone]
      exact hgone
    | pollRun =>
      refine ⟨?_, by simp [handing, hrunning]⟩
      rw [step, pollRun_of_gone hgone]
      exact hgone
    | dropReceiver =>
      refine ⟨?_, rfl⟩
      simp only [step, dropReceiver, hreceiver, Bool.false_eq_true, if_false]
      exact hgone
    | dropRun =>
      refine ⟨?_, rfl⟩
      simp only [step, dropRun, hrunning, Option.isSome_none, Bool.false_eq_true, if_false]
      exact hgone
    | cancel => exact ⟨hgone, rfl⟩
    | _ => simp [Command.receives] at hreceives

/-- A run that is interrupted has taken the event in the slot, and is gone with the receiver. -/
theorem Interrupts.gone (h : a.Interrupts command reducer event i crash)
    (halone : a.receiver = true → a.running = none) (hrun : command.isRun = true) :
    (a.step command).after.keeper = .nobody ∧ ∃ t, a.handing command = [(t, event)] := by
  have hreply := h.leaves.reply
  obtain ⟨hworker, hevents, -⟩ := h
  have htaken : (Run.taking a.cancelled a.conduit).map (·.2) = [event] →
      ∃ t, Run.taking a.cancelled a.conduit = [(t, event)] := by
    intro htaking
    obtain ⟨⟨t, own⟩, htaken, rfl⟩ := List.map_eq_singleton_iff.1 htaking
    exact ⟨t, htaken⟩
  cases command with
  | run number =>
    simp only [worker?] at hworker
    split at hworker
    · next hreceiver =>
        obtain ⟨t, htaken⟩ := htaken hevents
        refine ⟨?_, t, by simp [handing, worker?, hreceiver, hworker, htaken]⟩
        simp only [step, startRun_of_reducer hreceiver hworker] at hreply ⊢
        refine keeper_eq_nobody_iff.2 ⟨?_, running_pollRun_of_crashed rfl hreply⟩
        simp only [pollRun]
        rfl
    · simp at hworker
  | pollRun =>
    obtain ⟨⟨r, started⟩, hrunning, rfl⟩ := Option.map_eq_some_iff.1 hworker
    obtain ⟨t, htaken⟩ := htaken hevents
    refine ⟨?_, t, by simp [handing, hrunning, htaken]⟩
    refine keeper_eq_nobody_iff.2 ⟨?_, running_pollRun_of_crashed hrunning hreply⟩
    have hreceiver : a.receiver = false := by
      cases hreceiver : a.receiver with
      | false => rfl
      | true => simp [halone hreceiver] at hrunning
    simp only [step, pollRun, hrunning]
    exact hreceiver
  | _ => simp [Command.isRun] at hrun

namespace Delivery

variable {w : Delivery}

theorem gone_perform (hgone : w.assembly.keeper = .nobody) (more : List Deed) :
    (w.perform more).assembly.keeper = .nobody ∧ (w.perform more).handed = w.handed := by
  induction more generalizing w with
  | nil => exact ⟨hgone, rfl⟩
  | cons deed rest ih =>
    have hnext : (w.act deed).assembly.keeper = .nobody ∧ (w.act deed).handed = w.handed := by
      cases deed with
      | command command =>
        obtain ⟨hkeeper, hnone⟩ := gone_step hgone command
        exact ⟨hkeeper, by simp only [act, hnone, List.append_nil]⟩
      | meddle m =>
        obtain ⟨store, feed, hafter⟩ := (meddled_meddle w.assembly m).rest
        refine ⟨?_, rfl⟩
        simp only [act, hafter]
        exact hgone
    obtain ⟨hkeeper, hhanded⟩ := ih hnext.1
    exact ⟨hkeeper, hhanded.trans hnext.2⟩

/-! ## What is left -/

/-- What becomes of those who use the conduit when a run was interrupted by this event. -/
structure EndsRun (w : Delivery) (command : Command) (event : Event) : Prop where
  /-- The event was handed over, and it is the last one that ever is. -/
  taken : ∃ t, (w.act (.command command)).handed = w.handed ++ [(t, event)]
  last : ∀ more,
    ((w.act (.command command)).perform more).handed = (w.act (.command command)).handed
  /-- Nothing is applied by a run any more. -/
  idle : ∀ more,
    let b := ((w.act (.command command)).perform more).assembly
    b.step .pollRun = ⟨.refused .notRunning, [], [], b⟩ ∧ ∀ number, b.step (.run number)
      = ⟨.refused .cannotRun, [], [], { b with reducers := b.reducers.set number none }⟩
  /-- An unfinished send is told at its next poll: it is done if its event was handed over, be it
      the one that has crashed, and finds the conduit closed else. So does every new one. -/
  answered : ∀ more t,
    let c := ((w.act (.command command)).perform more).assembly.conduit
    (c.send? t).isSome = true → (c.poll t).1.bind Send.Answer.result?
      = some (if t ∈ (w.act (.command command)).tickets then .ok () else .error .channelClosed)
  refused : ∀ more next,
    let c := ((w.act (.command command)).perform more).assembly.conduit
    ((c.start next).2.poll (c.start next).1).1.bind Send.Answer.result?
      = some (.error .channelClosed)

/-- What becomes of an assembly when a reducer was interrupted by the item at this place. -/
structure Aftermath (w : Delivery) (command : Command) (reducer : Reducer) (event : Event)
    (i : Nat) (crash : Crash) : Prop where
  /-- The crash is reported. The store, the changes and the feed are those of the items before, and
      the counter has gone on by one revision for each of them and one for the item itself. -/
  leaves : LeavesOff w.assembly reducer event i crash (w.assembly.step command)
  current : ((w.assembly.step command).after.counter reducer.counter).current
    = (w.assembly.counter reducer.counter).current + (i + 1)
  /-- If it was asked to apply the event, all parts are what they would be if it had been asked to
      apply these items, and then a revision had been taken. So they go on in the same way. -/
  resumes : ∀ number, command = .apply number event → (w.assembly.step command).after
    = ((w.assembly.step (.apply number (event.upTo i))).after.step (.next reducer.counter)).after
  /-- The items behind have no effect, and could have been any others. -/
  blind : ∀ number other, command = .apply number event → other.kind = event.kind →
    other.items.take (i + 1) = event.items.take (i + 1) →
    LeavesOff w.assembly reducer event i crash (w.assembly.step (.apply number other))
      ∧ (w.assembly.step (.apply number other)).after = (w.assembly.step command).after
  run : command.isRun = true → w.EndsRun command event

theorem endsRun_of_interrupts {r : Reception} (hmirrors : w.Mirrors r)
    (h : w.assembly.Interrupts command reducer event i crash) (hrun : command.isRun = true) :
    w.EndsRun command event := by
  obtain ⟨hnobody, t, htaken⟩ := h.gone hmirrors.alone hrun
  have hstays : ∀ more, ((w.act (.command command)).perform more).assembly.keeper = .nobody
      ∧ ((w.act (.command command)).perform more).handed = (w.act (.command command)).handed :=
    fun more => gone_perform hnobody more
  -- What is seen of the conduit from then on is a reception that nobody keeps.
  have hgone : ∀ more, ∃ r : Reception, r.Sound ∧ r.keeper = .nobody
      ∧ r.journal.conduit = ((w.act (.command command)).perform more).assembly.conduit
      ∧ r.journal.returned = (w.act (.command command)).handed := by
    intro more
    obtain ⟨hkeeper, hhanded⟩ := hstays more
    obtain ⟨r', h'⟩ := exists_mirrors hmirrors (.command command :: more)
    exact ⟨r', h'.sound, h'.keeper.trans hkeeper, h'.conduit, h'.returned.trans hhanded⟩
  constructor
  case taken => exact ⟨t, congrArg (w.handed ++ ·) htaken⟩
  case last => exact fun more => (hstays more).2
  case idle =>
    exact fun more => ⟨pollRun_of_gone (hstays more).1, startRun_of_gone (hstays more).1⟩
  case answered =>
    intro more t c halive
    obtain ⟨r', hsound, hkeeper, hconduit, hreturned⟩ := hgone more
    have htickets : r'.journal.returnedTickets = (w.act (.command command)).tickets := by
      rw [Journal.returnedTickets, hreturned]
      rfl
    have hanswer := (hsound.poll_of_gone hkeeper (t := t) (by rw [hconduit]; exact halive)).1
    rw [hconduit, htickets] at hanswer
    rw [hanswer]
    split <;> rfl
  case refused =>
    intro more next c
    obtain ⟨r', hsound, hkeeper, hconduit, -⟩ := hgone more
    have hanswer := hsound.poll_start_of_gone hkeeper next
    rw [hconduit] at hanswer
    rw [hanswer]
    rfl

/-- **A crash in the middle of an event leaves exactly what came before it.** Whatever was done to
    an assembly, with any number of counters and past its reducers as well: if an item is the first
    one of an event that crashes, because it has no key or is older than the object it belongs to,
    then the items before it are done and those behind it are not, and everybody can go on. -/
theorem aftermath_perform {counters capacity : Nat} {reducers : List Reducer} {start : Assembly}
    (hcreate : create counters reducers capacity = .ok start)
    (hcounters : ∀ r ∈ reducers, r.counter < counters) (deeds : List Deed)
    (h : (perform { assembly := start } deeds).assembly.Interrupts command reducer event i crash) :
    Aftermath (perform { assembly := start } deeds) command reducer event i crash := by
  obtain ⟨r, hmirrors⟩ := exists_mirrors (mirrors_create hcreate) deeds
  have hretains := retains_perform start deeds
  rw [← assembly_perform { assembly := start } deeds] at hretains
  generalize perform { assembly := start } deeds = w at h hmirrors hretains
  have hleaves := h.leaves
  constructor
  case leaves => exact hleaves
  case current =>
    have hlt : reducer.counter < w.assembly.counters.length := by
      have hmem := employs_create hcreate (hretains.employs _ (employs_of_worker h.worker))
      obtain ⟨feed, -, rfl⟩ := exists_of_create hcreate
      rw [hretains.length_counters, List.length_replicate]
      exact hcounters reducer hmem
    simp [counter, hleaves.counters, hlt]
  case resumes =>
    rintro number rfl
    exact after_applyEvent (Option.join_eq_some_iff.1 h.worker) h.stops
  case blind =>
    rintro number other rfl hkind hitems
    obtain ⟨hupTo, hother⟩ := h.stops.of_take hkind hitems
    have hreducer := Option.join_eq_some_iff.1 h.worker
    have hoff := (enacts_applyEvent hreducer _).leavesOff hother
    have hafter := after_applyEvent hreducer hother
    rw [hupTo, ← after_applyEvent hreducer h.stops] at hafter
    obtain ⟨hreply, hstore, hchanges, hfeed, hcounters⟩ := hoff
    rw [hupTo] at hstore hchanges
    exact ⟨⟨hreply, hstore, hchanges, hfeed, hcounters⟩, hafter⟩
  case run => exact fun hrun => endsRun_of_interrupts hmirrors h hrun

/-- Two reducers with counters of their own work on the same keys, and the run of the one that is
    behind takes an event for an object of the other one, while another event waits to be sent. -/
theorem aftermath_regressed :
    let pair := fun key value => Item.raw ⟨key, [value]⟩
    let reducers : List Reducer := [{}, { counter := 1 }]
    let start : Assembly :=
      { counters := [{}, {}], reducers := reducers.map some, feed := { width := 2 }
        senders := [firstSender] }
    let event : Event := ⟨.update, [pair "b" 3, pair "a" 4, pair "b" 5]⟩
    let deeds : List Deed :=
      [.command (.next 1), .command (.next 1), .command (.next 1),
        .command (.apply 1 ⟨.add, [pair "a" 1]⟩), .command (.apply 0 ⟨.add, [pair "b" 2]⟩),
        .command (.send "s" firstSender event), .command (.send "t" firstSender ⟨.add, []⟩)]
    let w := perform { assembly := start } deeds
    let e := w.assembly.step (.run 0)
    create 2 reducers 2 = .ok start ∧ (∀ r ∈ reducers, r.counter < 2)
      ∧ w.assembly.Interrupts (.run 0) {} event 1 .revisionRegressed
      ∧ Aftermath w (.run 0) {} event 1 .revisionRegressed
      ∧ e.changes = [.put ⟨pair "b" 3, 1, 2⟩ (some ⟨pair "b" 2, 1, 1⟩)]
      ∧ e.after.store.records = [⟨pair "a" 1, 4, 4⟩, ⟨pair "b" 3, 1, 2⟩]
      ∧ e.after.counters = [⟨3⟩, ⟨4⟩]
      ∧ (e.after.conduit.poll 0).1 = some .accepted ∧ (e.after.conduit.poll 1).1 = some .refused := by
  intro pair reducers start event deeds w e
  have hcreate : create 2 reducers 2 = .ok start := by decide
  have hcounters : ∀ r ∈ reducers, r.counter < 2 := by decide
  have hinterrupts : w.assembly.Interrupts (.run 0) {} event 1 .revisionRegressed := by
    refine ⟨by decide, by decide, by decide, pair "a" 4, by decide, ?_⟩
    have hfound : ((w.assembly.ledger {}).apply (event.upTo 1)).2.store.get? "a"
        = some ⟨pair "a" 1, 4, 4⟩ := by decide
    exact .regressed rfl (by decide) hfound (by decide)
  have haftermath : Aftermath w (.run 0) {} event 1 .revisionRegressed :=
    aftermath_perform hcreate hcounters deeds hinterrupts
  exact ⟨hcreate, hcounters, hinterrupts, haftermath, by decide, by decide, by decide, by decide,
    by decide⟩

end Delivery

end Assembly

end KeyRelay
