import KeyRelay.Assembly
import KeyRelay.Proofs.Feed
import KeyRelay.Proofs.Run.Refinement

set_option autoImplicit false

/-! # What a command does to the counters, to the store and to the feed

Commands fall into four parts. Some make a record from a draft, past the reducers. Some are
addressed to the feed, and some to the counters. All others work through the reducers or leave
counters, store and feed alone. What a command of the last three parts comes to is said once
(`Assembly.doing_step`): nothing, a revision, or one event that one reducer applies. Whether that
reducer is asked or works in a run makes no difference.

Where all reducers are observed, they publish exactly what they do to the store
(`Assembly.works_step`). -/

namespace KeyRelay

namespace Assembly

/-! ## Commands -/

/-- The command writes to the store past the reducers. -/
def Command.isWrite : Command → Bool
  | .put _ | .delete _ => true
  | _ => false

/-- The command is addressed to the feed. -/
def Command.isFeed : Command → Bool
  | .emit _ _ | .subscribe _ _ | .poll _ | .drain _ | .unsubscribe _ | .closeFeed => true
  | _ => false

/-- What the command answers depends on the feed. -/
def Command.asksFeed : Command → Bool
  | .subscribe _ _ | .poll _ | .drain _ | .unsubscribe _ | .countStreams | .closeFeed => true
  | _ => false

/-- The command makes a record from a draft, past the reducers. -/
def Command.isDraft : Command → Bool
  | .put _ | .delete _ | .emit _ _ => true
  | _ => false

/-- The command is addressed to a reducer or to a run. -/
def Command.reduces : Command → Bool
  | .apply _ _ | .run _ | .pollRun => true
  | _ => false

/-- The event that a command has for a reducer: its own one, or the one that a run takes. -/
def eventsOf (a : Assembly) : Command → List Event
  | .apply _ event => [event]
  | .run _ | .pollRun => (Run.taking a.cancelled a.conduit).map (·.2)
  | _ => []

/-- The outcomes that a reply lists. -/
def Reply.listed : Reply → List Outcome
  | .outcomes all => all
  | _ => []

/-- Carries out commands one after the other. -/
def follow (a : Assembly) (commands : List Command) : Assembly :=
  commands.foldl (fun a command => (a.step command).after) a

/-- The reducer is there, or in the run. -/
def Employs (a : Assembly) (reducer : Reducer) : Prop :=
  some reducer ∈ a.reducers ∨ ∃ started, a.running = some (reducer, started)

/-- What a step comes to, when its command is `reduces` for a reducer and `feeds` for the feed. -/
inductive Doing (a : Assembly) (reduces feeds : Bool) (events : List Event) (e : Effect) : Prop
  | rests (hcounters : e.after.counters = a.counters) (hstore : e.after.store = a.store)
      (hfeed : feeds = false → e.after.feed = a.feed) (houtcomes : e.reply.listed = [])
      (hchanges : e.changes = []) (hcrash : reduces = true → ∀ crash, e.reply ≠ .crashed crash) :
      Doing a reduces feeds events e
  | counts {number : Nat}
      (hcounters : e.after.counters = a.counters.set number (a.counter number).next.2)
      (hstore : e.after.store = a.store) (hfeed : e.after.feed = a.feed)
      (houtcomes : e.reply.listed = []) (hchanges : e.changes = []) (hreduces : reduces = false) :
      Doing a reduces feeds events e
  | applies {reducer : Reducer} {event : Event}
      (hemployed : a.Employs reducer) (hevents : events = [event])
      (hcounters : e.after.counters
        = a.counters.set reducer.counter ((a.ledger reducer).apply event).2.counter)
      (hstore : e.after.store = ((a.ledger reducer).apply event).2.store)
      (hfeed : e.after.feed = a.feed.publishAll e.changes)
      (houtcomes : e.reply.listed = []
        ∨ e.reply.listed = ((a.ledger reducer).apply event).1.outcomes)
      (hchanges : e.changes = reported reducer ((a.ledger reducer).apply event).1.changes)
      (hcrash : ∀ crash, e.reply = .crashed crash →
        ((a.ledger reducer).apply event).1.crash? = some crash) :
      Doing a reduces feeds events e

variable {a b : Assembly}

/-! ## Who is there -/

/-- No counter and no reducer has come or gone, but reducers may be lost. -/
structure Retains (a b : Assembly) : Prop where
  length_counters : b.counters.length = a.counters.length
  employs : ∀ reducer, b.Employs reducer → a.Employs reducer

theorem Retains.trans {c : Assembly} (hab : Retains a b) (hbc : Retains b c) : Retains a c :=
  ⟨hbc.length_counters.trans hab.length_counters,
    fun reducer h => hab.employs reducer (hbc.employs reducer h)⟩

/-- The parts that are looked at are the same. -/
theorem retains_of_eq (hcounters : b.counters = a.counters) (hreducers : b.reducers = a.reducers)
    (hrunning : b.running = a.running) : Retains a b := by
  refine ⟨by rw [hcounters], fun reducer h => ?_⟩
  unfold Employs at h ⊢
  rwa [hreducers, hrunning] at h

/-- A reducer that is moved away leaves the others. -/
theorem mem_reducers_of_set {number : Nat} {reducer : Reducer}
    (h : some reducer ∈ a.reducers.set number none) : some reducer ∈ a.reducers := by
  rcases List.mem_or_eq_of_mem_set h with hmem | heq
  · exact hmem
  · simp at heq

/-- The reducer that is moved into a run was there before. -/
theorem retains_moved {number : Nat} {reducer : Reducer}
    (hreducer : a.reducers[number]?.join = some reducer) :
    Retains a { a with
      reducers := a.reducers.set number none
      receiver := false
      running := some (reducer, false) } := by
  refine ⟨rfl, fun r hr => Or.inl ?_⟩
  rcases hr with hidle | ⟨s, hrun⟩
  · exact mem_reducers_of_set hidle
  · obtain ⟨rfl, -⟩ := Prod.mk.inj (Option.some.inj hrun)
    exact List.mem_of_getElem? (Option.join_eq_some_iff.1 hreducer)

/-! ## Around the conduit -/

/-- Only the conduit, its ends and what is known of sends have changed. -/
structure Elsewhere (a b : Assembly) : Prop where
  counters : b.counters = a.counters
  store : b.store = a.store
  feed : b.feed = a.feed
  reducers : b.reducers = a.reducers
  running : b.running = a.running

theorem Elsewhere.retains (h : Elsewhere a b) : Retains a b :=
  retains_of_eq h.counters h.reducers h.running

theorem elsewhere_dropSend (a : Assembly) (name : String) : Elsewhere a (a.dropSend name) := by
  unfold dropSend
  split <;> exact ⟨rfl, rfl, rfl, rfl, rfl⟩

theorem elsewhere_pollSend (a : Assembly) (name : String) :
    Elsewhere a (a.pollSend name).after := by
  unfold pollSend
  split
  · exact ⟨rfl, rfl, rfl, rfl, rfl⟩
  · split <;> exact ⟨rfl, rfl, rfl, rfl, rfl⟩

theorem elsewhere_startSend (a : Assembly) (name via : String) (event : Event) :
    Elsewhere a (a.startSend name via event).after := by
  unfold startSend
  split
  · have hdrop := elsewhere_dropSend a name
    have hpoll := elsewhere_pollSend { a.dropSend name with
      conduit := ((a.dropSend name).conduit.start event).2
      sends := (a.dropSend name).sends ++ [(name, ((a.dropSend name).conduit.start event).1)] } name
    exact ⟨hpoll.counters.trans hdrop.counters, hpoll.store.trans hdrop.store,
      hpoll.feed.trans hdrop.feed, hpoll.reducers.trans hdrop.reducers,
      hpoll.running.trans hdrop.running⟩
  · exact ⟨rfl, rfl, rfl, rfl, rfl⟩

theorem elsewhere_dropSender (a : Assembly) (name : String) :
    Elsewhere a (a.dropSender name) := by
  unfold dropSender
  split <;> exact ⟨rfl, rfl, rfl, rfl, rfl⟩

theorem elsewhere_cloneSender (a : Assembly) (via name : String) :
    Elsewhere a (a.cloneSender via name).after := by
  unfold cloneSender
  split
  · have hdrop := elsewhere_dropSender { a with conduit := a.conduit.addSender } name
    exact ⟨hdrop.counters, hdrop.store, hdrop.feed, hdrop.reducers, hdrop.running⟩
  · exact ⟨rfl, rfl, rfl, rfl, rfl⟩

theorem elsewhere_pollReceiver (a : Assembly) : Elsewhere a a.pollReceiver.after := by
  unfold pollReceiver
  split <;> exact ⟨rfl, rfl, rfl, rfl, rfl⟩

theorem elsewhere_dropReceiver (a : Assembly) : Elsewhere a a.dropReceiver := by
  unfold dropReceiver
  split <;> exact ⟨rfl, rfl, rfl, rfl, rfl⟩

/-! ## Nothing is done -/

/-- Counters and store are the same, reducers can only be lost, and nothing is told of. -/
structure Silent (a : Assembly) (feeds : Bool) (e : Effect) : Prop where
  counters : e.after.counters = a.counters
  store : e.after.store = a.store
  feed : feeds = false → e.after.feed = a.feed
  employs : ∀ reducer, e.after.Employs reducer → a.Employs reducer
  outcomes : e.reply.listed = []
  changes : e.changes = []

theorem Elsewhere.silent {e : Effect} (h : Elsewhere a e.after) (houtcomes : e.reply.listed = [])
    (hchanges : e.changes = []) : Silent a false e :=
  ⟨h.counters, h.store, fun _ => h.feed, h.retains.employs, houtcomes, hchanges⟩

theorem Silent.doing {feeds : Bool} {e : Effect} (h : Silent a feeds e) :
    Retains a e.after ∧ Doing a false feeds [] e :=
  ⟨⟨by rw [h.counters], h.employs⟩,
    .rests h.counters h.store h.feed h.outcomes h.changes (by simp)⟩

theorem silent_subscribe (a : Assembly) (name : String) (pattern : Pattern) :
    Silent a true (a.subscribe name pattern) := by
  unfold subscribe
  split <;> exact ⟨rfl, rfl, by simp, fun _ h => h, rfl, rfl⟩

theorem silent_pollStream (a : Assembly) (name : String) : Silent a true (a.pollStream name) := by
  refine ⟨rfl, rfl, by simp, fun _ h => h, ?_, rfl⟩
  simp only [pollStream]
  split <;> rfl

theorem silent_drainStream (a : Assembly) (name : String) :
    Silent a true (a.drainStream name) := by
  refine ⟨rfl, rfl, by simp, fun _ h => h, ?_, rfl⟩
  simp only [drainStream]
  split <;> rfl

theorem silent_pollSend (a : Assembly) (name : String) : Silent a false (a.pollSend name) := by
  refine (elsewhere_pollSend a name).silent ?_ ?_
  all_goals
    unfold pollSend
    split
    · rfl
    · split <;> rfl

theorem silent_startSend (a : Assembly) (name via : String) (event : Event) :
    Silent a false (a.startSend name via event) := by
  refine (elsewhere_startSend a name via event).silent ?_ ?_
  · unfold startSend
    split
    · exact (silent_pollSend _ name).outcomes
    · rfl
  · unfold startSend
    split
    · exact (silent_pollSend _ name).changes
    · rfl

theorem silent_cloneSender (a : Assembly) (via name : String) :
    Silent a false (a.cloneSender via name) := by
  refine (elsewhere_cloneSender a via name).silent ?_ ?_
  all_goals
    unfold cloneSender
    split <;> rfl

theorem listed_replyTo (receipt : Conduit.Receipt) : (replyTo receipt).listed = [] := by
  unfold replyTo
  split
  · split <;> rfl
  · rfl

theorem silent_pollReceiver (a : Assembly) : Silent a false a.pollReceiver := by
  refine (elsewhere_pollReceiver a).silent ?_ ?_
  · unfold pollReceiver
    split
    · exact listed_replyTo _
    · rfl
  · unfold pollReceiver
    split <;> rfl

theorem silent_dropRun (a : Assembly) :
    Silent a false ⟨.flag (some a.running.isSome), [], [], a.dropRun⟩ := by
  unfold dropRun
  split
  · refine ⟨rfl, rfl, fun _ => rfl, fun _ h => ?_, rfl, rfl⟩
    exact h.imp id fun ⟨_, hrun⟩ => absurd hrun (by simp)
  · exact ⟨rfl, rfl, fun _ => rfl, fun _ h => h, rfl, rfl⟩

/-! ## The streams of the feed -/

/-- The commands that depend on the feed publish nothing and leave the other parts alone. -/
theorem exists_streams_step (a : Assembly) {command : Command} (hasks : command.asksFeed = true) :
    ∃ streams closed, (a.step command).after = { a with feed := { a.feed with streams, closed } } := by
  have hmove : ∀ {name : String} (f : Feed) (position : Nat),
      (∃ streams, f = { a.feed with streams }) →
      ∃ streams, f.move name position = { a.feed with streams } := by
    rintro name f position ⟨streams, rfl⟩
    exact ⟨_, rfl⟩
  cases command with
  | subscribe name pattern =>
    simp only [step, subscribe]
    split
    · exact ⟨a.feed.streams, a.feed.closed, rfl⟩
    · exact ⟨_, a.feed.closed, rfl⟩
  | poll name =>
    obtain ⟨streams, hfeed⟩ : ∃ streams, (a.feed.poll name).2.2 = { a.feed with streams } :=
      Feed.poll_preserves hmove ⟨_, rfl⟩
    exact ⟨streams, a.feed.closed, congrArg (fun feed => { a with feed }) hfeed⟩
  | drain name =>
    obtain ⟨streams, hfeed⟩ : ∃ streams, (a.feed.drain name).2.2 = { a.feed with streams } :=
      Feed.drainFor_preserves hmove ⟨_, rfl⟩ _
    exact ⟨streams, a.feed.closed, congrArg (fun feed => { a with feed }) hfeed⟩
  | unsubscribe name => exact ⟨_, a.feed.closed, rfl⟩
  | countStreams => exact ⟨a.feed.streams, a.feed.closed, rfl⟩
  | closeFeed => exact ⟨a.feed.streams, true, rfl⟩
  | _ => simp [Command.asksFeed] at hasks

/-! ## Through the reducers -/

/-- What an observed reducer does is published, and nothing of what an unobserved one does. -/
theorem feed_settle (a : Assembly) (reducer : Reducer) (ledger : Ledger)
    (changes : List Change) :
    (a.settle reducer ledger changes).feed = a.feed.publishAll (reported reducer changes) := by
  unfold settle reported
  split <;> rfl

theorem sublist_reported (reducer : Reducer) (changes : List Change) :
    (reported reducer changes).Sublist changes := by
  unfold reported
  split
  · exact .refl _
  · exact List.nil_sublist _

/-- A counter that is put back is where it was. -/
theorem counters_set_self (a : Assembly) (number : Nat) :
    a.counters.set number (a.counter number) = a.counters := by
  refine List.ext_getElem? fun i => ?_
  rw [List.getElem?_set]
  by_cases hi : number = i
  · subst hi
    rw [if_pos rfl]
    split
    · next hlt => simp [counter, List.getElem?_eq_getElem hlt]
    · next hge => rw [List.getElem?_eq_none (Nat.le_of_not_lt hge)]
  · rw [if_neg hi]

/-- What applying an event comes to, whatever the answer is. -/
theorem applyEvent_of_reducer {number : Nat} {reducer : Reducer}
    (hreducer : a.reducers[number]? = some (some reducer)) (event : Event) :
    (a.applyEvent number event).after
        = a.settle reducer ((a.ledger reducer).apply event).2
          ((a.ledger reducer).apply event).1.changes
      ∧ (a.applyEvent number event).changes
        = reported reducer ((a.ledger reducer).apply event).1.changes := by
  simp only [applyEvent, hreducer, and_self]

/-- An event that does not crash is answered by what became of its items, -/
theorem reply_applyEvent_of_none {number : Nat} {reducer : Reducer} {event : Event}
    (hreducer : a.reducers[number]? = some (some reducer))
    (hcrash : ((a.ledger reducer).apply event).1.crash? = none) :
    (a.applyEvent number event).reply
      = .outcomes ((a.ledger reducer).apply event).1.outcomes := by
  simp only [applyEvent, hreducer, hcrash]

/-- and a crash takes their place. -/
theorem reply_applyEvent_of_some {number : Nat} {reducer : Reducer} {event : Event}
    {crash : Crash} (hreducer : a.reducers[number]? = some (some reducer))
    (hcrash : ((a.ledger reducer).apply event).1.crash? = some crash) :
    (a.applyEvent number event).reply = .crashed crash := by
  simp only [applyEvent, hreducer, hcrash]

theorem doing_applyEvent (a : Assembly) (number : Nat) (event : Event) :
    Retains a (a.applyEvent number event).after
      ∧ Doing a true false [event] (a.applyEvent number event) := by
  cases hfound : a.reducers[number]?.join with
  | none =>
    unfold applyEvent
    split
    · next reducer hreducer => simp [hreducer] at hfound
    · exact ⟨retains_of_eq rfl rfl rfl, .rests rfl rfl (fun _ => rfl) rfl rfl (by simp)⟩
  | some reducer =>
    have hreducer := Option.join_eq_some_iff.1 hfound
    have hemployed : a.Employs reducer := Or.inl (List.mem_of_getElem? hreducer)
    obtain ⟨hafter, hchanges⟩ := applyEvent_of_reducer hreducer event
    have hfeed : (a.applyEvent number event).after.feed
        = a.feed.publishAll (a.applyEvent number event).changes := by
      rw [hafter, hchanges, feed_settle]
    refine ⟨hafter ▸ ⟨List.length_set, fun _ h => h⟩, ?_⟩
    cases hcrash : ((a.ledger reducer).apply event).1.crash? with
    | none =>
      have hreply := reply_applyEvent_of_none hreducer hcrash
      refine .applies hemployed rfl (by rw [hafter]; rfl) (by rw [hafter]; rfl) hfeed
        (Or.inr (by rw [hreply]; rfl)) hchanges fun crash hcrashed => ?_
      rw [hreply] at hcrashed
      simp at hcrashed
    | some crash =>
      have hreply := reply_applyEvent_of_some hreducer hcrash
      refine .applies hemployed rfl (by rw [hafter]; rfl) (by rw [hafter]; rfl) hfeed
        (Or.inl (by rw [hreply]; rfl)) hchanges fun crash' hcrashed => ?_
      rw [hreply] at hcrashed
      rw [hcrash, Reply.crashed.inj hcrashed]

/-- A run takes one event at a time. -/
theorem taking_cases (cancelled : Bool) (c : Conduit) :
    (Run.taking cancelled c).map (·.2) = []
      ∨ ∃ event, (Run.taking cancelled c).map (·.2) = [event] := by
  rcases Run.taking_eq_nil_or_singleton cancelled c with htaking | ⟨t, event, htaking⟩
  · exact Or.inl (by rw [htaking, List.map_nil])
  · exact Or.inr ⟨event, by rw [htaking, List.map_singleton]⟩

/-- The answer of a run is never a list of outcomes. -/
theorem listed_pollRun (a : Assembly) : a.pollRun.reply.listed = [] := by
  unfold pollRun
  split
  · rfl
  · simp only
    split <;> rfl

/-- The answer of a run is a crash only if the run has crashed. -/
theorem status_of_crashed {reducer : Reducer} {started : Bool}
    (hrunning : a.running = some (reducer, started)) {crash : Crash}
    (hcrashed : a.pollRun.reply = .crashed crash) :
    (Run.poll started a.cancelled a.conduit (a.ledger reducer)).status = .crashed crash := by
  simp only [pollRun, hrunning] at hcrashed
  split at hcrashed
  · next heq => rw [heq, Reply.crashed.inj hcrashed]
  · simp at hcrashed

theorem retains_pollRun (a : Assembly) : Retains a a.pollRun.after := by
  unfold pollRun
  split
  · exact retains_of_eq rfl rfl rfl
  · next reducer started hrunning =>
      refine ⟨List.length_set, fun r hr => ?_⟩
      rcases hr with hidle | ⟨s, hrun⟩
      · exact Or.inl hidle
      · -- If a run is left, it is the one that was polled.
        simp only at hrun
        split at hrun
        · obtain ⟨rfl, -⟩ := Prod.mk.inj (Option.some.inj hrun)
          exact Or.inr ⟨started, hrunning⟩
        · simp at hrun

/-- What a poll of the run leaves of the ledger and reports. -/
theorem pollRun_of_running {reducer : Reducer} {started : Bool}
    (hrunning : a.running = some (reducer, started)) {reports : List Report} {l : Ledger}
    (happlied : Ledger.applyAll ((Run.taking a.cancelled a.conduit).map (·.2)) (a.ledger reducer)
      = (reports, l)) :
    a.pollRun.after.counters = a.counters.set reducer.counter l.counter
      ∧ a.pollRun.after.store = l.store
      ∧ a.pollRun.after.feed = a.feed.publishAll a.pollRun.changes
      ∧ a.pollRun.changes = reported reducer (reports.flatMap (·.changes))
      ∧ ∀ crash, a.pollRun.reply = .crashed crash → ∃ r ∈ reports, r.crash? = some crash := by
  have hp := Run.polled_poll started a.cancelled a.conduit (a.ledger reducer)
  have hledger := hp.ledger
  have hchanges := hp.changes
  have hcrashed := hp.crashed
  rw [happlied] at hledger hchanges hcrashed
  refine ⟨?_, ?_, ?_, ?_, fun crash hreply => hcrashed crash (status_of_crashed hrunning hreply)⟩
  all_goals simp only [pollRun, hrunning]
  · exact congrArg (fun l : Ledger => a.counters.set reducer.counter l.counter) hledger
  · exact congrArg Ledger.store hledger
  · exact feed_settle a reducer _ _
  · rw [hchanges]

theorem doing_pollRun (a : Assembly) : Doing a true false (a.eventsOf .pollRun) a.pollRun := by
  cases hrunning : a.running with
  | none =>
    refine .rests ?_ ?_ ?_ (listed_pollRun a) ?_ ?_
    all_goals simp [pollRun, hrunning]
  | some run =>
    obtain ⟨reducer, started⟩ := run
    rcases taking_cases a.cancelled a.conduit with htaking | ⟨event, htaking⟩
    · have happlied : Ledger.applyAll ((Run.taking a.cancelled a.conduit).map (·.2))
          (a.ledger reducer) = ([], a.ledger reducer) := by
        rw [htaking]
        rfl
      obtain ⟨hcounters, hstore, hfeed, hchanges, hcrash⟩ :=
        pollRun_of_running hrunning happlied
      have hnone : a.pollRun.changes = [] := by simp [hchanges, reported]
      refine .rests (hcounters.trans (counters_set_self a reducer.counter)) hstore (fun _ => ?_)
        (listed_pollRun a) hnone fun _ crash hreply => ?_
      · rw [hfeed, hnone]
        rfl
      · obtain ⟨report, hmem, -⟩ := hcrash crash hreply
        simp at hmem
    · have happlied : Ledger.applyAll ((Run.taking a.cancelled a.conduit).map (·.2))
          (a.ledger reducer)
          = ([((a.ledger reducer).apply event).1], ((a.ledger reducer).apply event).2) := by
        rw [htaking]
        rfl
      obtain ⟨hcounters, hstore, hfeed, hchanges, hcrash⟩ :=
        pollRun_of_running hrunning happlied
      refine .applies (Or.inr ⟨started, hrunning⟩) htaking hcounters hstore hfeed
        (Or.inl (listed_pollRun a)) ?_ fun crash hreply => ?_
      · rw [hchanges, List.flatMap_singleton]
      · obtain ⟨report, hmem, hreport⟩ := hcrash crash hreply
        obtain rfl := List.mem_singleton.1 hmem
        exact hreport

/-- A step from a state with the same parts, in which no reducer is new. -/
theorem Doing.of_moved {reduces feeds : Bool} {events : List Event} {e : Effect}
    (h : Doing b reduces feeds events e) (hb : Retains a b) (hcounters : b.counters = a.counters)
    (hstore : b.store = a.store) (hfeed : b.feed = a.feed) : Doing a reduces feeds events e := by
  have hledger : ∀ reducer, b.ledger reducer = a.ledger reducer := fun reducer => by
    simp only [ledger, counter, hcounters, hstore]
  cases h with
  | rests hc hs hf houtcomes hchanges hcrash =>
    exact .rests (hc.trans hcounters) (hs.trans hstore) (fun hn => (hf hn).trans hfeed)
      houtcomes hchanges hcrash
  | counts hc hs hf houtcomes hchanges hreduces =>
    rw [counter, hcounters] at hc
    exact .counts hc (hs.trans hstore) (hf.trans hfeed) houtcomes hchanges hreduces
  | applies hemployed hevents hc hs hf houtcomes hchanges hcrash =>
    rw [hledger] at hc hs houtcomes hchanges hcrash
    rw [hcounters] at hc
    rw [hfeed] at hf
    exact .applies (hb.employs _ hemployed) hevents hc hs hf houtcomes hchanges hcrash

theorem doing_startRun (a : Assembly) (number : Nat) :
    Retains a (a.startRun number).after
      ∧ Doing a true false (a.eventsOf (.run number)) (a.startRun number) := by
  unfold startRun
  simp only
  split
  · next reducer hreducer _ =>
      have hmoved := retains_moved hreducer
      exact ⟨hmoved.trans (retains_pollRun _), (doing_pollRun _).of_moved hmoved rfl rfl rfl⟩
  · -- There is no run, but the reducer and the receiver are lost.
    have hlost : Retains a { a with reducers := a.reducers.set number none } :=
      ⟨rfl, fun _ hr => hr.imp mem_reducers_of_set id⟩
    have hdrop := elsewhere_dropReceiver { a with reducers := a.reducers.set number none }
    exact ⟨hlost.trans hdrop.retains,
      .rests hdrop.counters hdrop.store (fun _ => hdrop.feed) rfl rfl (by simp)⟩

/-! ## Every command -/

/-- Whatever command is carried out, without a record from a draft: no counter and no reducer comes
    in, and nothing is done, or a revision is taken, or an event is applied. -/
theorem doing_step (a : Assembly) {command : Command} (hdraft : command.isDraft = false) :
    Retains a (a.step command).after
      ∧ Doing a command.reduces command.isFeed (a.eventsOf command) (a.step command) := by
  have hsilent : ∀ {e}, Silent a false e → Retains a e.after ∧ Doing a false false [] e :=
    fun he => he.doing
  have hfeed : ∀ {e}, Silent a true e → Retains a e.after ∧ Doing a false true [] e :=
    fun he => he.doing
  cases command with
  | put _ => simp [Command.isDraft] at hdraft
  | delete _ => simp [Command.isDraft] at hdraft
  | emit _ _ => simp [Command.isDraft] at hdraft
  | apply number event => exact doing_applyEvent a number event
  | run number => exact doing_startRun a number
  | pollRun => exact ⟨retains_pollRun a, doing_pollRun a⟩
  | next number => exact ⟨⟨List.length_set, fun _ h => h⟩, .counts rfl rfl rfl rfl rfl rfl⟩
  | subscribe name pattern => exact hfeed (silent_subscribe a name pattern)
  | poll name => exact hfeed (silent_pollStream a name)
  | drain name => exact hfeed (silent_drainStream a name)
  | unsubscribe _ => exact hfeed ⟨rfl, rfl, by simp, fun _ h => h, rfl, rfl⟩
  | closeFeed => exact hfeed ⟨rfl, rfl, by simp, fun _ h => h, rfl, rfl⟩
  | send name via event => exact hsilent (silent_startSend a name via event)
  | pollSend name => exact hsilent (silent_pollSend a name)
  | dropSend name => exact hsilent ((elsewhere_dropSend a name).silent rfl rfl)
  | cloneSender via name => exact hsilent (silent_cloneSender a via name)
  | dropSender via => exact hsilent ((elsewhere_dropSender a via).silent rfl rfl)
  | recv => exact hsilent (silent_pollReceiver a)
  | dropReceiver => exact hsilent ((elsewhere_dropReceiver a).silent rfl rfl)
  | dropRun => exact hsilent (silent_dropRun a)
  | cancel => exact hsilent ⟨rfl, rfl, fun _ => rfl, fun _ h => h, rfl, rfl⟩
  | countStreams => exact hsilent ⟨rfl, rfl, fun _ => rfl, fun _ h => h, rfl, rfl⟩
  | isClosed _ => exact hsilent ⟨rfl, rfl, fun _ => rfl, fun _ h => h, rfl, rfl⟩
  | current _ => exact hsilent ⟨rfl, rfl, fun _ => rfl, fun _ h => h, rfl, rfl⟩
  | get _ => exact hsilent ⟨rfl, rfl, fun _ => rfl, fun _ h => h, rfl, rfl⟩
  | range _ => exact hsilent ⟨rfl, rfl, fun _ => rfl, fun _ h => h, rfl, rfl⟩
  | keys => exact hsilent ⟨rfl, rfl, fun _ => rfl, fun _ h => h, rfl, rfl⟩
  | isEmpty => exact hsilent ⟨rfl, rfl, fun _ => rfl, fun _ h => h, rfl, rfl⟩
  | logValue _ => exact hsilent ⟨rfl, rfl, fun _ => rfl, fun _ h => h, rfl, rfl⟩

/-! ## The start -/

theorem exists_of_create {counters capacity : Nat} {reducers : List Reducer}
    (h : create counters reducers capacity = .ok a) :
    ∃ feed, Feed.create capacity = .ok feed
      ∧ a = { counters := List.replicate counters {}
              reducers := reducers.map some
              feed
              senders := [firstSender] } := by
  unfold create at h
  cases hfeed : Feed.create capacity with
  | error crash =>
    rw [hfeed] at h
    simp [Except.map] at h
  | ok feed =>
    rw [hfeed] at h
    exact ⟨feed, rfl, (Except.ok.inj h).symm⟩

theorem employs_create {counters capacity : Nat} {reducers : List Reducer}
    (h : create counters reducers capacity = .ok a) {reducer : Reducer}
    (hemployed : a.Employs reducer) : reducer ∈ reducers := by
  obtain ⟨feed, -, rfl⟩ := exists_of_create h
  rcases hemployed with hidle | ⟨started, hrunning⟩
  · simpa using hidle
  · simp at hrunning

/-! ## Observed reducers -/

/-- Every reducer publishes what it does, also the one in the run. -/
structure Observed (a : Assembly) : Prop where
  idle : ∀ {reducer}, some reducer ∈ a.reducers → reducer.observed = true
  running : ∀ {reducer started}, a.running = some (reducer, started) → reducer.observed = true

theorem Observed.of_employs (h : a.Observed) {reducer : Reducer}
    (hemployed : a.Employs reducer) : reducer.observed = true := by
  rcases hemployed with hidle | ⟨started, hrunning⟩
  · exact h.idle hidle
  · exact h.running hrunning

theorem Observed.of_retains (h : a.Observed) (hb : Retains a b) : b.Observed where
  idle := fun hmem => h.of_employs (hb.employs _ (Or.inl hmem))
  running := fun hrun => h.of_employs (hb.employs _ (Or.inr ⟨_, hrun⟩))

theorem observed_create {counters capacity : Nat} {reducers : List Reducer}
    (h : create counters reducers capacity = .ok a)
    (hobserved : ∀ reducer ∈ reducers, reducer.observed = true) : a.Observed where
  idle := fun hmem => hobserved _ (employs_create h (Or.inl hmem))
  running := fun hrun => hobserved _ (employs_create h (Or.inr ⟨_, hrun⟩))

/-- The store and the feed have come by the same changes, and all reducers are observed. -/
structure Works (a : Assembly) (changes : List Change) (b : Assembly) : Prop where
  store : a.store.Evolves changes b.store
  feed : b.feed = a.feed.publishAll changes
  observed : b.Observed

/-- What is neither a write past the reducers nor addressed to the feed publishes exactly what it
    does to the store. -/
theorem works_step (h : a.Observed) {command : Command} (hwrite : command.isWrite = false)
    (hfeed : command.isFeed = false) : ∃ changes, Works a changes (a.step command).after := by
  have hdraft : command.isDraft = false := by
    cases command <;> simp [Command.isWrite, Command.isFeed] at hwrite hfeed <;> rfl
  obtain ⟨hretains, hdoing⟩ := doing_step a hdraft
  have hobserved := h.of_retains hretains
  cases hdoing with
  | rests _ hstore hsame _ _ _ =>
    exact ⟨[], by rw [hstore]; exact .refl a.store, hsame hfeed, hobserved⟩
  | counts _ hstore hsame _ _ _ =>
    exact ⟨[], by rw [hstore]; exact .refl a.store, hsame, hobserved⟩
  | @applies reducer event hemployed _ _ hstore hpublished _ hchanges _ =>
    rw [reported, if_pos (h.of_employs hemployed)] at hchanges
    refine ⟨_, ?_, hpublished, hobserved⟩
    rw [hstore, hchanges]
    exact Ledger.evolves_apply (a.ledger reducer) event

end Assembly

end KeyRelay
