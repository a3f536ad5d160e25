import KeyRelay.Proofs.Assembly.Steps
import KeyRelay.Proofs.Feed.Independence

set_option autoImplicit false

/-! # Watchers do not interfere

Take a run of an assembly and leave out everything that is done with some of the streams. Counters,
store and the other parts go through the same states, every other command has the same answer, and
every other stream is told the same, also one that is started under a name that was left out
(`Assembly.independent_run`).

It also makes no difference whether the feed takes changes while it has no streams. It does in
`Assembly.step`; in `Assembly.stepOn` it may refuse them, so that a stream that is the only one for
some time decides what the feed takes. Either may be compared with the other. -/

namespace KeyRelay

namespace Assembly

variable {a b : Assembly} {command : Command} {heeded : String → Bool}

/-! ## Commands -/

/-- The name of the stream that a command is addressed to. -/
def Command.stream? : Command → Option String
  | .subscribe name _ | .poll name | .drain name | .unsubscribe name => some name
  | _ => none

/-- The command is addressed to a stream that is heeded, or to none. -/
def Command.isKept (heeded : String → Bool) (command : Command) : Bool :=
  command.stream?.all heeded

/-- Besides, it does not count the streams. -/
def Command.isApart (heeded : String → Bool) : Command → Bool
  | .countStreams => false
  | command => command.isKept heeded

/-- What is left of commands without those to streams that are not heeded. -/
def keeping (heeded : String → Bool) (commands : List Command) : List Command :=
  commands.filter (·.isKept heeded)

theorem keeping_all (commands : List Command) : keeping (fun _ => true) commands = commands := by
  refine List.filter_eq_self.2 fun command _ => ?_
  rw [Command.isKept]
  cases command.stream? <;> rfl

theorem Command.isApart_of_not_isKept (command : Command) (h : command.isKept heeded = false) :
    command.isApart heeded = false := by
  cases command <;> first | rfl | exact h

/-! ## Runs -/

/-- Carries out a command. If `refuses`, the feed takes no changes while it has no streams. -/
def stepOn (refuses : Bool) (a : Assembly) (command : Command) : Effect :=
  let e := a.step command
  if refuses && a.feed.streams.isEmpty then
    { e with after := { e.after with
        feed := { e.after.feed with published := a.feed.published, kept := a.feed.kept } } }
  else e

/-- All parts but the feed. -/
def unfed (a : Assembly) : Assembly := { a with feed := { width := 0 } }

/-- An effect, whatever becomes of the feed. -/
def Effect.unfed (e : Effect) : Effect := { e with after := e.after.unfed }

/-- Carries out commands one after the other. -/
def followOn (refuses : Bool) (a : Assembly) (commands : List Command) : Assembly :=
  commands.foldl (fun a command => (a.stepOn refuses command).after) a

/-- Commands that are carried out one after the other, with their effects. -/
def sights (refuses : Bool) : Assembly → List Command → List (Command × Effect)
  | _, [] => []
  | a, command :: rest =>
      (command, (a.stepOn refuses command).unfed)
        :: sights refuses (a.stepOn refuses command).after rest

/-! ## Commands that do not depend on the feed -/

/-- The same effect with another feed. -/
def Effect.on (e : Effect) (feed : Feed) : Effect := { e with after := { e.after with feed } }

theorem pollSend_on (a : Assembly) (feed : Feed) (name : String) :
    { a with feed }.pollSend name = (a.pollSend name).on feed := by
  have hticket : { a with feed }.ticket? name = a.ticket? name := rfl
  unfold pollSend
  simp only [hticket]
  cases a.ticket? name with
  | none => rfl
  | some ticket =>
    simp only
    split <;> rfl

theorem dropSend_on (a : Assembly) (feed : Feed) (name : String) :
    { a with feed }.dropSend name = { a.dropSend name with feed } := by
  have hticket : { a with feed }.ticket? name = a.ticket? name := rfl
  unfold dropSend
  simp only [hticket]
  split <;> rfl

theorem startSend_on (a : Assembly) (feed : Feed) (name via : String) (event : Event) :
    { a with feed }.startSend name via event = (a.startSend name via event).on feed := by
  unfold startSend
  simp only [dropSend_on]
  split
  · exact pollSend_on { a.dropSend name with
      conduit := ((a.dropSend name).conduit.start event).2
      sends := (a.dropSend name).sends ++ [(name, ((a.dropSend name).conduit.start event).1)] }
      feed name
  · rfl

theorem dropSender_on (a : Assembly) (feed : Feed) (name : String) :
    { a with feed }.dropSender name = { a.dropSender name with feed } := by
  unfold dropSender
  split <;> rfl

theorem cloneSender_on (a : Assembly) (feed : Feed) (via name : String) :
    { a with feed }.cloneSender via name = (a.cloneSender via name).on feed := by
  have hdrop := dropSender_on { a with conduit := a.conduit.addSender } feed name
  unfold cloneSender
  split
  · simp only [hdrop]
    rfl
  · rfl

theorem pollReceiver_on (a : Assembly) (feed : Feed) :
    { a with feed }.pollReceiver = a.pollReceiver.on feed := by
  unfold pollReceiver
  split <;> rfl

theorem dropReceiver_on (a : Assembly) (feed : Feed) :
    { a with feed }.dropReceiver = { a.dropReceiver with feed } := by
  unfold dropReceiver
  split <;> rfl

theorem dropRun_on (a : Assembly) (feed : Feed) :
    { a with feed }.dropRun = { a.dropRun with feed } := by
  unfold dropRun
  split <;> rfl

theorem settle_on (a : Assembly) (feed : Feed) (reducer : Reducer) (ledger : Ledger)
    (changes : List Change) :
    { a with feed }.settle reducer ledger changes
      = { a.settle reducer ledger changes with
          feed := feed.publishAll (reported reducer changes) } := by
  unfold settle reported
  split <;> rfl

/-- The effect is the same whatever the feed is, up to the changes that are published to it. -/
def Aloof (effect : Assembly → Effect) (a : Assembly) : Prop :=
  ∃ changes, ∀ feed : Feed, effect { a with feed } = (effect a).on (feed.publishAll changes)

theorem aloof_applyEvent (a : Assembly) (number : Nat) (event : Event) :
    Aloof (·.applyEvent number event) a := by
  cases hreducer : a.reducers[number]? with
  | none => exact ⟨[], fun feed => by simp only [applyEvent, hreducer]; rfl⟩
  | some reducer? =>
    cases reducer? with
    | none => exact ⟨[], fun feed => by simp only [applyEvent, hreducer]; rfl⟩
    | some reducer =>
      refine ⟨reported reducer ((a.ledger reducer).apply event).1.changes, fun feed => ?_⟩
      simp only [applyEvent, hreducer, settle_on]
      rfl

theorem aloof_pollRun (a : Assembly) : Aloof pollRun a := by
  -- The run is taken out of `a`, so that it is known wherever it occurs.
  have h : ∀ running, Aloof pollRun { a with running } := by
    intro running
    cases running with
    | none => exact ⟨[], fun _ => rfl⟩
    | some run =>
      obtain ⟨reducer, started⟩ := run
      refine ⟨reported reducer
        (Run.poll started a.cancelled a.conduit (a.ledger reducer)).changes, fun feed => ?_⟩
      simp only [pollRun, feed_settle]
      rfl
  exact h a.running

theorem aloof_startRun (a : Assembly) (number : Nat) : Aloof (·.startRun number) a := by
  have hlost := dropReceiver_on { a with reducers := a.reducers.set number none }
  cases hreducer : a.reducers[number]?.join with
  | none => exact ⟨[], fun feed => by simp only [startRun, hreducer]; rw [hlost feed]; rfl⟩
  | some reducer =>
    cases hreceiver : a.receiver with
    | false => exact ⟨[], fun feed => by simp only [startRun, hreducer, hreceiver]; rfl⟩
    | true =>
      obtain ⟨changes, hrun⟩ := aloof_pollRun { a with
        reducers := a.reducers.set number none
        receiver := false
        running := some (reducer, false) }
      exact ⟨changes, fun feed => by simp only [startRun, hreducer, hreceiver]; exact hrun feed⟩

theorem aloof_emitChange (a : Assembly) (draft : Draft) (delete : Bool) :
    Aloof (·.emitChange draft delete) a := by
  have hrecord : ∀ feed, { a with feed }.recordOf draft = a.recordOf draft := fun _ => rfl
  cases hmade : a.recordOf draft with
  | error crash => exact ⟨[], fun feed => by simp only [emitChange, hrecord, hmade]; rfl⟩
  | ok record =>
    have hprevious : ∀ feed, { a with feed }.previousOf draft = a.previousOf draft := fun _ => rfl
    cases delete with
    | false =>
      refine ⟨[.put record (a.previousOf draft)], fun feed => ?_⟩
      simp only [emitChange, hrecord, hmade, hprevious]
      rfl
    | true =>
      cases hfound : a.previousOf draft with
      | none =>
        refine ⟨[.put record none], fun feed => ?_⟩
        simp only [emitChange, hrecord, hmade, hprevious, hfound]
        rfl
      | some previous =>
        refine ⟨[.delete record previous], fun feed => ?_⟩
        simp only [emitChange, hrecord, hmade, hprevious, hfound]
        rfl

theorem aloof_step (a : Assembly) (h : command.asksFeed = false) : Aloof (·.step command) a := by
  cases command with
  | subscribe _ _ | poll _ | drain _ | unsubscribe _ | countStreams | closeFeed =>
    simp [Command.asksFeed] at h
  | apply number event => exact aloof_applyEvent a number event
  | run number => exact aloof_startRun a number
  | pollRun => exact aloof_pollRun a
  | emit draft delete => exact aloof_emitChange a draft delete
  | put draft =>
    refine ⟨[], fun feed => ?_⟩
    have hrecord : { a with feed }.recordOf draft = a.recordOf draft := rfl
    simp only [step, putRecord, hrecord]
    split <;> rfl
  | delete draft =>
    refine ⟨[], fun feed => ?_⟩
    have hrecord : { a with feed }.recordOf draft = a.recordOf draft := rfl
    simp only [step, deleteRecord, hrecord]
    split <;> rfl
  | send name via event => exact ⟨[], fun feed => startSend_on a feed name via event⟩
  | pollSend name => exact ⟨[], fun feed => pollSend_on a feed name⟩
  | dropSend name => exact ⟨[], fun feed => by simp only [step, dropSend_on]; rfl⟩
  | cloneSender via name => exact ⟨[], fun feed => cloneSender_on a feed via name⟩
  | dropSender via => exact ⟨[], fun feed => by simp only [step, dropSender_on]; rfl⟩
  | recv => exact ⟨[], fun feed => pollReceiver_on a feed⟩
  | dropReceiver => exact ⟨[], fun feed => by simp only [step, dropReceiver_on]; rfl⟩
  | dropRun => exact ⟨[], fun feed => by simp only [step, dropRun_on]; rfl⟩
  | next _ | current _ | get _ | range _ | keys | isEmpty | logValue _ | isClosed _ | cancel =>
    exact ⟨[], fun _ => rfl⟩

/-! ## One step -/

/-- A feed that refuses changes refuses all changes of a command. -/
theorem stepOn_of_aloof (refuses : Bool) {changes : List Change}
    (h : ∀ feed : Feed, { a with feed }.step command = (a.step command).on (feed.publishAll changes)) :
    a.stepOn refuses command = (a.step command).on (a.feed.hear refuses changes) := by
  have hself : a.step command = (a.step command).on (a.feed.publishAll changes) := h a.feed
  obtain ⟨published, kept, hfeed⟩ := Feed.exists_publishAll a.feed changes
  unfold stepOn Feed.hear
  split
  · rw [hself, hfeed]
    rfl
  · exact hself

theorem stepOn_of_asks (refuses : Bool) (a : Assembly) (hasks : command.asksFeed = true) :
    a.stepOn refuses command = a.step command := by
  obtain ⟨streams, closed, hafter⟩ := exists_streams_step a hasks
  unfold stepOn
  generalize a.step command = e at hafter ⊢
  obtain ⟨reply, changes, entries, after⟩ := e
  obtain rfl : after = _ := hafter
  exact ite_self _

/-- Two assemblies have the same parts, up to feeds that are alike to the heeded streams. -/
structure Parallel (heeded : String → Bool) (a b : Assembly) : Prop where
  others : ∃ feed, b = { a with feed }
  feeds : ∃ early early' late, Feed.Alike heeded a.feed b.feed early early' late

theorem Parallel.unfed (h : Parallel heeded a b) : a.unfed = b.unfed := by
  obtain ⟨feed, rfl⟩ := h.others
  rfl

/-- A command to a stream that is not heeded may be carried out in one of the assemblies only. -/
theorem Parallel.step_left (h : Parallel heeded a b) (refuses : Bool)
    (hkept : command.isKept heeded = false) :
    Parallel heeded (a.stepOn refuses command).after b := by
  obtain ⟨⟨feed, rfl⟩, _, _, _, hfeeds⟩ := h
  cases command with
  | subscribe name pattern =>
    rw [stepOn_of_asks refuses a rfl]
    simp only [step, subscribe]
    split
    · exact ⟨⟨feed, rfl⟩, _, _, _, hfeeds⟩
    · exact ⟨⟨feed, rfl⟩, _, _, _, hfeeds.subscribe_left hkept pattern⟩
  | poll name =>
    rw [stepOn_of_asks refuses a rfl]
    exact ⟨⟨feed, rfl⟩, _, _, _, hfeeds.poll_left hkept⟩
  | drain name =>
    rw [stepOn_of_asks refuses a rfl]
    exact ⟨⟨feed, rfl⟩, _, _, _, hfeeds.drain_left hkept⟩
  | unsubscribe name =>
    rw [stepOn_of_asks refuses a rfl]
    exact ⟨⟨feed, rfl⟩, _, _, _, hfeeds.unsubscribe_left hkept⟩
  | _ => simp [Command.isKept, Command.stream?] at hkept

/-- The assemblies stay parallel, and the effects are the same. -/
structure Parallel.Steps (heeded : String → Bool) (command : Command) (e e' : Effect) : Prop where
  after : Parallel heeded e.after e'.after
  effect : command.isApart heeded = true → e.unfed = e'.unfed

theorem Parallel.step_asks (h : Parallel heeded a b) (hasks : command.asksFeed = true)
    (hkept : command.isKept heeded = true) :
    Parallel.Steps heeded command (a.step command) (b.step command) := by
  obtain ⟨⟨feed, rfl⟩, _, _, _, hfeeds⟩ := h
  cases command with
  | subscribe name pattern =>
    have hclosed : a.feed.closed = feed.closed := hfeeds.closed
    simp only [step, subscribe, hclosed]
    split
    · exact ⟨⟨⟨feed, rfl⟩, _, _, _, hfeeds⟩, fun _ => rfl⟩
    · exact ⟨⟨⟨_, rfl⟩, _, _, _, hfeeds.subscribe name pattern⟩, fun _ => rfl⟩
  | poll name =>
    obtain ⟨hanswer, hentries, hnext⟩ := hfeeds.poll hkept
    refine ⟨⟨⟨_, rfl⟩, _, _, _, hnext⟩, fun _ => ?_⟩
    simp only [step, pollStream, hanswer, hentries]
    rfl
  | drain name =>
    obtain ⟨hanswers, hentries, hnext⟩ := hfeeds.drain hkept
    refine ⟨⟨⟨_, rfl⟩, _, _, _, hnext⟩, fun _ => ?_⟩
    simp only [step, drainStream, hanswers, hentries]
    rfl
  | unsubscribe name =>
    have hthere : (a.feed.stream? name).isSome = (feed.stream? name).isSome :=
      (hfeeds.abreast name hkept).isSome
    refine ⟨⟨⟨_, rfl⟩, _, _, _, hfeeds.unsubscribe name⟩, fun _ => ?_⟩
    simp only [step, unsubscribe, hthere]
    rfl
  | countStreams => exact ⟨⟨⟨feed, rfl⟩, _, _, _, hfeeds⟩, by simp [Command.isApart]⟩
  | closeFeed =>
    have hclosed : a.feed.closed = feed.closed := hfeeds.closed
    refine ⟨⟨⟨_, rfl⟩, _, _, _, hfeeds.close⟩, fun _ => ?_⟩
    simp only [step, hclosed]
    rfl
  | _ => simp [Command.asksFeed] at hasks

/-- Any other command is carried out in both. -/
theorem Parallel.step (h : Parallel heeded a b) (refuses refuses' : Bool)
    (hkept : command.isKept heeded = true) :
    Parallel.Steps heeded command (a.stepOn refuses command) (b.stepOn refuses' command) := by
  cases hasks : command.asksFeed with
  | true =>
    rw [stepOn_of_asks refuses a hasks, stepOn_of_asks refuses' b hasks]
    exact h.step_asks hasks hkept
  | false =>
    obtain ⟨⟨feed, rfl⟩, _, _, _, hfeeds⟩ := h
    obtain ⟨changes, haloof⟩ := aloof_step a hasks
    beta_reduce at haloof
    have haloof' : ∀ feed' : Feed, { a with feed := feed' }.step command
        = ({ a with feed }.step command).on (feed'.publishAll changes) := fun feed' => by
      rw [haloof feed', haloof feed]
      rfl
    obtain ⟨_, _, _, hnext⟩ := hfeeds.hear refuses refuses' changes
    rw [stepOn_of_aloof refuses haloof, stepOn_of_aloof refuses' haloof', haloof feed]
    exact ⟨⟨⟨_, rfl⟩, _, _, _, hnext⟩, fun _ => rfl⟩

/-! ## Streams that are gone -/

/-- Only heeded streams are there. -/
def Heeds (heeded : String → Bool) (a : Assembly) : Prop :=
  ∀ name, heeded name = false → a.feed.stream? name = none

/-- Only commands to a stream can start it. -/
theorem Heeds.step (h : a.Heeds heeded) (refuses : Bool) (hkept : command.isKept heeded = true) :
    (a.stepOn refuses command).after.Heeds heeded := by
  intro name hname
  have hnone := h name hname
  have hne : ∀ {other}, heeded other = true → other ≠ name := fun hother =>
    Feed.ne_of_heeded hother hname
  have hmove : ∀ {other : String} (f : Feed) (position : Nat), f.stream? name = none →
      (f.move other position).stream? name = none := fun f position hf => by
    rw [Feed.stream?_move, hf, Option.map_none]
  cases hasks : command.asksFeed with
  | false =>
    obtain ⟨changes, haloof⟩ := aloof_step a hasks
    obtain ⟨published, kept, hfeed⟩ := Feed.exists_hear a.feed refuses changes
    rw [stepOn_of_aloof refuses haloof]
    show (a.feed.hear refuses changes).stream? name = none
    rw [hfeed]
    exact hnone
  | true =>
    rw [stepOn_of_asks refuses a hasks]
    cases command with
    | subscribe other pattern =>
      simp only [Assembly.step, subscribe]
      split
      · exact hnone
      · exact (Feed.stream?_subscribe_of_ne (hne hkept) a.feed pattern).trans hnone
    | poll other => exact Feed.poll_preserves hmove hnone
    | drain other => exact Feed.drainFor_preserves hmove hnone (a.feed.kept.length + 1)
    | unsubscribe other => exact (Feed.stream?_unsubscribe (hne hkept) a.feed).trans hnone
    | countStreams | closeFeed => exact hnone
    | _ => simp [Command.asksFeed] at hasks

/-- Assemblies in which only heeded streams are left are the same to everybody. -/
theorem Parallel.all (h : Parallel heeded a b) (ha : a.Heeds heeded) (hb : b.Heeds heeded) :
    Parallel (fun _ => true) a b := by
  obtain ⟨hothers, early, early', late, hfeeds⟩ := h
  refine ⟨hothers, early, early', late, hfeeds.of_gone fun name _ hname => ?_⟩
  exact ⟨ha name hname, hb name hname⟩

theorem Parallel.of_all (h : Parallel (fun _ => true) a b) (heeded : String → Bool) :
    Parallel heeded a b := by
  obtain ⟨hothers, early, early', late, hfeeds⟩ := h
  exact ⟨hothers, early, early', late, hfeeds.of_gone fun _ _ hnot => absurd hnot (by simp)⟩

theorem Parallel.heeds (h : Parallel (fun _ => true) a b) (ha : a.Heeds heeded) :
    b.Heeds heeded := by
  obtain ⟨-, _, _, _, hfeeds⟩ := h
  intro name hname
  have hsome := (hfeeds.abreast name rfl).isSome
  rw [ha name hname] at hsome
  exact Option.isNone_iff_eq_none.1 (by simpa using hsome.symm)

/-! ## Whole runs -/

/-- Two runs have gone the same way: all commands that count had the same effects, and the parts
    are the same afterwards. -/
structure Agree (heeded : String → Bool) (refuses refuses' : Bool) (a b : Assembly)
    (commands commands' : List Command) : Prop where
  /-- The same answers, reported changes and notes, and the same parts after every command. Only
      the count of the streams may differ. -/
  effects : (a.sights refuses commands).filter (·.1.isApart heeded)
    = (b.sights refuses' commands').filter (·.1.isApart heeded)
  after : (a.followOn refuses commands).unfed = (b.followOn refuses' commands').unfed

/-- What one step keeps, a run keeps. -/
theorem Parallel.run (h : Parallel heeded a b) (refuses refuses' : Bool) (commands : List Command) :
    Agree heeded refuses refuses' a b commands (keeping heeded commands)
      ∧ Parallel heeded (a.followOn refuses commands)
          (b.followOn refuses' (keeping heeded commands)) := by
  induction commands generalizing a b with
  | nil => exact ⟨⟨rfl, h.unfed⟩, h⟩
  | cons command rest ih =>
    cases hkept : command.isKept heeded with
    | false =>
      -- Only one of the runs carries the command out, and its effect is passed over.
      have hrest : keeping heeded (command :: rest) = keeping heeded rest :=
        List.filter_cons_of_neg (by simp [hkept])
      obtain ⟨⟨heffects, hafter⟩, hparallel⟩ := ih (h.step_left refuses hkept)
      rw [hrest]
      refine ⟨⟨?_, hafter⟩, hparallel⟩
      rw [sights, List.filter_cons_of_neg (by simp [command.isApart_of_not_isKept hkept])]
      exact heffects
    | true =>
      have hrest : keeping heeded (command :: rest) = command :: keeping heeded rest :=
        List.filter_cons_of_pos hkept
      have hstep := h.step refuses refuses' hkept
      obtain ⟨⟨heffects, hafter⟩, hparallel⟩ := ih hstep.after
      rw [hrest]
      refine ⟨⟨?_, hafter⟩, hparallel⟩
      rw [sights, sights, List.filter_cons, List.filter_cons, heffects]
      split
      · next hapart => rw [hstep.effect hapart]
      · rfl

/-- A run with the same commands on both sides. -/
theorem Parallel.run_all (h : Parallel (fun _ => true) a b) (refuses refuses' : Bool)
    (commands : List Command) :
    Agree (fun _ => true) refuses refuses' a b commands commands
      ∧ Parallel (fun _ => true) (a.followOn refuses commands) (b.followOn refuses' commands) := by
  have hrun := h.run refuses refuses' commands
  rwa [keeping_all] at hrun

theorem Heeds.run (h : a.Heeds heeded) (refuses : Bool) (commands : List Command) :
    (a.followOn refuses (keeping heeded commands)).Heeds heeded := by
  have hkept : ∀ command ∈ keeping heeded commands, command.isKept heeded = true :=
    fun command hcommand => (List.mem_filter.1 hcommand).2
  generalize keeping heeded commands = commands at hkept
  induction commands generalizing a with
  | nil => exact h
  | cons command rest ih =>
    have hnext := h.step refuses (hkept command List.mem_cons_self)
    exact ih hnext fun c hc => hkept c (List.mem_cons_of_mem _ hc)

/-- New parts have no streams. -/
theorem parallel_create {counters capacity : Nat} {reducers : List Reducer} {start : Assembly}
    (hcreate : create counters reducers capacity = .ok start) :
    Parallel (fun _ => true) start start := by
  obtain ⟨feed, hfeed, rfl⟩ := exists_of_create hcreate
  have hcarries := (Feed.carries_create hfeed).1
  obtain rfl := Feed.eq_of_create hfeed
  exact ⟨⟨_, rfl⟩, _, _, _, hcarries.alike rfl _⟩

/-- What holds of commands and of the same ones without those to streams that are not heeded. -/
structure Independent (heeded : String → Bool) (refuses refuses' : Bool) (a b : Assembly)
    (commands : List Command) : Prop where
  /-- Everything else goes the same way. -/
  agree : Agree heeded refuses refuses' a b commands (keeping heeded commands)
  /-- Once the other streams are gone, everything does, also streams of their names. -/
  later : (a.followOn refuses commands).Heeds heeded → ∀ more,
    Agree (fun _ => true) refuses refuses' (a.followOn refuses commands)
      (b.followOn refuses' (keeping heeded commands)) more more

/-- **Watchers do not interfere.** Whatever commands an assembly is given, and from whatever moment
    on: what is done with streams that are started then makes no difference to anything else. -/
theorem independent_run {counters capacity : Nat} {reducers : List Reducer} {start : Assembly}
    (hcreate : create counters reducers capacity = .ok start) (refuses refuses' : Bool)
    (heeded : String → Bool) (before commands : List Command)
    (hnew : (start.followOn refuses before).Heeds heeded) :
    Independent heeded refuses refuses' (start.followOn refuses before)
      (start.followOn refuses' before) commands := by
  have hbefore := ((parallel_create hcreate).run_all refuses refuses' before).2
  obtain ⟨hagree, hparallel⟩ := (hbefore.of_all heeded).run refuses refuses' commands
  refine ⟨hagree, fun hgone more => ?_⟩
  have hnever := (hbefore.heeds hnew).run refuses' commands
  exact ((hparallel.all hgone hnever).run_all refuses refuses' more).1

/-- The stream "b" is the only one for some time, and then falls behind. A feed that refuses changes
    takes one less without it, but "a" skips one change and hears two either way. -/
theorem independent_only_one :
    let reducers : List Reducer := [{}]
    let start : Assembly :=
      { counters := [{}], reducers := reducers.map some, feed := { width := 2 }
        senders := [firstSender] }
    let apply := fun kind value => Command.apply 0 ⟨kind, [.raw ⟨"k", [value]⟩]⟩
    let commands : List Command :=
      [apply .add 1, .subscribe "b" "*", apply .update 2, .subscribe "a" "k", apply .update 3,
        apply .update 4, apply .delete 5, .poll "b", .drain "a", .unsubscribe "b", .closeFeed,
        .poll "a"]
    let heeded := fun name : String => name != "b"
    let full := start.sights true commands
    let rest := start.sights true (keeping heeded commands)
    let lagged := fun sights : List (Command × Effect) =>
      (sights.flatMap (·.2.entries)).filter (· matches .lagged ..)
    let drained := fun sights : List (Command × Effect) =>
      sights.flatMap fun s =>
        match s.2.reply with
        | .changes answers => answers.flatMap (·.heard)
        | _ => []
    create 1 reducers 2 = .ok start ∧ (start.followOn true []).Heeds heeded
      ∧ Independent heeded true true start start commands
      ∧ (start.followOn true commands).feed.published = 4
      ∧ (start.followOn true (keeping heeded commands)).feed.published = 3
      ∧ lagged full = [.lagged "*" 2, .lagged "k" 1] ∧ lagged rest = [.lagged "k" 1]
      ∧ (drained full).map (·.revision) = [4, 5] ∧ (drained rest).map (·.revision) = [4, 5] := by
  intro reducers start apply commands heeded full rest lagged drained
  have hcreate : create 1 reducers 2 = .ok start := by decide
  have hnew : (start.followOn true []).Heeds heeded := fun _ _ => rfl
  have hindependent : Independent heeded true true start start commands :=
    independent_run hcreate true true heeded [] commands hnew
  exact ⟨hcreate, hnew, hindependent, by decide, by decide, by decide, by decide, by decide,
    by decide⟩

end Assembly

end KeyRelay
