import KeyRelay.Proofs.Adapter.Eras

set_option autoImplicit false

/-! # An adapter does what a single run does

The worker of an adapter is one run on its conduit, however many calls there are: the receiver is
claimed once, and nothing but the polls of the worker changes the ledger or publishes anything. So
the course that a life keeps beside the adapter is the adapter's own (`Life.Mirrors`), and what is
known of courses holds of the ledger, the conduit and the feed of an adapter. -/

namespace KeyRelay.Adapter

open Run (Course)

/-! ## What the run sees of a move -/

variable {a b : Adapter} {m : Move}

theorem runMoves_of_stopping (hact : m.act? = none) (hpoll : m ≠ .pollWorker)
    (hworker : b.worker.any (·.stopping) = a.worker.any (·.stopping)) : runMoves a b m = [] := by
  rw [runMoves, hact]
  simp [hpoll, hworker]

theorem runMoves_of_act? {act : Conduit.Act} (hact : m.act? = some act) :
    runMoves a b m = [.act act] := by
  rw [runMoves, hact]

theorem Leaving.act? {n : Nat} {stage : Serve.Stage} {listener : Except Fault Unit}
    (h : Leaving n m stage listener) : m.act? = none := by
  cases h <;> rfl

theorem Leaving.ne_pollWorker {n : Nat} {stage : Serve.Stage} {listener : Except Fault Unit}
    (h : Leaving n m stage listener) : m ≠ .pollWorker := by
  cases h <;> simp

theorem publishAll_append (f : Feed) (changes more : List Change) :
    f.publishAll (changes ++ more) = (f.publishAll changes).publishAll more := List.foldl_append

theorem exists_of_create {options : Options} (h : create options = .ok a) :
    ∃ feed, Feed.create options.watchCapacity = .ok feed ∧ a = { options, feed } := by
  unfold create at h
  cases hfeed : Feed.create options.watchCapacity with
  | error crash =>
    rw [hfeed] at h
    simp [Except.map] at h
  | ok feed =>
    rw [hfeed] at h
    exact ⟨feed, rfl, (Except.ok.inj h).symm⟩

namespace Life

/-! ## The invariant -/

/-- The adapter has done to its conduit, its ledger and the feed that it began with what the course
    of its worker says. -/
structure Mirrors (feed : Feed) (l : Life) : Prop where
  sound : Course.Sound {} l.course
  admits : Course.Admits {} l.course
  conduit : l.adapter.conduit = l.course.journal.conduit
  ledger : l.adapter.ledger = l.course.ledger
  feed : l.adapter.feed = feed.publishAll l.course.published
  /-- A worker that is yet to be started is like one that has not been polled. -/
  worker : l.adapter.worker.getD {} = ⟨l.course.started, l.course.cancelled, l.course.status⟩
  /-- Without a worker nothing is handed over. -/
  untouched : l.adapter.worker = none → l.course.journal.returned = []

theorem mirrors_new {a : Adapter} (hconduit : a.conduit = {}) (hledger : a.ledger = {})
    (hworker : a.worker = none) : Mirrors a.feed { adapter := a } where
  sound := Course.sound_new {}
  admits := Course.admits_new {}
  conduit := hconduit
  ledger := hledger
  feed := rfl
  worker := by
    show a.worker.getD {} = _
    rw [hworker]
    rfl
  untouched := fun _ => rfl

variable {feed : Feed} {l : Life} {entries : List LogEntry}

/-- A move that is none of the run's. -/
theorem Mirrors.unmoved (h : Mirrors feed l) (hmoves : runMoves l.adapter b m = [])
    (hconduit : b.conduit = l.adapter.conduit) (hledger : b.ledger = l.adapter.ledger)
    (hfeed : b.feed = l.adapter.feed)
    (hworker : b.worker.getD {} = l.adapter.worker.getD {})
    (hnone : b.worker = none → l.adapter.worker = none) :
    Mirrors feed (l.after m b entries) := by
  have hcourse : (l.after m b entries).course = l.course := congrArg l.course.follow hmoves
  constructor <;> rw [hcourse]
  case sound => exact h.sound
  case admits => exact h.admits
  case conduit => exact hconduit.trans h.conduit
  case ledger => exact hledger.trans h.ledger
  case feed => exact hfeed.trans h.feed
  case worker => exact hworker.trans h.worker
  case untouched => exact fun hb => h.untouched (hnone hb)

/-- A move that leaves the worker alone, and what the worker works on. -/
theorem Mirrors.aside (h : Mirrors feed l) (hact : m.act? = none) (hpoll : m ≠ .pollWorker)
    (hconduit : b.conduit = l.adapter.conduit) (hledger : b.ledger = l.adapter.ledger)
    (hfeed : b.feed = l.adapter.feed) (hworker : b.worker = l.adapter.worker) :
    Mirrors feed (l.after m b entries) :=
  h.unmoved (runMoves_of_stopping hact hpoll (by rw [hworker])) hconduit hledger hfeed
    (by rw [hworker]) hworker.symm.trans

/-- The worker is told to stop, perhaps not for the first time. -/
theorem Mirrors.stopped (h : Mirrors feed l) {w : Worker} (hw : l.adapter.worker = some w)
    (hact : m.act? = none) (hpoll : m ≠ .pollWorker)
    (hconduit : b.conduit = l.adapter.conduit) (hledger : b.ledger = l.adapter.ledger)
    (hfeed : b.feed = l.adapter.feed) (hworker : b.worker = some w.stop) :
    Mirrors feed (l.after m b entries) := by
  have hsame : w = ⟨l.course.started, l.course.cancelled, l.course.status⟩ := by
    have := h.worker
    rwa [hw] at this
  have hcourse : (l.after m b entries).course = l.course.step .cancel := by
    show l.course.follow (runMoves l.adapter b m) = _
    rw [runMoves, hact, hw, hworker, hsame]
    cases hcancelled : l.course.cancelled with
    | false => simp [hpoll, Worker.stop, Course.follow]
    | true =>
      have hidem : l.course.step .cancel = l.course := by rw [Course.step, ← hcancelled]
      simp [hpoll, Worker.stop, Course.follow, hidem]
  constructor <;> rw [hcourse]
  case sound => exact h.sound.step .cancel
  case admits => exact h.admits.step h.sound .cancel
  case conduit => exact hconduit.trans h.conduit
  case ledger => exact hledger.trans h.ledger
  case feed => exact hfeed.trans h.feed
  case worker =>
    show b.worker.getD {} = _
    rw [hworker, hsame]
    rfl
  case untouched =>
    intro (hnone : b.worker = none)
    rw [hworker] at hnone
    simp at hnone

theorem Mirrors.acted (h : Mirrors feed l) {act : Conduit.Act} (hact : m.act? = some act) :
    Mirrors feed (l.after m { l.adapter with conduit := l.adapter.conduit.act act } entries) := by
  have hcourse : (l.after m { l.adapter with conduit := l.adapter.conduit.act act } entries).course
      = l.course.step (.act act) := congrArg l.course.follow (runMoves_of_act? hact)
  constructor <;> rw [hcourse]
  case sound => exact h.sound.step (.act act)
  case admits => exact h.admits.step h.sound (.act act)
  case conduit =>
    show l.adapter.conduit.act act = (l.course.journal.act act).conduit
    rw [Journal.conduit_act, h.conduit]
  case ledger => exact h.ledger
  case feed => exact h.feed
  case worker => exact h.worker
  case untouched =>
    intro hnone
    exact (Journal.returned_act l.course.journal act).trans (h.untouched hnone)

theorem Mirrors.worked (h : Mirrors feed l) {w : Worker} {p : Run.Progress}
    (hw : l.adapter.worker = some w) (hrunning : w.status = .running)
    (hp : p = Run.poll w.started w.stopping l.adapter.conduit l.adapter.ledger) :
    Mirrors feed (l.after .pollWorker { l.adapter with
      ledger := p.ledger
      conduit := p.conduit
      feed := l.adapter.feed.publishAll p.changes
      worker := some ⟨true, w.stopping, p.status⟩ } entries) := by
  have hsame : w = ⟨l.course.started, l.course.cancelled, l.course.status⟩ := by
    have := h.worker
    rwa [hw] at this
  have hmoves : ∀ c, runMoves l.adapter c .pollWorker = [.poll] := by
    intro c
    rw [runMoves, hw]
    rfl
  have hpoll : l.course.poll = l.course.after p := by
    rw [hsame] at hrunning hp
    rw [Course.poll, if_pos hrunning, hp, h.conduit, h.ledger]
  have hcourse : ∀ c, (l.after .pollWorker c entries).course = l.course.after p := by
    intro c
    rw [← hpoll]
    exact congrArg l.course.follow (hmoves c)
  constructor <;> rw [hcourse]
  case sound => exact hpoll ▸ h.sound.poll
  case admits => exact hpoll ▸ h.admits.poll h.sound
  case conduit => rfl
  case ledger => rfl
  case feed =>
    show l.adapter.feed.publishAll p.changes = feed.publishAll (l.course.published ++ p.changes)
    rw [publishAll_append, h.feed]
  case worker => rw [hsame]; rfl
  case untouched => intro hnone; simp [Life.after] at hnone

/-- A worker that has ended is polled in vain, and so is one that was not started. -/
theorem Mirrors.rested (h : Mirrors feed l)
    (hidle : l.adapter.worker.map (·.status) ≠ some .running) :
    Mirrors feed (l.after .pollWorker l.adapter entries) := by
  have hworker := h.worker
  have hcourse : (l.after .pollWorker l.adapter entries).course = l.course := by
    show l.course.follow (runMoves l.adapter l.adapter .pollWorker) = _
    cases hw : l.adapter.worker with
    | none =>
      rw [runMoves, hw]
      rfl
    | some w =>
      rw [hw] at hidle hworker
      obtain rfl : w = ⟨l.course.started, l.course.cancelled, l.course.status⟩ := hworker
      rw [runMoves, hw]
      exact if_neg fun hrunning => hidle (congrArg some hrunning)
  constructor <;> rw [hcourse]
  case sound => exact h.sound
  case admits => exact h.admits
  case conduit => exact h.conduit
  case ledger => exact h.ledger
  case feed => exact h.feed
  case worker => exact h.worker
  case untouched => exact h.untouched

theorem Mirrors.step (h : Mirrors feed l) (hera : Era l)
    (hstep : Stepping l.adapter m b entries) : Mirrors feed (l.after m b entries) := by
  cases hstep with
  | callServe _ | callShutdown _ | cancelled _ | addressless _ _ _ | refused _ _ _ _
  | signalled _ _ _ | connected _ _ | disconnected _ _ | joined _ _ _ | granted _ _ _ _ _
  | awaited _ _ _ _ | reawaited _ _ _ => exact h.aside rfl nofun rfl rfl rfl rfl
  | claimed hs _ _ hreceiver =>
    -- The worker that is started is the one that the course began with.
    have hnone := (hera.vacant_of_receiver hreceiver).worker
    refine h.unmoved (runMoves_of_stopping rfl nofun ?_) rfl rfl rfl ?_ nofun
    · rw [hnone]
      rfl
    · rw [hnone]
      rfl
  | left hs hleaving hw hrunning =>
    exact h.stopped hw hleaving.act? hleaving.ne_pollWorker rfl rfl rfl rfl
  | leftEnded hs hleaving hended =>
    obtain ⟨_, _, hstage⟩ := hleaving.listening
    obtain ⟨w, hw⟩ := (hera.running_of_isActive hs (isActive_of_listening hstage)).worker
    refine h.stopped hw hleaving.act? hleaving.ne_pollWorker rfl rfl rfl ?_
    show l.adapter.worker.map Worker.stop = _
    rw [hw]
    rfl
  | worked hw hrunning => exact h.worked hw hrunning rfl
  | acted act hact => exact h.acted hact
  | nothing hact hbreaking hidle =>
    by_cases hm : m = .pollWorker
    · subst hm
      exact h.rested (hidle rfl)
    · exact h.aside hact hm rfl rfl rfl rfl

/-! ## Every schedule -/

/-- What holds of every life of an adapter that began with this feed. -/
structure Sound (feed : Feed) (l : Life) : Prop where
  era : Era l
  mirrors : Mirrors feed l

theorem Sound.step (h : Sound feed l) (m : Move) : Sound feed (l.step m) :=
  ⟨h.era.step (stepping_step _ m), h.mirrors.step h.era (stepping_step _ m)⟩

theorem sound_run {options : Options} (h : create options = .ok a) (moves : List Move) :
    Sound a.feed (run a moves) := by
  obtain ⟨feed, -, rfl⟩ := exists_of_create h
  refine follow_of_step (Sound feed) (fun _ m h => h.step m) ?_ moves
  exact ⟨.vacant (vacant_new rfl (by simp) rfl rfl),
    mirrors_new (a := { options, feed }) rfl rfl rfl⟩

/-! ## After the return of the call that has claimed the receiver -/

variable {n : Nat} {result : Except Fault Unit}

/-- A call that has claimed the receiver has returned, if it has its result. -/
theorem Era.over_of_result (h : Era l) (hn : n ∈ l.claims)
    (hresult : l.adapter.serveResult? n = some result) : Over l n result := by
  obtain ⟨s, hs, hstage⟩ := serveResult?_eq_some_iff.1 hresult
  rcases h.running_or_over hn with hrunning | ⟨result', hover⟩
  · obtain ⟨w, -, hattended⟩ := hrunning.attends hs
    exact absurd hstage (hattended.ne_finished result)
  · obtain ⟨t, ht, hreturned⟩ := hover.returned
    obtain rfl : s = t := Option.some.inj (hs.symm.trans ht)
    obtain rfl := Serve.Stage.finished.inj (hstage.symm.trans hreturned)
    exact hover

theorem Over.step (h : Over l n result) (m : Move) : Over (l.step m) n result := by
  have hstep := stepping_step l.adapter m
  have hn : n ∈ l.claims := by
    rw [h.claims]
    exact List.mem_cons_self
  refine ((Era.ended h).step hstep).over_of_result (List.mem_append_left _ hn) ?_
  exact hstep.serveResult? (serveResult?_eq_some_iff.2 h.returned)

theorem Over.follow (h : Over l n result) (moves : List Move) : Over (l.follow moves) n result :=
  follow_of_step (Over · n result) (fun _ m h => h.step m) h moves

/-- The worker of a life that is over has ended, and so has its run. -/
theorem Mirrors.ended_of_over (h : Mirrors feed l) (hover : Over l n result) :
    l.course.status ≠ .running := by
  obtain ⟨w, listener, hw, hended, -, -⟩ := hover.worker
  have hworker := h.worker
  rw [hw] at hworker
  obtain rfl : w = _ := hworker
  exact hended

end Life

end KeyRelay.Adapter
