import KeyRelay.Proofs.Adapter.Progress

set_option autoImplicit false

/-! # The lifecycle of an adapter

However the calls of `serve` and of `shutdown`, their signals, the connections and the worker take
turns, the slot, the phase and the wish to stop tell how far the calls have come
(`lifecycle_run`). The receiver is claimed at most once, so the adapter serves at most once. A
shutdown that comes before that finds the adapter idle and stops it at once; a call of `serve` may
still claim the receiver later, and the stop that was asked for leads to its return. -/

namespace KeyRelay.Adapter

variable {a b : Adapter} {m : Move} {n i : Nat} {entries : List LogEntry}

/-! ## What a shutdown leaves behind -/

/-- Every call of `shutdown` that was polled has asked for the stop, and found an adapter that is
    not idle or made it so. -/
structure Asked (a : Adapter) : Prop where
  polled : ∀ {i call}, a.shutdown? i = some call → call.stage ≠ .fresh →
    a.stopping = true ∧ a.phase ≠ .idle

theorem asked_new (hshutdowns : a.shutdowns = []) : Asked a := by
  constructor
  intro i call hcall
  simp [shutdown?, hshutdowns] at hcall

/-- No call of `shutdown` was made or polled, and if the phase has changed, the adapter is not idle
    now. -/
theorem Asked.of_eq (h : Asked a) (hshutdowns : b.shutdowns = a.shutdowns)
    (hstopping : b.stopping = a.stopping) (hphase : b.phase = a.phase ∨ b.phase ≠ .idle) :
    Asked b := by
  constructor
  intro i call hcall hpolled
  rw [shutdown?, hshutdowns] at hcall
  obtain ⟨hasked, hbusy⟩ := h.polled hcall hpolled
  refine ⟨hstopping.trans hasked, ?_⟩
  rcases hphase with hphase | hphase
  · rwa [hphase]
  · exact hphase

/-- A call that is made has not been polled. -/
theorem Asked.callShutdown (h : Asked a) (limit : Text.Duration) :
    Asked { a with shutdowns := a.shutdowns ++ [{ limit }] } := by
  constructor
  intro i call hcall hpolled
  rw [shutdown?, List.getElem?_append] at hcall
  split at hcall
  · exact h.polled hcall hpolled
  · obtain rfl := List.mem_singleton.1 (List.mem_of_getElem? hcall)
    exact absurd rfl hpolled

theorem asked_of_busy (hasked : a.stopping = true) (hbusy : a.phase ≠ .idle) : Asked a :=
  ⟨fun _ _ => ⟨hasked, hbusy⟩⟩

variable {l : Life}

theorem Life.Era.vacant_of_idle (h : Era l) (hidle : l.adapter.phase = .idle) : Vacant l := by
  cases h with
  | vacant h => exact h
  | running h => exact absurd (h.phase.symm.trans hidle) (by decide)
  | ended h => exact absurd (h.phase.symm.trans hidle) (by decide)

theorem Asked.step (h : Asked l.adapter) (hera : l.Era)
    (hstep : Stepping l.adapter m b entries) : Asked b := by
  cases hstep with
  | callShutdown limit => exact h.callShutdown limit
  | claimed _ _ _ _ | leftEnded _ _ _ | joined _ _ _ =>
    exact h.of_eq rfl rfl (Or.inr (by simp [setServe]))
  | granted _ _ _ _ _ => exact asked_of_busy rfl (by simp [setShutdown])
  | awaited expired hcall hfresh hbusy =>
    -- The receiver of an idle adapter is in its slot, so this adapter is not idle.
    exact asked_of_busy rfl fun hidle => hbusy ⟨hidle, (hera.vacant_of_idle hidle).receiver⟩
  | reawaited expired hcall hwaiting =>
    obtain ⟨hasked, hbusy⟩ := h.polled hcall (by simp [hwaiting])
    exact asked_of_busy hasked hbusy
  | callServe _ | cancelled _ | addressless _ _ _ | refused _ _ _ _ | signalled _ _ _
  | connected _ _ | disconnected _ _ | left _ _ _ _ | worked _ _ | acted _ _ | nothing _ _ _ =>
    exact h.of_eq rfl rfl (Or.inl rfl)

theorem asked_run {options : Options} (h : create options = .ok a) (moves : List Move) :
    Asked (Life.run a moves).adapter := by
  have hstart : Life.Sound a.feed { adapter := a } ∧ Asked a := by
    obtain ⟨feed, -, rfl⟩ := exists_of_create h
    exact ⟨Life.sound_run h [], asked_new rfl⟩
  refine (Life.follow_of_step (fun l => Life.Sound a.feed l ∧ Asked l.adapter) ?_ hstart moves).2
  rintro l m ⟨hsound, hasked⟩
  exact ⟨hsound.step m, hasked.step hsound.era (stepping_step _ m)⟩

/-! ## How a call of `shutdown` succeeds -/

/-- A call of `shutdown` succeeds only when the adapter is stopped. -/
theorem Stepping.phase_of_granted {expired : Bool}
    (h : Stepping a (.pollShutdown i expired) b entries) (hopen : a.shutdownResult? i = none)
    (hgranted : b.shutdownResult? i = some (.ok ())) : b.phase = .stopped := by
  obtain ⟨call', hcall', hstage'⟩ := shutdownResult?_eq_some_iff.1 hgranted
  have hawaiting : ∀ {c : Adapter} {call : Shutdown}, c.shutdown? i = some call →
      (c.setShutdown i { call with stage := .awaiting c.phase call.limit expired }).shutdown? i
        = some call' → c.phase = .stopped := by
    intro c call hcall hc
    rw [shutdown?_setShutdown hcall, if_pos rfl] at hc
    obtain rfl := Option.some.inj hc
    simp only [Shutdown.Stage.awaiting] at hstage'
    by_contra hphase
    rw [if_neg hphase] at hstage'
    split at hstage' <;> simp at hstage'
  cases h with
  | left _ hleaving _ _ | leftEnded _ hleaving _ => cases hleaving
  | granted _ _ _ _ _ => rfl
  | awaited _ hcall _ _ =>
    have hsame : ({ a with stopping := true } : Adapter).shutdown? i = some _ := hcall
    exact hawaiting (c := { a with stopping := true }) hsame hcall'
  | reawaited _ hcall _ => exact hawaiting (c := a) hcall hcall'
  | acted _ hact => simp [Move.act?] at hact
  | nothing _ _ _ => exact absurd (hopen.symm.trans hgranted) (by simp)

namespace Life

/-- While the adapter is stopped, no call of `serve` is under way and the worker is not at work. -/
theorem Era.ended_of_stopped (h : Era l) (hstopped : l.adapter.phase = .stopped) :
    (∀ n ∈ l.claims, ∃ result, l.adapter.serveResult? n = some result)
      ∧ l.adapter.worker.map (·.status) ≠ some .running := by
  cases h with
  | vacant h =>
    rw [h.claims, h.worker]
    exact ⟨by simp, by simp⟩
  | running h => exact absurd (h.phase.symm.trans hstopped) (by decide)
  | ended h =>
    obtain ⟨w, listener, hw, hended, -, -⟩ := h.worker
    rw [h.claims, hw]
    refine ⟨fun n hn => ?_, by simpa using hended⟩
    obtain rfl := List.mem_singleton.1 hn
    exact ⟨_, serveResult?_eq_some_iff.2 h.returned⟩

/-! ## The lifecycle -/

theorem Era.slot (h : Era l) : l.adapter.receiver = false ↔ ∃ n, n ∈ l.claims := by
  cases h with
  | vacant h => simp [h.receiver, h.claims]
  | running h => simp [h.receiver, h.claims]
  | ended h => simp [h.receiver, h.claims]

theorem Era.once (h : Era l) : l.claims.length ≤ 1 := by
  cases h with
  | vacant h => simp [h.claims]
  | running h => simp [h.claims]
  | ended h => simp [h.claims]

theorem Era.serving (h : Era l) : l.adapter.phase = .serving
    ↔ ∃ n ∈ l.claims, l.adapter.serveResult? n = none := by
  cases h with
  | vacant h => simp [h.phase, h.claims]
  | running h => simp [h.phase, h.claims, h.serveResult?]
  | ended h => simp [h.phase, h.claims, serveResult?_eq_some_iff.2 h.returned]

/-- Nothing is seen of a move that leaves the receiver and the worker alone. -/
theorem after_aside (l : Life) (hact : m.act? = none) (hpoll : m ≠ .pollWorker)
    (hbreaking : l.adapter.breaking m = []) (hreceiver : b.receiver = l.adapter.receiver)
    (hworker : b.worker = l.adapter.worker) : l.after m b [] = { l with adapter := b } := by
  rw [after, claiming_of_receiver hreceiver, hbreaking,
    runMoves_of_stopping hact hpoll (by rw [hworker])]
  simp [Run.Course.follow]

/-- A call that comes after the claim is refused at its first poll, and nothing else happens. -/
theorem step_refused {s : Serve} (hs : l.adapter.serve? n = some s) (hfresh : s.stage = .fresh)
    (haddress : s.addressError = none) (hreceiver : l.adapter.receiver = false) :
    l.step (.pollServe n) = { l with
      adapter := l.adapter.setServe n { s with stage := .finished (.error .alreadyServing) } } := by
  obtain ⟨cancelled, error, stage⟩ := s
  obtain rfl : stage = .fresh := hfresh
  obtain rfl : error = none := haddress
  have hpoll : l.adapter.step (.pollServe n) = (l.adapter.setServe n
      ⟨cancelled, none, .finished (.error .alreadyServing)⟩, []) := by
    have hclaim : l.adapter.pollServe n = l.adapter.claim n := by rw [pollServe, hs]
    rw [Adapter.step, hclaim, claim, if_neg (by simp [hreceiver]), moveServe_of_serve? hs]
  rw [step, hpoll]
  exact l.after_aside rfl (by simp) rfl rfl rfl

end Life

open Life (run)

/-- A call of `shutdown` that succeeds by a poll leaves the adapter stopped. -/
theorem stopped_of_granted {moves : List Move} {expired : Bool}
    (hopen : (run a moves).adapter.shutdownResult? i = none)
    (hgranted : (run a (moves ++ [.pollShutdown i expired])).adapter.shutdownResult? i
      = some (.ok ())) :
    (run a (moves ++ [.pollShutdown i expired])).adapter.phase = .stopped := by
  rw [Life.run_append] at hgranted ⊢
  exact (stepping_step _ _).phase_of_granted hopen hgranted

/-- What the lifecycle of an adapter that began as `a` has come to by a schedule. -/
structure Lifecycle (a : Adapter) (moves : List Move) : Prop where
  /-- The slot is empty if and only if some call of `serve` has claimed the receiver, and at most
      one call ever does. -/
  slot : (run a moves).adapter.receiver = false ↔ ∃ n, n ∈ (run a moves).claims
  once : (run a moves).claims.length ≤ 1
  /-- The adapter serves from the claim of that call until its return. -/
  serving : (run a moves).adapter.phase = .serving
    ↔ ∃ n ∈ (run a moves).claims, (run a moves).adapter.serveResult? n = none
  /-- While the adapter is idle, the slot is full and no call of `shutdown` was polled. -/
  idle : (run a moves).adapter.phase = .idle → (run a moves).adapter.receiver = true
    ∧ ∀ i call, (run a moves).adapter.shutdown? i = some call → call.stage = .fresh
  /-- Once the call that has claimed the receiver has returned, the adapter is stopped for ever. -/
  stopped : ∀ n ∈ (run a moves).claims, ∀ result,
    (run a moves).adapter.serveResult? n = some result →
    ∀ more, (run a (moves ++ more)).adapter.phase = .stopped
  /-- Another call that has its address and finds the slot empty is refused, and nothing else is
      changed by that. -/
  refused : ∀ n s, (run a moves).adapter.serve? n = some s → s.stage = .fresh →
    s.addressError = none → (run a moves).adapter.receiver = false →
    run a (moves ++ [.pollServe n]) = { run a moves with
      adapter := (run a moves).adapter.setServe n
        { s with stage := .finished (.error .alreadyServing) } }
  /-- A call of `shutdown` asks for the stop by its first poll, whatever it returns, and the stop
      is asked for ever since. -/
  asked : ∀ i call, (run a moves).adapter.shutdown? i = some call → call.stage ≠ .fresh →
    ∀ more, (run a (moves ++ more)).adapter.stopping = true
  /-- It leads to the stop: a call of `serve` that has claimed the receiver returns in every fair
      schedule, also if no call of `shutdown` waits for that any more. -/
  leads : ∀ i call, (run a moves).adapter.shutdown? i = some call → call.stage ≠ .fresh →
    ∀ n ∈ (run a moves).claims, ∀ schedule, Fair n schedule →
    ∃ j result, (run a (moves ++ (List.range j).map schedule)).adapter.serveResult? n = some result
      ∧ (run a (moves ++ (List.range j).map schedule)).adapter.phase = .stopped
  /-- When a poll of a call of `shutdown` succeeds, the adapter is stopped, the call of `serve`
      that has claimed the receiver, if there is one, has returned, and the worker is not at
      work. -/
  granted : ∀ i expired, (run a moves).adapter.shutdownResult? i = none →
    (run a (moves ++ [.pollShutdown i expired])).adapter.shutdownResult? i = some (.ok ()) →
    (run a (moves ++ [.pollShutdown i expired])).adapter.phase = .stopped
      ∧ (∀ n ∈ (run a (moves ++ [.pollShutdown i expired])).claims, ∃ result,
          (run a (moves ++ [.pollShutdown i expired])).adapter.serveResult? n = some result)
      ∧ (run a (moves ++ [.pollShutdown i expired])).adapter.worker.map (·.status)
          ≠ some .running

/-- **The lifecycle of an adapter.** It holds of every adapter and every schedule of its calls, its
    tasks, its connections and its producers. -/
theorem lifecycle_run {options : Options} (h : create options = .ok a) (moves : List Move) :
    Lifecycle a moves := by
  have hera := (Life.sound_run h moves).era
  have hasked := asked_run h moves
  constructor
  case slot => exact hera.slot
  case once => exact hera.once
  case serving => exact hera.serving
  case idle =>
    intro hidle
    refine ⟨(hera.vacant_of_idle hidle).receiver, fun i call hcall => ?_⟩
    by_contra hpolled
    exact (hasked.polled hcall hpolled).2 hidle
  case stopped =>
    intro n hn result hresult more
    rw [Life.run_append]
    exact ((hera.over_of_result hn hresult).follow more).phase
  case refused =>
    intro n s hs hfresh haddress hreceiver
    rw [Life.run_append]
    exact Life.step_refused hs hfresh haddress hreceiver
  case asked =>
    intro i call hcall hpolled more
    rw [Life.run_append]
    exact Life.follow_of_step (·.adapter.stopping = true)
      (fun l m hstopping => (stepping_step l.adapter m).stopping hstopping)
      (hasked.polled hcall hpolled).1 more
  case leads =>
    intro i call hcall hpolled n hn schedule hfair
    obtain ⟨j, result, hover⟩ := hera.returns hn (hasked.polled hcall hpolled).1 hfair
    rw [Life.trace, ← Life.run_append] at hover
    exact ⟨j, result, serveResult?_eq_some_iff.2 hover.returned, hover.phase⟩
  case granted =>
    intro i expired hopen hgranted
    have hstopped := stopped_of_granted hopen hgranted
    exact ⟨hstopped, (Life.sound_run h _).era.ended_of_stopped hstopped⟩

/-- The time of a shutdown is over while a connection stays, and the adapter serves on. The call of
    `serve` returns in every fair schedule; there are such schedules, and in this one it has
    returned after seven moves. -/
theorem lifecycle_timedOut :
    let a : Adapter := { options := {}, feed := { width := 1024 } }
    let moves : List Move :=
      [.callServe none, .pollServe 0, .connect 0, .callShutdown ⟨5, 0⟩, .pollShutdown 0 true]
    create {} = .ok a ∧ Lifecycle a moves ∧ Fair 0 (inTurn 0)
      ∧ (run a moves).claims = [0] ∧ (run a moves).adapter.phase = .serving
      ∧ (run a moves).adapter.stopping = true
      ∧ (run a moves).adapter.shutdownResult? 0 = some (.error (.shutdownTimeout ⟨5, 0⟩))
      ∧ (run a moves).adapter.serveResult? 0 = none
      ∧ (run a (moves ++ (List.range 7).map (inTurn 0))).adapter.serveResult? 0 = some (.ok ())
      ∧ (run a (moves ++ (List.range 7).map (inTurn 0))).adapter.phase = .stopped := by
  intro a moves
  have h : create {} = .ok a := rfl
  exact ⟨h, lifecycle_run h moves, fair_inTurn 0, by decide, by decide, by decide, by decide,
    by decide, by decide, by decide⟩

/-- A shutdown stops an idle adapter, a call of `serve` that comes later serves nevertheless, and
    hears of the shutdown. -/
example :
    let moves : List Move := [.callShutdown ⟨5, 0⟩, .pollShutdown 0 false, .callServe none,
      .pollServe 0, .pollSignal 0, .pollServe 0, .pollWorker, .pollServe 0]
    [0, 2, 4, 8].map (fun i =>
        (run { options := {}, feed := { width := 1024 } } (moves.take i)).adapter.phase)
      = [.idle, .stopped, .serving, .stopped] := by decide

end KeyRelay.Adapter
