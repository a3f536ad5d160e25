import KeyRelay.Proofs.Adapter.Mirrors

set_option autoImplicit false

/-! # An adapter that has served is finished

The call of `serve` that has claimed the receiver returns only after its worker has ended and the
receiver is gone, whichever way its listener went (`return_run`). Its result tells what went wrong.
Nothing comes after it: no event is handed over or applied any more, and every send that is still
alive is told by its next poll what has become of its event. -/

namespace KeyRelay.Adapter

variable {a b : Adapter} {m : Move} {n : Nat} {entries : List LogEntry}
  {result : Except Fault Unit}

/-! ## What comes before the return -/

/-- Once the receiver is claimed, only a poll of the worker changes how the worker stands. -/
theorem Stepping.status_worker (h : Stepping a m b entries) (hpoll : m ≠ .pollWorker)
    (hreceiver : a.receiver = false) :
    b.worker.map (·.status) = a.worker.map (·.status) := by
  cases h with
  | claimed _ _ _ hfull => exact absurd (hreceiver.symm.trans hfull) (by decide)
  | left _ _ hw _ =>
    rw [hw]
    rfl
  | leftEnded _ _ _ =>
    show (a.worker.map Worker.stop).map (·.status) = _
    rw [Option.map_map]
    rfl
  | worked _ _ => exact absurd rfl hpoll
  | callServe _ | callShutdown _ | cancelled _ | addressless _ _ _ | refused _ _ _ _
  | signalled _ _ _ | connected _ _ | disconnected _ _ | joined _ _ _ | granted _ _ _ _ _
  | awaited _ _ _ _ | reawaited _ _ _ | acted _ _ | nothing _ _ _ => rfl

theorem serveResult?_pollWorker (a : Adapter) (n : Nat) :
    (a.step .pollWorker).1.serveResult? n = a.serveResult? n := by
  simp only [step, pollWorker]
  split <;> rfl

namespace Life

variable {feed : Feed} {l : Life}

/-- The move by which the call returns is no poll of the worker. -/
theorem Running.status_of_returns (h : Running l n) (hover : Over (l.step m) n result) :
    (l.step m).adapter.worker.map (·.status) = l.adapter.worker.map (·.status) := by
  refine (stepping_step l.adapter m).status_worker ?_ h.receiver
  rintro rfl
  have hresult := (serveResult?_pollWorker l.adapter n).symm.trans
    (serveResult?_eq_some_iff.2 hover.returned)
  exact absurd (h.serveResult?.symm.trans hresult) (by simp)

/-! ## The result -/

/-- The call reports that its listener has failed, if it has. -/
theorem Over.io_iff (h : Over l n result) (error : Net.SystemError) :
    result = .error (.io error) ↔ (n, error) ∈ l.failures := by
  obtain ⟨w, listener, -, -, hheard, rfl⟩ := h.worker
  generalize l.failures = failures at hheard
  cases hheard with
  | drained => cases w.status <;> simp [resultOf]
  | broken failure =>
    simp only [resultOf, List.mem_singleton, Prod.mk.injEq, true_and]
    exact ⟨fun heq => by injection heq with heq; injection heq with heq; exact heq.symm,
      fun heq => by rw [heq]⟩

theorem Over.listener_of_no_failure (h : Over l n result)
    (hnone : ∀ error, (n, error) ∉ l.failures) :
    ∃ w, l.adapter.worker = some w ∧ result = resultOf (.ok ()) w.status := by
  obtain ⟨w, listener, hw, -, hheard, hresult⟩ := h.worker
  refine ⟨w, hw, ?_⟩
  generalize l.failures = failures at hheard hnone
  cases hheard with
  | drained => exact hresult
  | broken error => exact absurd List.mem_cons_self (hnone error)

/-- Else it reports that the worker has crashed, if it has. -/
theorem Over.internal_iff (h : Over l n result) (hnone : ∀ error, (n, error) ∉ l.failures) :
    (∃ detail, result = .error (.internal detail))
      ↔ ∃ crash, l.adapter.worker.map (·.status) = some (.crashed crash) := by
  obtain ⟨w, hw, rfl⟩ := h.listener_of_no_failure hnone
  rw [hw]
  cases hstatus : w.status with
  | running | stopped => simp [resultOf, hstatus]
  | crashed crash => simp [resultOf, hstatus]

/-- Else it succeeds. -/
theorem Over.ok_of (h : Over l n result) (hnone : ∀ error, (n, error) ∉ l.failures)
    (hnot : ∀ crash, l.adapter.worker.map (·.status) ≠ some (.crashed crash)) :
    result = .ok () := by
  obtain ⟨w, hw, rfl⟩ := h.listener_of_no_failure hnone
  cases hstatus : w.status with
  | running | stopped => rfl
  | crashed crash => exact absurd (by rw [hw, ← hstatus]; rfl) (hnot crash)

/-- A failure is noted as an error, -/
theorem Over.errors_of_error (h : Over l n result) {fault : Fault}
    (hfault : result = .error fault) : l.errors = [.failed fault] := by
  obtain ⟨w, listener, -, -, hheard, hresult⟩ := h.worker
  have hfatal := hheard.isFatal (hresult.symm.trans hfault)
  rw [h.errors, hfault]
  simp [resultEntries, hfatal]

/-- and a success is not. -/
theorem Over.errors_of_ok (h : Over l n result) (hok : result = .ok ()) : l.errors = [] := by
  rw [h.errors, hok]
  rfl

/-! ## What comes after the return -/

theorem Mirrors.status (h : Mirrors feed l) {w : Worker} (hw : l.adapter.worker = some w) :
    l.course.status = w.status := by
  have hworker := h.worker
  rw [hw] at hworker
  obtain rfl : w = _ := hworker
  rfl

/-- From one life to another nothing was handed over, and neither the ledger nor the feed was
    changed. -/
structure Still (l l' : Life) : Prop where
  ledger : l'.adapter.ledger = l.adapter.ledger
  feed : l'.adapter.feed = l.adapter.feed
  returned : l'.course.journal.returned = l.course.journal.returned

theorem halted_follow (hended : l.course.status ≠ .running) (moves : List Move) :
    l.course.Halted (l.follow moves).course :=
  follow_of_step (fun l' => l.course.Halted l'.course)
    (fun _ _ h => h.follow hended _) (.refl _) moves

/-- Nothing comes after the end of the worker. -/
theorem Sound.still_of_ended (h : Sound feed l) (hended : l.course.status ≠ .running)
    (moves : List Move) : Still l (l.follow moves) := by
  have hhalted := halted_follow hended moves
  have hlater := (follow_of_step (Sound feed) (fun _ m h => h.step m) h moves).mirrors
  constructor
  case ledger => rw [hlater.ledger, h.mirrors.ledger, hhalted.ledger]
  case feed => rw [hlater.feed, h.mirrors.feed, hhalted.published]
  case returned => exact hhalted.returned

/-- The poll of a send that is alive tells what has become of its event. -/
theorem Mirrors.result_of_ended (h : Mirrors feed l) (hended : l.course.status ≠ .running)
    {t : Ticket} (halive : (l.adapter.conduit.send? t).isSome = true) :
    (l.adapter.conduit.poll t).1.bind (·.result?)
      = some (if t ∈ l.course.journal.returnedTickets then .ok ()
        else .error .channelClosed) := by
  rw [h.conduit] at halive ⊢
  split
  · next hmem => rw [h.sound.journal.poll_of_returned hmem halive]; rfl
  · next hnot =>
      rw [h.sound.journal.poll_of_closed (h.sound.closed_of_ended hended) hnot halive]
      rfl

end Life

open Life (run Still)

/-- What the return of the call `n` of `serve` with `result`, by the move `m` after the moves
    `before`, says about what came before and what comes after, if this call had claimed the
    receiver of the adapter that began as `a`. -/
structure Return (a : Adapter) (before : List Move) (m : Move) (n : Nat)
    (result : Except Fault Unit) : Prop where
  /-- Before the call returns, the worker has ended and has taken the receiver with it; as it
      returns, the adapter is stopped. -/
  ended : ∃ w, (run a before).adapter.worker = some w ∧ w.status ≠ .running
  closed : (run a before).adapter.conduit.closed = true
  stopped : (run a (before ++ [m])).adapter.phase = .stopped
  /-- It fails with the error of its listener, if that has failed; -/
  io : ∀ error, result = .error (.io error) ↔ (n, error) ∈ (run a (before ++ [m])).failures
  /-- else with an internal error, if the worker has crashed; -/
  internal : (∀ error, (n, error) ∉ (run a (before ++ [m])).failures) →
    ((∃ detail, result = .error (.internal detail))
      ↔ ∃ crash, (run a before).adapter.worker.map (·.status) = some (.crashed crash))
  /-- else it succeeds. -/
  ok : (∀ error, (n, error) ∉ (run a (before ++ [m])).failures) →
    (∀ crash, (run a before).adapter.worker.map (·.status) ≠ some (.crashed crash)) →
    result = .ok ()
  /-- A failure is the one entry at the level of errors, and there is none at a success. -/
  noted : ∀ fault, result = .error fault → (run a (before ++ [m])).errors = [.failed fault]
  silent : result = .ok () → (run a (before ++ [m])).errors = []
  /-- From then on, a send that is polled succeeds if its event had been handed over by then, and
      is told that the channel is closed if not; -/
  told : ∀ more t, ((run a (before ++ m :: more)).adapter.conduit.send? t).isSome = true →
    ((run a (before ++ m :: more)).adapter.conduit.poll t).1.bind (·.result?)
      = some (if t ∈ (run a before).course.journal.returnedTickets then .ok ()
        else .error .channelClosed)
  /-- nothing is handed over, and neither the ledger nor the feed is changed. -/
  final : ∀ more, Still (run a before) (run a (before ++ m :: more))
  /-- The ledger and the feed are those of applying the events that were handed over, and unless
      the worker has crashed, each of them was applied in full. -/
  ledger : (run a before).adapter.ledger = (Ledger.applyAll (run a before).course.handed {}).2
  feed : (run a before).adapter.feed = a.feed.publishAll
    ((Ledger.applyAll (run a before).course.handed {}).1.flatMap (·.changes))
  in_full : (∀ crash, (run a before).adapter.worker.map (·.status) ≠ some (.crashed crash)) →
    List.Forall₂
      (fun report event => report.crash? = none ∧ report.outcomes.length = event.items.length)
      (Ledger.applyAll (run a before).course.handed {}).1 (run a before).course.handed

/-- **When the serving call returns, the adapter is finished.** -/
theorem return_run {options : Options} (h : create options = .ok a) {before : List Move}
    (hn : n ∈ (run a before).claims) (hopen : (run a before).adapter.serveResult? n = none)
    (hreturn : (run a (before ++ [m])).adapter.serveResult? n = some result) :
    Return a before m n result := by
  have hsound := Life.sound_run h before
  have hmirrors := hsound.mirrors
  have hnext : run a (before ++ [m]) = (run a before).step m := Life.run_append a before [m]
  have hover : Life.Over ((run a before).step m) n result := by
    rw [hnext] at hreturn
    exact (hsound.step m).era.over_of_result (List.mem_append_left _ hn) hreturn
  -- The call was under way, so it finds its worker ended.
  have hrunning : Life.Running (run a before) n := by
    rcases hsound.era.running_or_over hn with hrunning | ⟨result', hearlier⟩
    · exact hrunning
    · have hresult := serveResult?_eq_some_iff.2 hearlier.returned
      exact absurd (hopen.symm.trans hresult) (by simp)
  obtain ⟨w, hw⟩ := hrunning.worker
  have hstatus := hrunning.status_of_returns hover
  have hended : w.status ≠ .running := by
    obtain ⟨v, listener, hv, hended, -, -⟩ := hover.worker
    rw [hv, hw] at hstatus
    have hsame : v.status = w.status := Option.some.inj hstatus
    rwa [hsame] at hended
  have hcourse : (run a before).course.status ≠ .running := by
    rw [hmirrors.status hw]
    exact hended
  have hfollow : ∀ more, run a (before ++ m :: more) = (run a before).follow (m :: more) :=
    fun more => Life.run_append a before (m :: more)
  constructor
  case ended => exact ⟨w, hw, hended⟩
  case closed =>
    rw [hmirrors.conduit]
    exact hmirrors.sound.closed_of_ended hcourse
  case stopped => rw [hnext]; exact hover.phase
  case io => rw [hnext]; exact hover.io_iff
  case internal =>
    rw [hnext, ← hstatus]
    exact hover.internal_iff
  case ok =>
    rw [hnext, ← hstatus]
    exact hover.ok_of
  case noted => rw [hnext]; exact fun fault => hover.errors_of_error
  case silent => rw [hnext]; exact hover.errors_of_ok
  case told =>
    intro more t halive
    have hlater := (Life.sound_run h (before ++ m :: more)).mirrors
    have hhalted : (run a before).course.Halted (run a (before ++ m :: more)).course := by
      rw [hfollow]
      exact Life.halted_follow hcourse (m :: more)
    rw [hlater.result_of_ended (hhalted.status.trans_ne hcourse) halive,
      Journal.returnedTickets, hhalted.returned]
    rfl
  case final =>
    intro more
    rw [hfollow]
    exact hsound.still_of_ended hcourse (m :: more)
  case ledger => rw [hmirrors.ledger, hmirrors.sound.ledger]
  case feed => rw [hmirrors.feed, hmirrors.sound.published]
  case in_full =>
    intro hnot
    refine hmirrors.admits.in_full fun crash hcrash => hnot crash ?_
    rw [hw, ← hcrash, hmirrors.status hw]
    rfl

/-- The second event crashes the worker, and the third one is never handed over. The call is
    cancelled, and it returns the crash. -/
theorem return_crashed :
    let before : List Move := [.callServe none, .pollServe 0,
      .startSend ⟨.add, [.raw ⟨"a", []⟩]⟩, .pollSend 0, .pollWorker, .startSend ⟨.add, [.keyless]⟩,
      .pollSend 1, .pollWorker, .startSend ⟨.add, []⟩, .pollSend 2, .cancelServe 0, .pollSignal 0]
    create {} = .ok { options := {}, feed := { width := 1024 } }
      ∧ Return { options := {}, feed := { width := 1024 } } before (.pollServe 0) 0
        (resultOf (.ok ()) (.crashed .keyless))
      ∧ (run { options := {}, feed := { width := 1024 } } before).course.journal.returnedTickets
        = [0, 1]
      ∧ (run { options := {}, feed := { width := 1024 } } before).adapter.ledger
        = ⟨⟨2⟩, ⟨[("a", ⟨.raw ⟨"a", []⟩, 1, 1⟩)]⟩⟩ := by
  intro before
  have h : create {} = .ok { options := {}, feed := { width := 1024 } } := rfl
  exact ⟨h, return_run h (by decide) (by decide) rfl, by decide, by decide⟩

end KeyRelay.Adapter
