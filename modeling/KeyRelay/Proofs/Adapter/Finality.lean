import KeyRelay.Proofs.Adapter.Lifecycle
import KeyRelay.Proofs.Adapter.Return

set_option autoImplicit false

/-! # How final a shutdown is

A call of `shutdown` that succeeds finds the adapter stopped. If the receiver was claimed before,
nothing is applied ever after (`finality_run`). But the shutdown of an idle adapter leaves the
receiver in its slot: a call of `serve` that comes later claims it, and its worker may take events
before it hears of the stop (`not_final_of_idle`). Then the adapter is at rest until that claim, and
again once that call has returned. -/

namespace KeyRelay.Adapter

open Life (run Still)

variable {a : Adapter} {i : Nat} {expired : Bool}

namespace Life

variable {feed : Feed} {l l' : Life}

/-- As long as nobody claims the receiver, nothing is applied. -/
theorem Sound.still_of_receiver (h : Sound feed l) (h' : Sound feed l')
    (hreceiver : l.adapter.receiver = true) (hreceiver' : l'.adapter.receiver = true) :
    Still l l' := by
  have huntouched : ∀ {k : Life}, Sound feed k → k.adapter.receiver = true →
      k.course.journal.returned = [] := fun hk hfull =>
    hk.mirrors.untouched (hk.era.vacant_of_receiver hfull).worker
  have hreturned : l'.course.journal.returned = l.course.journal.returned :=
    (huntouched h' hreceiver').trans (huntouched h hreceiver).symm
  have hhanded : l'.course.handed = l.course.handed := congrArg (List.map Prod.snd) hreturned
  constructor
  case ledger =>
    rw [h'.mirrors.ledger, h.mirrors.ledger, h'.mirrors.sound.ledger, h.mirrors.sound.ledger,
      hhanded]
  case feed =>
    rw [h'.mirrors.feed, h.mirrors.feed, h'.mirrors.sound.published, h.mirrors.sound.published,
      hhanded]
  case returned => exact hreturned

theorem receiver_follow (hreceiver : l.adapter.receiver = false) (moves : List Move) :
    (l.follow moves).adapter.receiver = false :=
  follow_of_step (·.adapter.receiver = false)
    (fun l m hreceiver => (stepping_step l.adapter m).receiver hreceiver) hreceiver moves

/-- An adapter that is stopped after the receiver was claimed is at rest. -/
theorem Sound.still_of_stopped (h : Sound feed l) (hstopped : l.adapter.phase = .stopped)
    (hreceiver : l.adapter.receiver = false) (moves : List Move) : Still l (l.follow moves) := by
  obtain ⟨n, hn⟩ := h.era.slot.1 hreceiver
  obtain ⟨result, hresult⟩ := (h.era.ended_of_stopped hstopped).1 n hn
  exact h.still_of_ended (h.mirrors.ended_of_over (h.era.over_of_result hn hresult)) moves

end Life

/-- What follows from the success of a call of `shutdown`, if these are the moves up to the poll by
    which it succeeds. -/
structure Finality (a : Adapter) (moves : List Move) : Prop where
  /-- If the receiver was claimed by then, nothing is applied ever after. -/
  claimed : (run a moves).adapter.receiver = false → ∀ more,
    Still (run a moves) (run a (moves ++ more))
  /-- If not, nothing is applied as long as no call of `serve` claims it, -/
  unclaimed : ∀ more, (run a (moves ++ more)).adapter.receiver = true →
    Still (run a moves) (run a (moves ++ more))
  /-- and again nothing once the call that has claimed it has returned. -/
  returned : ∀ more n result, n ∈ (run a (moves ++ more)).claims →
    (run a (moves ++ more)).adapter.serveResult? n = some result →
    ∀ later, Still (run a (moves ++ more)) (run a (moves ++ more ++ later))

/-- **A successful shutdown is final** for an adapter whose receiver was claimed, and for one whose
    receiver is not claimed later. -/
theorem finality_run {options : Options} (h : create options = .ok a) {moves : List Move}
    (hopen : (run a moves).adapter.shutdownResult? i = none)
    (hgranted : (run a (moves ++ [.pollShutdown i expired])).adapter.shutdownResult? i
      = some (.ok ())) : Finality a (moves ++ [.pollShutdown i expired]) := by
  have hsound := Life.sound_run h
  have hstopped := stopped_of_granted hopen hgranted
  generalize moves ++ [.pollShutdown i expired] = moves at hstopped ⊢
  constructor
  case claimed =>
    intro hreceiver more
    rw [Life.run_append]
    exact (hsound moves).still_of_stopped hstopped hreceiver more
  case unclaimed =>
    intro more hreceiver
    have hearlier : (run a moves).adapter.receiver = true := by
      by_contra hclaimed
      rw [Life.run_append] at hreceiver
      have := Life.receiver_follow (by simpa using hclaimed) more
      exact absurd (this.symm.trans hreceiver) (by decide)
    exact (hsound moves).still_of_receiver (hsound (moves ++ more)) hearlier hreceiver
  case returned =>
    intro more n result hn hresult later
    have hover := (hsound (moves ++ more)).era.over_of_result hn hresult
    rw [Life.run_append _ (moves ++ more) later]
    exact (hsound _).still_of_ended ((hsound _).mirrors.ended_of_over hover) later

/-- A call of `serve` is under way when the shutdown begins, and the shutdown waits for it. The item
    that was applied before stays alone, and a send that comes later is refused. -/
theorem finality_waited :
    let a : Adapter := { options := {}, feed := { width := 1024 } }
    let first := Item.raw ⟨"a", []⟩
    let moves : List Move := [.startSend ⟨.add, [first]⟩, .pollSend 0, .callServe none,
      .pollServe 0, .pollWorker, .callShutdown ⟨5, 0⟩, .pollShutdown 0 false, .pollSignal 0,
      .pollServe 0, .pollWorker, .pollServe 0]
    let granted := moves ++ [.pollShutdown 0 false]
    let more : List Move := [.startSend ⟨.add, [.raw ⟨"b", []⟩]⟩, .pollWorker]
    create {} = .ok a ∧ (run a moves).adapter.shutdownResult? 0 = none
      ∧ (run a granted).adapter.shutdownResult? 0 = some (.ok ()) ∧ Finality a granted
      ∧ (run a granted).adapter.receiver = false
      ∧ (run a granted).adapter.ledger.store.records = [⟨first, 1, 1⟩]
      ∧ (run a (granted ++ more)).adapter.ledger.store.records = [⟨first, 1, 1⟩]
      ∧ (run a (granted ++ more)).adapter.ledger.counter.current = 1
      ∧ ((run a (granted ++ more)).adapter.conduit.poll 1).1 = some .refused := by
  intro a first moves granted more
  have h : create {} = .ok a := rfl
  have hopen : (run a moves).adapter.shutdownResult? 0 = none := by decide
  have hgranted : (run a granted).adapter.shutdownResult? 0 = some (.ok ()) := by decide
  exact ⟨h, hopen, hgranted, finality_run h hopen hgranted, by decide, by decide, by decide,
    by decide, by decide⟩

/-- A shutdown that succeeds on an idle adapter is not final: the event of a send that waits is
    applied by a call of `serve` that comes later. -/
theorem not_final_of_idle :
    ¬ ∀ options a moves i expired more, create options = .ok a →
      (run a moves).adapter.shutdownResult? i = none →
      (run a (moves ++ [.pollShutdown i expired])).adapter.shutdownResult? i = some (.ok ()) →
      Still (run a (moves ++ [.pollShutdown i expired]))
        (run a (moves ++ [.pollShutdown i expired] ++ more)) := by
  intro hfinal
  have hstill := hfinal {} { options := {}, feed := { width := 1024 } }
    [.startSend ⟨.add, [.raw ⟨"a", []⟩]⟩, .pollSend 0, .callShutdown ⟨5, 0⟩] 0 false
    [.callServe none, .pollServe 0, .pollWorker] rfl (by decide) (by decide)
  exact absurd hstill.ledger (by decide)

end KeyRelay.Adapter
