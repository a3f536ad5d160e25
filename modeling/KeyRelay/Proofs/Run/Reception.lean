import KeyRelay.Proofs.Run.Ending

set_option autoImplicit false

/-! # Both ends of a conduit close cleanly

A reception is a conduit together with whoever keeps its receiver: it lies at hand and is polled
there, or it was moved into a run, or it is gone. It goes when it is dropped, also together with its
run, and when its run ends, be it cancelled, for want of producers, or by a crash.

Once the receiver is gone the conduit reads closed, and no send is left waiting, at whatever stage
it was caught (`Reception.Sound.poll_of_gone`). As long as it is there, what a poll of it finds is
decided by the slot and by who is left to send; an event whose send was dropped is thrown away on
the way. -/

namespace KeyRelay

open Conduit (Act)

/-- Who keeps the receiver of a conduit. -/
inductive Reception.Keeper where
  /-- It is polled by hand. -/
  | hand
  /-- A run, which was polled before or not. -/
  | run (started : Bool)
  | nobody
  deriving Repr, DecidableEq

/-- A conduit, what was seen of it, and who keeps its receiver. -/
structure Reception where
  journal : Journal := {}
  keeper : Reception.Keeper := .hand
  /-- The cancellation has fired. -/
  cancelled : Bool := false
  deriving Repr, DecidableEq

/-! ## What a poll of the receiver finds -/

namespace Conduit

variable {c : Conduit} {t : Ticket} {event : Event}

theorem emptyReceipt_eq (c : Conduit) :
    c.emptyReceipt = if c.senders = 0 ∧ c.sends = [] then .ended else .pending := by
  simp [emptyReceipt, isDeserted]

theorem sends_ne_nil {s : Send} (hs : c.send? t = some s) : c.sends ≠ [] := by
  intro hnil
  rw [send?, hnil] at hs
  simp at hs

/-- Nothing more comes exactly when no sender and no unfinished send is left. -/
theorem recv_eq_ended_iff (c : Conduit) :
    c.recv.1 = .ended ↔ c.senders = 0 ∧ c.sends = [] := by
  have hempty : c.emptyReceipt = .ended ↔ c.senders = 0 ∧ c.sends = [] := by
    rw [emptyReceipt_eq]
    split <;> simp_all
  cases hslot : c.slot with
  | none => rwa [recv_of_empty hslot]
  | some entry =>
    obtain ⟨t, event⟩ := entry
    cases hs : c.send? t with
    | none => rwa [recv_of_absent hslot hs]
    | some s =>
      rw [recv_of_alive hslot hs]
      exact iff_of_false (by simp) fun hnobody => sends_ne_nil hs hnobody.2

/-- An event comes exactly when it stands in the slot and its send is alive. -/
theorem recv_eq_event_iff (c : Conduit) (event : Event) :
    c.recv.1 = .event event ↔ ∃ t, c.slot = some (t, event) ∧ (c.send? t).isSome = true := by
  cases hslot : c.slot with
  | none =>
    rw [recv_of_empty hslot]
    simpa using emptyReceipt_ne_event c event
  | some entry =>
    obtain ⟨t, event'⟩ := entry
    cases hs : c.send? t with
    | none =>
      rw [recv_of_absent hslot hs]
      refine iff_of_false (emptyReceipt_ne_event c event) ?_
      rintro ⟨u, heq, halive⟩
      obtain ⟨rfl, -⟩ := Prod.mk.inj (Option.some.inj heq)
      simp [hs] at halive
    | some s =>
      rw [recv_of_alive hslot hs]
      constructor
      · intro heq
        obtain rfl := Receipt.event.inj heq
        exact ⟨t, rfl, by simp [hs]⟩
      · rintro ⟨u, heq, -⟩
        rw [(Prod.mk.inj (Option.some.inj heq)).2]

theorem recv_eq_pending_iff (c : Conduit) :
    c.recv.1 = .pending ↔ ¬ (c.senders = 0 ∧ c.sends = [])
      ∧ ∀ t event, c.slot = some (t, event) → c.send? t = none := by
  rw [← recv_eq_ended_iff]
  have hnone : (∀ t event, c.slot = some (t, event) → c.send? t = none)
      ↔ ∀ event, c.recv.1 ≠ .event event := by
    simp only [ne_eq, recv_eq_event_iff, not_exists, not_and, Bool.not_eq_true,
      Option.isSome_eq_false_iff, Option.isNone_iff_eq_none]
    exact ⟨fun h event t => h t event, fun h t event => h event t⟩
  rw [hnone]
  cases c.recv.1 <;> simp

theorem entries_recv (h : ∀ t event, c.slot = some (t, event) → (c.send? t).isSome = true) :
    c.recv.2.1 = [] := by
  cases hslot : c.slot with
  | none => rw [recv_of_empty hslot]
  | some entry =>
    obtain ⟨t, event⟩ := entry
    obtain ⟨s, hs⟩ := Option.isSome_iff_exists.1 (h t event hslot)
    rw [recv_of_alive hslot hs]

/-- A send that has been told its fate is done. -/
theorem send?_poll_of_answer (h : (c.poll t).1 ≠ some .pending) : (c.poll t).2.send? t = none := by
  have hpoll := polling_poll c t
  generalize (c.poll t).1 = answer at hpoll h
  generalize (c.poll t).2 = d at hpoll ⊢
  have hgone : (c.finish t).send? t = none := by rw [send?_finish, if_pos rfl]
  cases hpoll with
  | absent hs => exact hs
  | late _ _ _ => exact hgone
  | accepted _ _ => exact hgone
  | refused _ _ => exact hgone
  | _ => exact absurd rfl h

end Conduit

/-- A run that is cancelled, finds nobody left to send, or takes an event that crashes, is over. -/
theorem Run.status_poll_ne_running (started : Bool) {cancelled : Bool} {c : Conduit} {l : Ledger}
    (hend : cancelled = true ∨ c.recv.1 = .ended
      ∨ ∃ event, c.recv.1 = .event event ∧ (l.apply event).1.crash? ≠ none) :
    (Run.poll started cancelled c l).status ≠ .running := by
  have hpolled := Run.polled_poll started cancelled c l
  cases cancelled with
  | true => simp [hpolled.stopped_of_cancelled rfl]
  | false =>
    show (Run.work c l).status ≠ .running
    rcases hend with hcancelled | hended | ⟨event, hevent, hcrash⟩
    · simp at hcancelled
    · have hrecv : c.recv = (.ended, c.recv.2.1, c.recv.2.2) := by rw [← hended]
      rw [Run.work_of_receipt hrecv (by simp), Run.Progress.status_noting]
      simp [Run.rest, Run.stop]
    · have hrecv : c.recv = (.event event, c.recv.2.1, c.recv.2.2) := by rw [← hevent]
      obtain ⟨crash, hcrash⟩ := Option.ne_none_iff_exists'.1 hcrash
      rw [Run.work_of_event hrecv, Run.Progress.status_noting,
        Run.status_reduce_of_crash hcrash]
      simp

namespace Reception

/-! ## Moves -/

/-- What can happen at the two ends. -/
inductive Move where
  | act (act : Act)
  /-- The receiver is polled by hand. -/
  | recv
  /-- A pending poll of the receiver is given up. -/
  | dropRecv
  /-- The receiver is moved into a run. -/
  | run
  /-- The run is polled, on the ledger as it stands then. -/
  | pollRun (ledger : Ledger)
  | cancel
  /-- The receiver is dropped, and the run with it if it is in one. -/
  | drop
  deriving Repr, DecidableEq

/-- What a poll of the run leaves behind. The receiver goes when the run ends. -/
def after (r : Reception) (p : Run.Progress) : Reception :=
  { r with
    journal := { r.journal with
      conduit := p.conduit
      returned := r.journal.returned ++ Run.taking r.cancelled r.journal.conduit }
    keeper := if p.status = .running then .run true else .nobody }

/-- Carries out a move. A receiver that is not where a move looks for it is left alone. -/
def step (r : Reception) : Move → Reception
  | .act act => { r with journal := r.journal.act act }
  | .recv => if r.keeper = .hand then { r with journal := r.journal.recv } else r
  | .dropRecv => { r with journal := r.journal.step .dropRecv }
  | .run => if r.keeper = .hand then { r with keeper := .run false } else r
  | .pollRun ledger =>
      match r.keeper with
      | .run started => r.after (Run.poll started r.cancelled r.journal.conduit ledger)
      | _ => r
  | .cancel => { r with cancelled := true }
  | .drop =>
      if r.keeper = .nobody then r else { r with journal := r.journal.close, keeper := .nobody }

/-- Carries out moves one after the other. -/
def follow (r : Reception) (moves : List Move) : Reception := moves.foldl step r

/-- What a schedule makes of a new conduit. -/
def run (moves : List Move) : Reception := follow {} moves

theorem run_append (moves more : List Move) : run (moves ++ more) = (run moves).follow more :=
  List.foldl_append

/-! ## The invariant -/

/-- What was seen of the conduit agrees with its state, and it reads closed exactly when nobody
    keeps the receiver. -/
structure Sound (r : Reception) : Prop where
  journal : r.journal.Sound
  closed_iff : r.journal.conduit.closed = true ↔ r.keeper = .nobody

theorem sound_new : Sound {} := ⟨Journal.sound_new, by simp⟩

variable {r : Reception}

theorem closed_leaving (cancelled : Bool) (c : Conduit) :
    (Run.leaving cancelled c).closed = c.closed := by
  unfold Run.leaving
  split
  · rfl
  · exact Conduit.closed_recv c

/-- The run lets go of the receiver when it ends, and only then. -/
theorem Sound.after (h : r.Sound) {l : Ledger} {p : Run.Progress} {started : Bool}
    (hkeeper : r.keeper = .run started)
    (hp : Run.Polled r.cancelled r.journal.conduit l p) : (r.after p).Sound where
  journal := Run.Course.sound_journal_poll h.journal hp
  closed_iff := by
    have hopen : r.journal.conduit.closed = false := by
      rw [← Bool.not_eq_true, h.closed_iff, hkeeper]
      simp
    show p.conduit.closed = true
      ↔ (if p.status = .running then Keeper.run true else .nobody) = .nobody
    rw [hp.conduit]
    by_cases hrunning : p.status = .running
    · rw [if_pos hrunning, if_pos hrunning, closed_leaving, hopen]
      simp
    · rw [if_neg hrunning, if_neg hrunning]
      exact iff_of_true rfl rfl

theorem Sound.act (h : r.Sound) (a : Act) : (r.step (.act a)).Sound where
  journal := h.journal.act a
  closed_iff := by
    show (r.journal.act a).conduit.closed = true ↔ r.keeper = .nobody
    rw [Journal.conduit_closed_act]
    exact h.closed_iff

theorem Sound.step (h : r.Sound) (m : Move) : (r.step m).Sound := by
  cases m with
  | act a => exact h.act a
  | recv =>
    simp only [Reception.step]
    split
    · refine ⟨h.journal.recv, ?_⟩
      show r.journal.conduit.recv.2.2.closed = true ↔ _
      rw [Conduit.closed_recv]
      exact h.closed_iff
    · exact h
  | dropRecv => exact ⟨h.journal.of_receiving false, h.closed_iff⟩
  | run =>
    simp only [Reception.step]
    split
    · next hhand =>
        refine ⟨h.journal, ?_⟩
        rw [h.closed_iff, hhand]
        simp
    · exact h
  | pollRun ledger =>
    simp only [Reception.step]
    split
    · next started hkeeper =>
        exact h.after hkeeper (Run.polled_poll started r.cancelled r.journal.conduit ledger)
    · exact h
  | cancel => exact ⟨h.journal, h.closed_iff⟩
  | drop =>
    simp only [Reception.step]
    split
    · exact h
    · exact ⟨h.journal.close, iff_of_true rfl rfl⟩

theorem Sound.follow (h : r.Sound) (moves : List Move) : (r.follow moves).Sound := by
  induction moves generalizing r with
  | nil => exact h
  | cons m rest ih => exact ih (h.step m)

theorem sound_run (moves : List Move) : (run moves).Sound := sound_new.follow moves

/-! ## After the receiver has gone -/

/-- Whoever waits is told at the next poll, and is done. -/
theorem Sound.poll_of_gone (h : r.Sound) (hgone : r.keeper = .nobody) {t : Ticket}
    (halive : (r.journal.conduit.send? t).isSome = true) :
    (r.journal.conduit.poll t).1
        = some (if t ∈ r.journal.returnedTickets then .accepted else .refused)
      ∧ (r.journal.conduit.poll t).2.send? t = none := by
  have hanswer : (r.journal.conduit.poll t).1
      = some (if t ∈ r.journal.returnedTickets then .accepted else .refused) := by
    split
    · next hmem => exact h.journal.poll_of_returned hmem halive
    · next hnot => exact h.journal.poll_of_closed (h.closed_iff.2 hgone) hnot halive
  refine ⟨hanswer, Conduit.send?_poll_of_answer ?_⟩
  rw [hanswer]
  split <;> simp

/-- Whoever comes is refused at once. -/
theorem Sound.poll_start_of_gone (h : r.Sound) (hgone : r.keeper = .nobody) (event : Event) :
    ((r.journal.conduit.start event).2.poll (r.journal.conduit.start event).1).1
      = some .refused := by
  have hnew : r.journal.conduit.send? r.journal.conduit.issued = none := by
    cases hs : r.journal.conduit.send? r.journal.conduit.issued with
    | none => rfl
    | some s => exact absurd (h.journal.conduit.issued_of_alive hs) (Nat.lt_irrefl _)
  have hs : (r.journal.conduit.start event).2.send? r.journal.conduit.issued
      = some ⟨r.journal.conduit.issued, event, .fresh⟩ := by
    rw [Conduit.send?_start, hnew, if_pos rfl]
    rfl
  have hclosed : (r.journal.conduit.start event).2.closed = true := h.closed_iff.2 hgone
  show ((r.journal.conduit.start event).2.poll r.journal.conduit.issued).1 = _
  simp only [Conduit.poll, hs, hclosed, if_true]

theorem keeper_step (hgone : r.keeper = .nobody) (m : Move) : (r.step m).keeper = .nobody := by
  cases m <;> simp [step, hgone]

theorem keeper_follow (hgone : r.keeper = .nobody) (moves : List Move) :
    (r.follow moves).keeper = .nobody := by
  induction moves generalizing r with
  | nil => exact hgone
  | cons m rest ih => exact ih (keeper_step hgone m)

/-- A run lets go of the receiver when it is cancelled, when nobody is left to send, and when it
    takes an event that crashes it. -/
theorem keeper_pollRun {started : Bool} (hkeeper : r.keeper = .run started) {ledger : Ledger}
    (hend : r.cancelled = true ∨ r.journal.conduit.recv.1 = .ended
      ∨ ∃ event, r.journal.conduit.recv.1 = .event event
        ∧ (ledger.apply event).1.crash? ≠ none) :
    (r.step (.pollRun ledger)).keeper = .nobody := by
  have hstatus := Run.status_poll_ne_running started hend
  simp only [step, hkeeper, after, if_neg hstatus]

/-! ## Clean ends -/

/-- What holds of a conduit and its receiver at every moment. -/
structure ClosesCleanly (r : Reception) : Prop where
  /-- The receiver is gone for good when it is dropped, and when its run is cancelled, runs out of
      producers or crashes. -/
  drops : (r.step .drop).keeper = .nobody
  ends : ∀ started ledger, r.keeper = .run started →
    (r.cancelled = true ∨ r.journal.conduit.recv.1 = .ended
      ∨ ∃ event, r.journal.conduit.recv.1 = .event event
        ∧ (ledger.apply event).1.crash? ≠ none) →
    (r.step (.pollRun ledger)).keeper = .nobody
  gone : r.keeper = .nobody → ∀ more, (r.follow more).keeper = .nobody
  /-- The conduit reads closed, through whatever sender, once it is gone and not before. -/
  closed_iff : r.journal.conduit.closed = true ↔ r.keeper = .nobody
  /-- Then no send is left waiting. The next poll of an unfinished one accepts it if its event was
      handed over and refuses it else, and the first poll of a new one refuses it. -/
  answered : r.keeper = .nobody → ∀ t, (r.journal.conduit.send? t).isSome = true →
    (r.journal.conduit.poll t).1
        = some (if t ∈ r.journal.returnedTickets then .accepted else .refused)
      ∧ (r.journal.conduit.poll t).2.send? t = none
  refused : r.keeper = .nobody → ∀ event,
    ((r.journal.conduit.start event).2.poll (r.journal.conduit.start event).1).1 = some .refused
  /-- As long as the receiver is there, its poll finds the end exactly when no sender and no
      unfinished send is left. It finds an event exactly when the send of the one in the slot is
      alive, and else it has to wait. -/
  ended_iff : r.keeper ≠ .nobody → (r.journal.conduit.recv.1 = .ended
    ↔ r.journal.conduit.senders = 0 ∧ r.journal.conduit.sends = [])
  event_iff : r.keeper ≠ .nobody → ∀ event, (r.journal.conduit.recv.1 = .event event
    ↔ ∃ t, r.journal.conduit.slot = some (t, event)
      ∧ (r.journal.conduit.send? t).isSome = true)
  pending_iff : r.keeper ≠ .nobody → (r.journal.conduit.recv.1 = .pending
    ↔ ¬ (r.journal.conduit.senders = 0 ∧ r.journal.conduit.sends = [])
      ∧ ∀ t event, r.journal.conduit.slot = some (t, event) → r.journal.conduit.send? t = none)
  /-- An event whose send was dropped is thrown away by this poll, and a single note tells the
      number of its items. It is not returned, and whether it is the end is up to who is left to
      send. -/
  abandoned : r.keeper ≠ .nobody → ∀ t event, r.journal.conduit.slot = some (t, event) →
    r.journal.conduit.send? t = none →
    r.journal.conduit.recv.1
        = (if r.journal.conduit.senders = 0 ∧ r.journal.conduit.sends = [] then .ended
          else .pending)
      ∧ r.journal.conduit.recv.2.1 = [.abandoned event.items.length]
      ∧ r.journal.conduit.recv.2.2.slot = none
  /-- Without such an event nothing is noted. -/
  unnoted : r.keeper ≠ .nobody →
    (∀ t event, r.journal.conduit.slot = some (t, event) →
      (r.journal.conduit.send? t).isSome = true) → r.journal.conduit.recv.2.1 = []

/-- **Both ends close cleanly.** However sends are started, polled and dropped through any number of
    senders, and whatever becomes of the receiver, by hand or in a run, nobody waits for an end
    that is gone, and the receiver knows what to wait for. -/
theorem closesCleanly_run (moves : List Move) : ClosesCleanly (run moves) := by
  have hsound := sound_run moves
  constructor
  case drops =>
    simp only [step]
    split
    · assumption
    · rfl
  case ends => exact fun _ _ hkeeper hend => keeper_pollRun hkeeper hend
  case gone => exact keeper_follow
  case closed_iff => exact hsound.closed_iff
  case answered => exact fun hgone _ halive => hsound.poll_of_gone hgone halive
  case refused => exact hsound.poll_start_of_gone
  case ended_iff => exact fun _ => Conduit.recv_eq_ended_iff _
  case event_iff => exact fun _ => Conduit.recv_eq_event_iff _
  case pending_iff => exact fun _ => Conduit.recv_eq_pending_iff _
  case abandoned =>
    intro _ t event hslot hs
    rw [Conduit.recv_of_absent hslot hs, Conduit.emptyReceipt_eq]
    exact ⟨rfl, rfl, rfl⟩
  case unnoted =>
    intro _ halive
    exact Conduit.entries_recv halive

/-- The last producer gives up while its event stands in the slot: the run throws the event away and
    finds the end behind it in the same poll. -/
example :
    let r := run [.act (.start ⟨.add, [.keyless, .keyless]⟩), .act (.poll 0), .run,
      .act (.drop 0), .act .dropSender]
    r.journal.conduit.slot.isSome ∧ r.journal.conduit.recv.1 = .ended
      ∧ r.journal.conduit.recv.2.1 = [.abandoned 2]
      ∧ (r.step (.pollRun {})).keeper = .nobody := by
  decide

end Reception

end KeyRelay
