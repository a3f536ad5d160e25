import KeyRelay.Run
import KeyRelay.Proofs.Conduit.Handover
import KeyRelay.Proofs.Reduction.Weighing

set_option autoImplicit false

/-! # A run is reduction in order of arrival

A course is a run at work on a conduit: producers act, the run is polled, and it may be cancelled,
in any order. Whatever the schedule, the ledger and the published changes are those of applying the
events that were handed over, one after the other (`Run.Course.Sound`). The single fact about the
run behind this is what one poll of it does (`Run.polled_poll`): it applies what the conduit hands
over, or nothing at all once it was cancelled, and it takes the receiver with it when it ends. -/

namespace KeyRelay

namespace Run

/-! ## One poll -/

@[simp]
theorem Progress.status_noting (entries : List LogEntry) (p : Progress) :
    (p.noting entries).status = p.status := rfl

@[simp]
theorem Progress.conduit_noting (entries : List LogEntry) (p : Progress) :
    (p.noting entries).conduit = p.conduit := rfl

@[simp]
theorem Progress.ledger_noting (entries : List LogEntry) (p : Progress) :
    (p.noting entries).ledger = p.ledger := rfl

@[simp]
theorem Progress.changes_noting (entries : List LogEntry) (p : Progress) :
    (p.noting entries).changes = p.changes := rfl

/-- What is noted in front of notes stands in front of them. -/
theorem Progress.noting_noting (before entries : List LogEntry) (p : Progress) :
    (p.noting entries).noting before = p.noting (before ++ entries) := by
  simp only [noting, List.append_assoc]

/-- What a poll of a run takes from the conduit. -/
def taking (cancelled : Bool) (c : Conduit) : List (Ticket × Event) :=
  if cancelled then [] else c.handing

/-- A poll of a run takes one event at most. -/
theorem taking_eq_nil_or_singleton (cancelled : Bool) (c : Conduit) :
    taking cancelled c = [] ∨ ∃ t event, taking cancelled c = [(t, event)] := by
  unfold taking Conduit.handing
  split
  · exact Or.inl rfl
  · split
    · exact Or.inr ⟨_, _, rfl⟩
    · exact Or.inl rfl

/-- The conduit after the run has taken from it. -/
def leaving (cancelled : Bool) (c : Conduit) : Conduit := if cancelled then c else c.recv.2.2

/-- What a poll of a run does: it applies what it takes. -/
structure Polled (cancelled : Bool) (c : Conduit) (l : Ledger) (p : Progress) : Prop where
  ledger : p.ledger = (Ledger.applyAll ((taking cancelled c).map (·.2)) l).2
  changes : p.changes
    = (Ledger.applyAll ((taking cancelled c).map (·.2)) l).1.flatMap (·.changes)
  conduit : p.conduit
    = if p.status = .running then leaving cancelled c else (leaving cancelled c).close
  stopped_of_cancelled : cancelled = true → p.status = .stopped
  crashed : ∀ crash, p.status = .crashed crash →
    ∃ report ∈ (Ledger.applyAll ((taking cancelled c).map (·.2)) l).1, report.crash? = some crash

/-- A run that takes nothing changes nothing. It ends, or it waits. -/
theorem polled_of_idle {cancelled : Bool} {c d : Conduit} {l : Ledger} {p : Progress}
    (htaking : taking cancelled c = []) (hleaving : leaving cancelled c = d)
    (hledger : p.ledger = l) (hchanges : p.changes = [])
    (hend : p.status = .stopped ∧ p.conduit = d.close
      ∨ cancelled = false ∧ p.status = .running ∧ p.conduit = d) :
    Polled cancelled c l p := by
  constructor
  case ledger => rw [htaking, hledger]; rfl
  case changes => rw [htaking, hchanges]; rfl
  case conduit => rcases hend with ⟨hs, hc⟩ | ⟨-, hs, hc⟩ <;> simp [hs, hc, hleaving]
  case stopped_of_cancelled =>
    intro hcancelled
    rcases hend with ⟨hs, -⟩ | ⟨hnot, -⟩
    · exact hs
    · exact absurd (hcancelled.symm.trans hnot) (by decide)
  case crashed => rcases hend with ⟨hs, -⟩ | ⟨-, hs, -⟩ <;> simp [hs]

/-- How a run rests: nothing is changed, and it ends if nobody is left to send. -/
theorem rest_cases (receipt : Conduit.Receipt) (d : Conduit) (l : Ledger) :
    (rest receipt d l).ledger = l ∧ (rest receipt d l).changes = []
      ∧ ((rest receipt d l).status = .stopped ∧ (rest receipt d l).conduit = d.close
        ∨ (rest receipt d l).status = .running ∧ (rest receipt d l).conduit = d) := by
  unfold rest
  split
  · exact ⟨rfl, rfl, Or.inl ⟨rfl, rfl⟩⟩
  · exact ⟨rfl, rfl, Or.inr ⟨rfl, rfl⟩⟩

theorem work_of_event {c d : Conduit} {event : Event} {entries : List LogEntry}
    (h : c.recv = (.event event, entries, d)) (l : Ledger) :
    work c l = (reduce event d l).noting entries := by
  unfold work
  rw [h]

theorem work_of_receipt {c d : Conduit} {receipt : Conduit.Receipt} {entries : List LogEntry}
    (h : c.recv = (receipt, entries, d)) (hnone : ∀ event, receipt ≠ .event event) (l : Ledger) :
    work c l = (rest receipt d l).noting entries := by
  unfold work
  rw [h]
  cases receipt with
  | event event => exact absurd rfl (hnone event)
  | pending => rfl
  | ended => rfl

/-- An event that was taken is applied, and then the run rests, if the event did not crash it. -/
theorem polled_of_taken {c d : Conduit} {t : Ticket} {event : Event} {l : Ledger} {p : Progress}
    {entries : List LogEntry} (hhanding : c.handing = [(t, event)]) (hrecv : c.recv.2.2 = d)
    (hp : p = (reduce event d l).noting entries) : Polled false c l p := by
  have happlied : Ledger.applyAll ((taking false c).map (·.2)) l
      = ([(l.apply event).1], (l.apply event).2) := by
    rw [taking, if_neg (by decide), hhanding]
    rfl
  have hleaving : leaving false c = d := hrecv
  subst hp
  cases hcrash : (l.apply event).1.crash? with
  | some crash =>
    constructor <;> simp [reduce, hcrash, happlied, hleaving]
  | none =>
    obtain ⟨hledger, -, hend⟩ := rest_cases d.emptyReceipt d (l.apply event).2
    constructor
    case ledger => simp [reduce, hcrash, happlied, hledger]
    case changes => simp [reduce, hcrash, happlied]
    case conduit =>
      rcases hend with ⟨hs, hc⟩ | ⟨hs, hc⟩ <;> simp [reduce, hcrash, hs, hc, hleaving]
    case stopped_of_cancelled => simp
    case crashed => rcases hend with ⟨hs, -⟩ | ⟨hs, -⟩ <;> simp [reduce, hcrash, hs]

/-- A run that is not cancelled applies the event that the conduit hands over, if there is one. -/
theorem polled_work (c : Conduit) (l : Ledger) : Polled false c l (work c l) := by
  have hidle : ∀ {receipt entries d}, c.recv = (receipt, entries, d) → c.handing = [] →
      (∀ event, receipt ≠ .event event) → Polled false c l (work c l) := by
    intro receipt entries d hrecv hhanding hnone
    obtain ⟨hledger, hchanges, hend⟩ := rest_cases receipt d l
    rw [work_of_receipt hrecv hnone]
    refine polled_of_idle hhanding (congrArg (·.2.2) hrecv) hledger hchanges ?_
    exact hend.imp id fun hrunning => ⟨rfl, hrunning⟩
  -- An empty slot and an abandoned event come to the same: nothing is handed over.
  have hreceiving := Conduit.receiving_recv c
  have hrecv : c.recv = (c.recv.1, c.recv.2.1, c.recv.2.2) := rfl
  generalize c.recv.1 = receipt at hreceiving hrecv
  generalize c.recv.2.1 = entries at hreceiving hrecv
  generalize c.recv.2.2 = d at hreceiving hrecv
  cases hreceiving with
  | empty hslot =>
    exact hidle hrecv (Conduit.handing_of_empty hslot) (Conduit.emptyReceipt_ne_event _)
  | taken hslot hs =>
    exact polled_of_taken (Conduit.handing_of_alive hslot hs) (congrArg (·.2.2) hrecv)
      (work_of_event hrecv l)
  | passed hslot hs =>
    exact hidle hrecv (Conduit.handing_of_absent hslot hs) (Conduit.emptyReceipt_ne_event _)

theorem Polled.noting {cancelled : Bool} {c : Conduit} {l : Ledger} {p : Progress}
    (h : Polled cancelled c l p) (entries : List LogEntry) :
    Polled cancelled c l (p.noting entries) :=
  ⟨h.ledger, h.changes, h.conduit, h.stopped_of_cancelled, h.crashed⟩

theorem polled_poll (started cancelled : Bool) (c : Conduit) (l : Ledger) :
    Polled cancelled c l (poll started cancelled c l) := by
  unfold poll
  refine Polled.noting ?_ _
  cases cancelled with
  | false => exact polled_work c l
  | true => exact polled_of_idle rfl rfl rfl rfl (Or.inl ⟨rfl, rfl⟩)

/-! ## A run at work -/

open Conduit (Act)

/-- A run and the conduit it drains, with what was seen of both. -/
structure Course where
  journal : Journal := {}
  ledger : Ledger
  /-- The changes that were published, oldest first. -/
  published : List Change := []
  status : Status := .running
  /-- The run was polled before. -/
  started : Bool := false
  /-- The cancellation has fired. -/
  cancelled : Bool := false
  deriving Repr, DecidableEq

/-- What can happen while a run is at work. -/
inductive Move where
  | act (act : Act)
  | poll
  | cancel
  deriving Repr, DecidableEq

namespace Course

/-- The events that were handed over to the run, in order. -/
def handed (r : Course) : List Event := r.journal.returned.map (·.2)

/-- The course after a poll of the run. -/
def after (r : Course) (p : Progress) : Course :=
  { r with
    journal := { r.journal with
      conduit := p.conduit
      returned := r.journal.returned ++ taking r.cancelled r.journal.conduit }
    ledger := p.ledger
    published := r.published ++ p.changes
    status := p.status
    started := true }

/-- The run is polled. A run that has ended is left alone. -/
def poll (r : Course) : Course :=
  if r.status = .running then
    r.after (Run.poll r.started r.cancelled r.journal.conduit r.ledger)
  else r

/-- Carries out a move. -/
def step (r : Course) : Move → Course
  | .act act => { r with journal := r.journal.act act }
  | .poll => r.poll
  | .cancel => { r with cancelled := true }

/-- Carries out moves one after the other. -/
def follow (r : Course) (moves : List Move) : Course := moves.foldl step r

/-- What a schedule makes of a new run that works on a ledger. -/
def run (l : Ledger) (moves : List Move) : Course := follow { ledger := l } moves

theorem run_append (l : Ledger) (moves more : List Move) :
    run l (moves ++ more) = (run l moves).follow more := List.foldl_append

/-! ## The invariant -/

/-- The run has applied to `l` what was handed over to it, and the receiver goes when it ends. -/
structure Sound (l : Ledger) (r : Course) : Prop where
  journal : r.journal.Sound
  ledger : r.ledger = (Ledger.applyAll r.handed l).2
  published : r.published = (Ledger.applyAll r.handed l).1.flatMap (·.changes)
  closed_of_ended : r.status ≠ .running → r.journal.conduit.closed = true
  crashed : ∀ crash, r.status = .crashed crash →
    ∃ report ∈ (Ledger.applyAll r.handed l).1, report.crash? = some crash

theorem sound_new (l : Ledger) : Sound l { ledger := l } where
  journal := Journal.sound_new
  ledger := rfl
  published := rfl
  closed_of_ended := by simp
  crashed := by simp

variable {l : Ledger} {r : Course}

/-- What producers do is no concern of the ledger. -/
theorem Sound.act (h : Sound l r) (a : Act) : Sound l (r.step (.act a)) := by
  have hhanded : (r.step (.act a)).handed = r.handed := by
    show (r.journal.act a).returned.map (·.2) = r.journal.returned.map (·.2)
    rw [Journal.returned_act]
  constructor
  case journal => exact h.journal.act a
  case ledger => rw [hhanded]; exact h.ledger
  case published => rw [hhanded]; exact h.published
  case closed_of_ended =>
    intro hended
    exact (Journal.conduit_closed_act r.journal a).trans (h.closed_of_ended hended)
  case crashed => rw [hhanded]; exact h.crashed

/-- What a poll of a run does to the journal is done by the receiver: it is polled unless the run
    was cancelled, and it goes if the run ends. -/
theorem sound_journal_poll {j : Journal} (h : j.Sound) {cancelled : Bool} {p : Progress}
    (hp : Polled cancelled j.conduit l p) :
    Journal.Sound { j with
      conduit := p.conduit
      returned := j.returned ++ taking cancelled j.conduit } := by
  have hnext : Journal.Sound { j with
      conduit := leaving cancelled j.conduit
      returned := j.returned ++ taking cancelled j.conduit } := by
    cases cancelled with
    | false => exact h.recv.of_receiving j.receiving
    | true => simpa [leaving, taking] using h
  rw [hp.conduit]
  split
  · exact hnext
  · exact hnext.close.of_receiving j.receiving

theorem handed_after (r : Course) (p : Progress) :
    (r.after p).handed = r.handed ++ (taking r.cancelled r.journal.conduit).map (·.2) :=
  List.map_append

theorem Sound.after (h : Sound l r) {p : Progress}
    (hp : Polled r.cancelled r.journal.conduit r.ledger p) : Sound l (r.after p) := by
  -- What was applied before has led to the ledger that this poll starts from.
  have happlied : Ledger.applyAll (r.after p).handed l = _ :=
    congrArg (Ledger.applyAll · l) (handed_after r p)
  rw [Ledger.applyAll_append, ← h.ledger] at happlied
  constructor
  case journal => exact sound_journal_poll h.journal hp
  case ledger =>
    rw [happlied]
    exact hp.ledger
  case published =>
    rw [happlied, List.flatMap_append, ← h.published, ← hp.changes]
    rfl
  case closed_of_ended =>
    intro (hended : p.status ≠ .running)
    show p.conduit.closed = true
    rw [hp.conduit, if_neg hended]
    rfl
  case crashed =>
    intro crash hcrash
    obtain ⟨report, hmem, hreport⟩ := hp.crashed crash hcrash
    rw [happlied]
    exact ⟨report, List.mem_append_right _ hmem, hreport⟩

theorem Sound.poll (h : Sound l r) : Sound l r.poll := by
  unfold Course.poll
  split
  · exact h.after (polled_poll r.started r.cancelled r.journal.conduit r.ledger)
  · exact h

theorem Sound.step (h : Sound l r) (m : Move) : Sound l (r.step m) := by
  cases m with
  | act a => exact h.act a
  | poll => exact h.poll
  | cancel => exact ⟨h.journal, h.ledger, h.published, h.closed_of_ended, h.crashed⟩

theorem Sound.follow (h : Sound l r) (moves : List Move) : Sound l (r.follow moves) := by
  induction moves generalizing r with
  | nil => exact h
  | cons m rest ih => exact ih (h.step m)

theorem sound_run (l : Ledger) (moves : List Move) : Sound l (run l moves) :=
  (sound_new l).follow moves

/-- While it is neither cancelled nor ended, a run takes what stands in the slot for a living
    send. -/
theorem returned_poll (hcancelled : r.cancelled = false) (hrunning : r.status = .running)
    {t : Ticket} {event : Event} (hslot : r.journal.conduit.slot = some (t, event))
    (halive : (r.journal.conduit.send? t).isSome = true) :
    r.poll.journal.returned = r.journal.returned ++ [(t, event)] := by
  obtain ⟨s, hs⟩ := Option.isSome_iff_exists.1 halive
  unfold Course.poll
  rw [if_pos hrunning]
  show r.journal.returned ++ taking r.cancelled r.journal.conduit = _
  rw [taking, hcancelled, if_neg (by decide), Conduit.handing_of_alive hslot hs]

/-! ## After the cancellation -/

/-- A run that was cancelled, and nothing was applied or handed over since. -/
structure Frozen (r s : Course) : Prop where
  cancelled : s.cancelled = true
  ledger : s.ledger = r.ledger
  published : s.published = r.published
  returned : s.journal.returned = r.journal.returned

theorem Frozen.after {s : Course} (h : Frozen r s) {p : Progress}
    (hp : Polled s.cancelled s.journal.conduit s.ledger p) : Frozen r (s.after p) := by
  have htaking : taking s.cancelled s.journal.conduit = [] := by rw [h.cancelled]; rfl
  constructor
  case cancelled => exact h.cancelled
  case ledger =>
    show p.ledger = r.ledger
    rw [hp.ledger, htaking]
    exact h.ledger
  case published =>
    show s.published ++ p.changes = r.published
    rw [hp.changes, htaking]
    exact (List.append_nil _).trans h.published
  case returned =>
    show s.journal.returned ++ taking s.cancelled s.journal.conduit = r.journal.returned
    rw [htaking, List.append_nil]
    exact h.returned

theorem Frozen.step {s : Course} (h : Frozen r s) (m : Move) : Frozen r (s.step m) := by
  cases m with
  | act a =>
    exact ⟨h.cancelled, h.ledger, h.published, (Journal.returned_act s.journal a).trans h.returned⟩
  | poll =>
    show Frozen r s.poll
    unfold Course.poll
    split
    · exact h.after (polled_poll s.started s.cancelled s.journal.conduit s.ledger)
    · exact h
  | cancel => exact ⟨rfl, h.ledger, h.published, h.returned⟩

theorem Frozen.follow {s : Course} (h : Frozen r s) (moves : List Move) :
    Frozen r (s.follow moves) := by
  induction moves generalizing s with
  | nil => exact h
  | cons m rest ih => exact ih (h.step m)

/-- A run that was cancelled stops when it is polled, if it has not ended before. -/
theorem status_poll (h : r.cancelled = true) :
    r.poll.status = if r.status = .running then .stopped else r.status := by
  unfold Course.poll
  split
  · exact (polled_poll r.started r.cancelled r.journal.conduit r.ledger).stopped_of_cancelled h
  · rfl

theorem ended_poll (h : r.cancelled = true) : r.poll.status ≠ .running := by
  rw [status_poll h]
  split
  · simp
  · assumption

/-- A run that has ended stays as it ended. -/
theorem status_follow (h : r.status ≠ .running) (moves : List Move) :
    (r.follow moves).status = r.status := by
  induction moves generalizing r with
  | nil => rfl
  | cons m rest ih =>
    have hstep : (r.step m).status = r.status := by
      cases m with
      | act a => rfl
      | poll =>
        show r.poll.status = r.status
        unfold Course.poll
        rw [if_neg h]
      | cancel => rfl
    exact (ih (hstep ▸ h)).trans hstep

/-! ## Refinement -/

/-- What a run on the ledger `l` comes to by a schedule, with `handed` the events that were handed
    over to it by then. -/
structure Refines (l : Ledger) (moves : List Move) : Prop where
  /-- The ledger and the published changes are those of applying these events in order. -/
  ledger : (run l moves).ledger = (Ledger.applyAll (run l moves).handed l).2
  published : (run l moves).published
    = (Ledger.applyAll (run l moves).handed l).1.flatMap (·.changes)
  /-- Each was applied in full, unless it crashed, and the run crashes with it only. -/
  in_full : List.Forall₂
    (fun report event => report.crash? = none → report.outcomes.length = event.items.length)
    (Ledger.applyAll (run l moves).handed l).1 (run l moves).handed
  crashed : ∀ crash, (run l moves).status = .crashed crash →
    ∃ report ∈ (Ledger.applyAll (run l moves).handed l).1, report.crash? = some crash
  /-- They were sent, each of them once, and they are those whose sends were told so. -/
  genuine : ∀ p ∈ (run l moves).journal.returned, p ∈ (run l moves).journal.started
  once : (run l moves).journal.returnedTickets.Nodup
  taken : ∀ t s, (run l moves).journal.conduit.send? t = some s →
    (s.stage = .taken ↔ t ∈ (run l moves).journal.returnedTickets)
  accepted : ∀ t, (t, .accepted) ∈ (run l moves).journal.answers →
    t ∈ (run l moves).journal.returnedTickets
  /-- Until the cancellation a poll of the run takes the event that stands in the slot. -/
  prompt : ∀ t event, (run l moves).cancelled = false → (run l moves).status = .running →
    (run l moves).journal.conduit.slot = some (t, event) →
    ((run l moves).journal.conduit.send? t).isSome = true →
    (run l (moves ++ [.poll])).journal.returned
      = (run l moves).journal.returned ++ [(t, event)]
  /-- After the cancellation nothing is handed over or applied any more. -/
  frozen : (run l moves).cancelled = true → ∀ more,
    (run l (moves ++ more)).ledger = (run l moves).ledger
      ∧ (run l (moves ++ more)).published = (run l moves).published
      ∧ (run l (moves ++ more)).journal.returned = (run l moves).journal.returned
  /-- The next poll stops the run, if it has not ended before, and every send whose event was not
      handed over is then refused, those that wait as well as those that come later. -/
  stopped : (run l moves).cancelled = true → ∀ more, (run l (moves ++ .poll :: more)).status
    = if (run l moves).status = .running then .stopped else (run l moves).status
  refused : (run l moves).cancelled = true → ∀ more t,
    ((run l (moves ++ .poll :: more)).journal.conduit.send? t).isSome = true →
    t ∉ (run l moves).journal.returnedTickets →
    ((run l (moves ++ .poll :: more)).journal.conduit.poll t).1 = some .refused

/-- **A run refines sequential reduction.** However producers act, the run is polled and the
    cancellation fires, the run has done what applying the events handed over to it does, and once
    it was cancelled that stays so for good. -/
theorem refines_run (l : Ledger) (moves : List Move) : Refines l moves := by
  have hsound := sound_run l moves
  have hfrozen : (run l moves).cancelled = true → ∀ more,
      Frozen (run l moves) (run l (moves ++ more)) := by
    intro hcancelled more
    rw [run_append]
    exact Frozen.follow ⟨hcancelled, rfl, rfl, rfl⟩ more
  constructor
  case ledger => exact hsound.ledger
  case published => exact hsound.published
  case in_full => exact Ledger.forall₂_applyAll _ l
  case crashed => exact hsound.crashed
  case genuine => exact fun _ hp => hsound.journal.started_of_returned hp
  case once => exact hsound.journal.returned_nodup
  case taken => exact fun _ _ hs => hsound.journal.taken_iff hs
  case accepted => exact fun _ haccepted => hsound.journal.returned_of_accepted haccepted
  case prompt =>
    intro t event hcancelled hrunning hslot halive
    rw [run_append]
    exact returned_poll hcancelled hrunning hslot halive
  case frozen =>
    intro hcancelled more
    have h := hfrozen hcancelled more
    exact ⟨h.ledger, h.published, h.returned⟩
  case stopped =>
    intro hcancelled more
    rw [run_append, ← status_poll hcancelled]
    exact status_follow (ended_poll hcancelled) more
  case refused =>
    intro hcancelled more t halive hnot
    have hlast := sound_run l (moves ++ .poll :: more)
    have hended : (run l (moves ++ .poll :: more)).status ≠ .running := by
      rw [run_append]
      exact (status_follow (ended_poll hcancelled) more).trans_ne (ended_poll hcancelled)
    refine hlast.journal.poll_of_closed (hlast.closed_of_ended hended) ?_ halive
    rw [Journal.returnedTickets, (hfrozen hcancelled (.poll :: more)).returned]
    exact hnot

/-- Two sends: the event of the second one stands in the slot when the run is cancelled, and is not
    applied. -/
example :
    let course := run {} [.act (.start ⟨.add, [.raw ⟨"a", []⟩]⟩), .act (.poll 0), .poll,
      .act (.start ⟨.add, [.raw ⟨"b", []⟩]⟩), .act (.poll 1), .cancel, .poll, .act (.poll 0),
      .act (.poll 1)]
    course.journal.answers = [(0, .pending), (1, .pending), (0, .accepted), (1, .refused)]
      ∧ course.ledger.store.records = [⟨.raw ⟨"a", []⟩, 1, 1⟩] := by decide

end Course

end Run

end KeyRelay
