import Mathlib.Data.List.Nodup
import KeyRelay.Proofs.Conduit.Sends

set_option autoImplicit false

/-! # Events are handed over exactly once

A journal is a conduit together with what was seen of it: which sends were started, which events
the receiver returned and whose they were, and what the polls of the sends were answered. A
schedule of moves, in any order, drives it.

The fate of an event is decided in one place. The receiver returns it only while its send is alive,
and that send is then at the stage `taken`, which it never leaves but by being accepted or dropped
(`Journal.Sound.taken_iff`). A ticket whose send is gone without having been returned stays so for
good (`Journal.Gone`): it is never given out again, and an envelope of it that still stands in the
slot is passed over. -/

namespace KeyRelay

namespace Conduit

/-- What producers can do, through whatever sender. -/
inductive Act where
  | start (event : Event)
  | poll (ticket : Ticket)
  | drop (ticket : Ticket)
  | addSender
  | dropSender
  deriving Repr, DecidableEq

/-- What an act of a producer makes of a conduit. -/
def act (c : Conduit) : Act → Conduit
  | .start event => (c.start event).2
  | .poll ticket => (c.poll ticket).2
  | .drop ticket => c.drop ticket
  | .addSender => c.addSender
  | .dropSender => c.dropSender

/-- What a poll of the receiver hands over, with the ticket of its send. -/
def handing (c : Conduit) : List (Ticket × Event) :=
  match c.recv.1, c.slot with
  | .event event, some (ticket, _) => [(ticket, event)]
  | _, _ => []

theorem handing_of_empty {c : Conduit} (hslot : c.slot = none) : c.handing = [] := by
  unfold handing
  rw [hslot]
  split
  · next heq => exact absurd heq (by simp)
  · rfl

theorem handing_of_alive {c : Conduit} {t : Ticket} {event : Event} {s : Send}
    (hslot : c.slot = some (t, event)) (hs : c.send? t = some s) :
    c.handing = [(t, event)] := by
  simp only [handing, recv_of_alive hslot hs, hslot]

theorem handing_of_absent {c : Conduit} {t : Ticket} {event : Event}
    (hslot : c.slot = some (t, event)) (hs : c.send? t = none) : c.handing = [] := by
  unfold handing
  rw [recv_of_absent hslot hs]
  split
  · next heq _ => exact absurd heq (emptyReceipt_ne_event _ _)
  · rfl

end Conduit

open Conduit (Act)

/-- A conduit and what was seen of it so far. -/
structure Journal where
  conduit : Conduit := {}
  /-- The sends that were started, by ticket. -/
  started : List (Ticket × Event) := []
  /-- The events that the receiver returned, with the tickets of their sends. -/
  returned : List (Ticket × Event) := []
  /-- The answers to the polls of sends. -/
  answers : List (Ticket × Send.Answer) := []
  /-- The receiver was polled, was told to wait, and has neither been polled again nor dropped
      what it waits with. -/
  receiving : Bool := false
  deriving Repr, DecidableEq

namespace Journal

/-- The tickets whose events were returned. -/
def returnedTickets (j : Journal) : List Ticket := j.returned.map (·.1)

/-- A producer acts. -/
def act (j : Journal) : Act → Journal
  | .start event =>
      { j with
        conduit := (j.conduit.start event).2
        started := j.started ++ [((j.conduit.start event).1, event)] }
  | .poll ticket =>
      { j with
        conduit := (j.conduit.poll ticket).2
        answers := j.answers ++ (j.conduit.poll ticket).1.toList.map fun a => (ticket, a) }
  | .drop ticket => { j with conduit := j.conduit.drop ticket }
  | .addSender => { j with conduit := j.conduit.addSender }
  | .dropSender => { j with conduit := j.conduit.dropSender }

theorem conduit_act (j : Journal) (a : Act) : (j.act a).conduit = j.conduit.act a := by
  cases a <;> rfl

/-- The receiver is polled. -/
def recv (j : Journal) : Journal :=
  { j with
    conduit := j.conduit.recv.2.2
    returned := j.returned ++ j.conduit.handing
    receiving := j.conduit.recv.1 = .pending }

/-- The receiver goes away. -/
def close (j : Journal) : Journal := { j with conduit := j.conduit.close, receiving := false }

/-- A move at either end. -/
inductive Move where
  | act (act : Act)
  | recv
  /-- A pending poll of the receiver is given up. -/
  | dropRecv
  | close
  deriving Repr, DecidableEq

/-- Carries out a move. -/
def step (j : Journal) : Move → Journal
  | .act act => j.act act
  | .recv => j.recv
  | .dropRecv => { j with receiving := false }
  | .close => j.close

/-- Carries out moves one after the other. -/
def follow (j : Journal) (moves : List Move) : Journal := moves.foldl step j

/-- What a schedule makes of a new conduit. -/
def run (moves : List Move) : Journal := follow {} moves

theorem follow_append (j : Journal) (moves more : List Move) :
    j.follow (moves ++ more) = (j.follow moves).follow more := List.foldl_append

theorem run_append (moves more : List Move) : run (moves ++ more) = (run moves).follow more :=
  follow_append {} moves more

/-! ## Tickets that are gone -/

/-- The send of this ticket was started and is no more, and its event was not returned. -/
structure Gone (j : Journal) (t : Ticket) : Prop where
  issued : t < j.conduit.issued
  absent : j.conduit.send? t = none
  not_returned : t ∉ j.returnedTickets

/-! ## The invariant -/

/-- What was seen of the conduit agrees with the state it is in. -/
structure Sound (j : Journal) : Prop where
  conduit : j.conduit.Sound
  started_tickets : j.started.map (·.1) = List.range j.conduit.issued
  started_of_alive : ∀ {t s}, j.conduit.send? t = some s → (t, s.event) ∈ j.started
  started_of_slot : ∀ {t event}, j.conduit.slot = some (t, event) → (t, event) ∈ j.started
  started_of_returned : ∀ {p}, p ∈ j.returned → p ∈ j.started
  returned_nodup : j.returnedTickets.Nodup
  taken_iff : ∀ {t s}, j.conduit.send? t = some s → (s.stage = .taken ↔ t ∈ j.returnedTickets)
  returned_of_accepted : ∀ {t}, (t, .accepted) ∈ j.answers → t ∈ j.returnedTickets
  gone_of_refused : ∀ {t}, (t, .refused) ∈ j.answers → j.Gone t

end Journal

/-! ## Moves that hand nothing over -/

/-- A conduit that changes without an event being started or handed over: sends may go, but those
    that stay keep their events, and what comes into the slot is the event of a send. -/
structure Conduit.Quiet (c d : Conduit) : Prop where
  issued : d.issued = c.issued
  alive : ∀ {t s}, d.send? t = some s → ∃ old, c.send? t = some old
    ∧ s.event = old.event ∧ (s.stage = .taken ↔ old.stage = .taken)
  slot : ∀ {t event}, d.slot = some (t, event) →
    c.slot = some (t, event) ∨ ∃ s, c.send? t = some s ∧ s.event = event

namespace Conduit

theorem Quiet.refl (c : Conduit) : c.Quiet c :=
  ⟨rfl, fun hs => ⟨_, hs, rfl, Iff.rfl⟩, Or.inl⟩

theorem quiet_finish (c : Conduit) (t : Ticket) : c.Quiet (c.finish t) where
  issued := rfl
  alive := by
    intro t' s hs
    rw [send?_finish] at hs
    split at hs
    · simp at hs
    · exact ⟨s, hs, rfl, Iff.rfl⟩
  slot := Or.inl

theorem quiet_drop (c : Conduit) (t : Ticket) : c.Quiet (c.drop t) :=
  ⟨rfl, (quiet_finish c t).alive, Or.inl⟩

/-- Moving a send between stages other than `taken` is no hand-over. -/
theorem alive_of_advance {c : Conduit} {t t' : Ticket} {send s : Send} {stage : Send.Stage}
    (hs : c.send? t = some send) (hold : send.stage ≠ .taken) (hnew : stage ≠ .taken)
    (hs' : (c.advance send.ticket stage).send? t' = some s) :
    ∃ old, c.send? t' = some old
      ∧ s.event = old.event ∧ (s.stage = .taken ↔ old.stage = .taken) := by
  obtain ⟨old, hfound, rfl⟩ := exists_of_send?_advance hs'
  refine ⟨old, hfound, by split <;> rfl, ?_⟩
  split
  · next ht =>
      obtain rfl : send = old := by
        rw [ht, ticket_eq_of_send? hs] at hfound
        exact Option.some.inj (hs.symm.trans hfound)
      simp [hold, hnew]
  · exact Iff.rfl

theorem quiet_place {c : Conduit} {t : Ticket} {send : Send} (hs : c.send? t = some send)
    (hstage : send.stage ≠ .taken) : c.Quiet (c.place send) where
  issued := rfl
  alive := fun hs' => alive_of_advance hs hstage (by decide) hs'
  slot := by
    intro t' event hslot
    obtain ⟨rfl, rfl⟩ := Prod.mk.inj (Option.some.inj hslot)
    exact Or.inr ⟨send, (ticket_eq_of_send? hs).symm ▸ hs, rfl⟩

theorem quiet_enqueue {c : Conduit} {t : Ticket} {send : Send} (hs : c.send? t = some send)
    (hstage : send.stage ≠ .taken) : c.Quiet (c.enqueue send) where
  issued := rfl
  alive := fun hs' => alive_of_advance hs hstage (by decide) hs'
  slot := Or.inl

theorem quiet_poll (c : Conduit) (t : Ticket) : c.Quiet (c.poll t).2 := by
  have hpoll := polling_poll c t
  generalize (c.poll t).1 = answer at hpoll
  generalize (c.poll t).2 = d at hpoll ⊢
  cases hpoll with
  | absent _ => exact Quiet.refl c
  | late _ _ _ => exact quiet_finish c t
  | placed hs hstage _ _ =>
    refine quiet_place hs ?_
    rcases hstage with h | h <;> simp [h]
  | enqueued hs hstage _ => exact quiet_enqueue hs (by simp [hstage])
  | waiting _ _ => exact Quiet.refl c
  | accepted _ _ => exact quiet_finish c t
  | refused _ _ => exact quiet_finish c t

theorem quiet_close (c : Conduit) : c.Quiet c.close where
  issued := rfl
  alive := by
    intro t s hs
    obtain ⟨old, hold, rfl⟩ := exists_of_send?_close hs
    refine ⟨old, hold, by split <;> rfl, ?_⟩
    split
    · next h => rcases h with h | h <;> simp [h]
    · exact Iff.rfl
  slot := by simp [close]

end Conduit

namespace Journal

variable {j : Journal} {d : Conduit}

theorem Gone.of_quiet {t : Ticket} (h : j.Gone t) (hquiet : j.conduit.Quiet d) :
    Gone { j with conduit := d } t where
  issued := hquiet.issued ▸ h.issued
  absent := by
    cases hs : d.send? t with
    | none => rfl
    | some s =>
      obtain ⟨old, hold, -⟩ := hquiet.alive hs
      exact absurd (h.absent.symm.trans hold) (by simp)
  not_returned := h.not_returned

/-- No ticket is given out twice. -/
theorem Gone.start {t : Ticket} (h : j.Gone t) (event : Event) :
    (j.act (.start event)).Gone t where
  issued := Nat.lt_succ_of_lt h.issued
  absent := by
    show (j.conduit.start event).2.send? t = none
    rw [Conduit.send?_start, h.absent, if_neg (Nat.ne_of_lt h.issued)]
    rfl
  not_returned := h.not_returned

/-- A move that hands nothing over keeps the invariant. -/
theorem Sound.of_quiet (h : j.Sound) (hquiet : j.conduit.Quiet d) (hd : d.Sound) :
    Sound { j with conduit := d } where
  conduit := hd
  started_tickets := hquiet.issued ▸ h.started_tickets
  started_of_alive := by
    intro t s hs
    obtain ⟨old, hold, hevent, -⟩ := hquiet.alive hs
    rw [hevent]
    exact h.started_of_alive hold
  started_of_slot := by
    intro t event hslot
    rcases hquiet.slot hslot with hslot | ⟨s, hs, rfl⟩
    · exact h.started_of_slot hslot
    · exact h.started_of_alive hs
  started_of_returned := h.started_of_returned
  returned_nodup := h.returned_nodup
  taken_iff := by
    intro t s hs
    obtain ⟨old, hold, -, htaken⟩ := hquiet.alive hs
    exact htaken.trans (h.taken_iff hold)
  returned_of_accepted := h.returned_of_accepted
  gone_of_refused := fun hrefused => (h.gone_of_refused hrefused).of_quiet hquiet

/-- An answer is noted that the state bears out. -/
theorem Sound.answered (h : j.Sound) {t : Ticket} {answer : Send.Answer}
    (haccepted : answer = .accepted → t ∈ j.returnedTickets)
    (hrefused : answer = .refused → j.Gone t) :
    Sound { j with answers := j.answers ++ [(t, answer)] } :=
  { h with
    returned_of_accepted := by
      intro t' hmem
      rcases List.mem_append.1 hmem with hmem | hmem
      · exact h.returned_of_accepted hmem
      · obtain ⟨rfl, hanswer⟩ := Prod.mk.inj (List.mem_singleton.1 hmem)
        exact haccepted hanswer.symm
    gone_of_refused := by
      intro t' hmem
      rcases List.mem_append.1 hmem with hmem | hmem
      · exact ⟨(h.gone_of_refused hmem).issued, (h.gone_of_refused hmem).absent,
          (h.gone_of_refused hmem).not_returned⟩
      · obtain ⟨rfl, hanswer⟩ := Prod.mk.inj (List.mem_singleton.1 hmem)
        exact ⟨(hrefused hanswer.symm).issued, (hrefused hanswer.symm).absent,
          (hrefused hanswer.symm).not_returned⟩ }

/-! ## The moves one by one -/

theorem sound_new : Sound {} where
  conduit := Conduit.sound_new
  started_tickets := rfl
  started_of_alive := by simp [Conduit.send?]
  started_of_slot := by simp
  started_of_returned := by simp
  returned_nodup := List.nodup_nil
  taken_iff := by simp [Conduit.send?]
  returned_of_accepted := by simp
  gone_of_refused := by simp

theorem Sound.issued_of_returned (h : j.Sound) {t : Ticket} (hmem : t ∈ j.returnedTickets) :
    t < j.conduit.issued := by
  obtain ⟨p, hp, rfl⟩ := List.mem_map.1 hmem
  have hstarted := List.mem_map_of_mem (f := (·.1)) (h.started_of_returned hp)
  rw [h.started_tickets] at hstarted
  exact List.mem_range.1 hstarted

theorem Sound.start (h : j.Sound) (event : Event) : (j.act (.start event)).Sound := by
  constructor
  case conduit => exact h.conduit.start event
  case started_tickets =>
    show (j.started ++ [(j.conduit.issued, event)]).map (·.1) = List.range (j.conduit.issued + 1)
    rw [List.map_append, h.started_tickets, List.range_succ]
    rfl
  case started_of_alive =>
    intro t s hs
    rcases Conduit.of_send?_start hs with hs | ⟨rfl, rfl⟩
    · exact List.mem_append_left _ (h.started_of_alive hs)
    · exact List.mem_append_right _ (List.mem_singleton.2 rfl)
  case started_of_slot => exact fun hslot => List.mem_append_left _ (h.started_of_slot hslot)
  case started_of_returned => exact fun hp => List.mem_append_left _ (h.started_of_returned hp)
  case returned_nodup => exact h.returned_nodup
  case taken_iff =>
    intro t s hs
    rcases Conduit.of_send?_start hs with hs | ⟨rfl, rfl⟩
    · exact h.taken_iff hs
    · simp only [reduceCtorEq, false_iff]
      exact fun hmem => Nat.lt_irrefl _ (h.issued_of_returned hmem)
  case returned_of_accepted => exact h.returned_of_accepted
  case gone_of_refused =>
    exact fun hrefused => (h.gone_of_refused hrefused).start event

theorem Sound.poll (h : j.Sound) (t : Ticket) : (j.act (.poll t)).Sound := by
  have hnext := h.of_quiet (Conduit.quiet_poll j.conduit t) (h.conduit.poll t)
  have hpoll := Conduit.polling_poll j.conduit t
  simp only [act]
  generalize (j.conduit.poll t).1 = answer at hpoll hnext ⊢
  generalize (j.conduit.poll t).2 = d at hpoll hnext ⊢
  -- A refused send goes without having been returned: its stage was not the one of a taken event.
  have hgone : ∀ {s : Send}, j.conduit.send? t = some s → s.stage ≠ .taken →
      Gone { j with conduit := j.conduit.finish t } t := fun hs hstage =>
    ⟨h.conduit.issued_of_alive hs, by simp [Conduit.send?_finish],
      fun hmem => hstage ((h.taken_iff hs).2 hmem)⟩
  cases hpoll with
  | absent _ => simpa using hnext
  | late hs hstage _ => exact hnext.answered (by simp) fun _ => hgone hs (by simp [hstage])
  | placed _ _ _ _ => exact hnext.answered (by simp) (by simp)
  | enqueued _ _ _ => exact hnext.answered (by simp) (by simp)
  | waiting _ _ => exact hnext.answered (by simp) (by simp)
  | accepted hs hstage => exact hnext.answered (fun _ => (h.taken_iff hs).1 hstage) (by simp)
  | refused hs hstage => exact hnext.answered (by simp) fun _ => hgone hs (by simp [hstage])

theorem Sound.act (h : j.Sound) (a : Act) : (j.act a).Sound := by
  cases a with
  | start event => exact h.start event
  | poll t => exact h.poll t
  | drop t => exact h.of_quiet (Conduit.quiet_drop j.conduit t) (h.conduit.drop t)
  | addSender =>
    exact h.of_quiet ⟨rfl, (Conduit.Quiet.refl _).alive, Or.inl⟩
      (h.conduit.congr (fun _ => rfl) rfl rfl rfl)
  | dropSender =>
    exact h.of_quiet ⟨rfl, (Conduit.Quiet.refl _).alive, Or.inl⟩
      (h.conduit.congr (fun _ => rfl) rfl rfl rfl)

/-- Whether the receiver waits plays no part. -/
theorem Sound.of_receiving (h : j.Sound) (b : Bool) : Sound { j with receiving := b } :=
  { h with
    gone_of_refused := fun hrefused =>
      ⟨(h.gone_of_refused hrefused).issued, (h.gone_of_refused hrefused).absent,
        (h.gone_of_refused hrefused).not_returned⟩ }

/-- The event of a living send is handed over. -/
def hand (j : Journal) (t : Ticket) (event : Event) (receiving : Bool) : Journal :=
  { j with
    conduit := { j.conduit with slot := none }.advance t .taken
    returned := j.returned ++ [(t, event)]
    receiving }

theorem mem_returnedTickets_hand {t t' : Ticket} {event : Event} {b : Bool} :
    t' ∈ (j.hand t event b).returnedTickets ↔ t' ∈ j.returnedTickets ∨ t' = t := by
  show t' ∈ (j.returned ++ [(t, event)]).map (·.1) ↔ _
  rw [List.map_append, List.mem_append]
  exact or_congr Iff.rfl List.mem_singleton

/-- What is handed over has a living send, so a ticket that is gone is another one. -/
theorem Gone.hand {t t' : Ticket} {s : Send} (h : j.Gone t') (hs : j.conduit.send? t = some s)
    (event : Event) (b : Bool) : (j.hand t event b).Gone t' where
  issued := h.issued
  absent := by
    show ({ j.conduit with slot := none }.advance t .taken).send? t' = none
    rw [Conduit.send?_advance, Option.map_eq_none_iff]
    exact h.absent
  not_returned := by
    rw [mem_returnedTickets_hand]
    rintro (hmem | rfl)
    · exact h.not_returned hmem
    · exact absurd (h.absent.symm.trans hs) (by simp)

/-- An event that is handed over had not been before: its send was still at the stage `placed`. -/
theorem Sound.hand (h : j.Sound) {t : Ticket} {event : Event} {s : Send} (b : Bool)
    (hslot : j.conduit.slot = some (t, event)) (hs : j.conduit.send? t = some s)
    (hsound : ({ j.conduit with slot := none }.advance t .taken).Sound) :
    (j.hand t event b).Sound := by
  -- A returned ticket has a send at the stage `taken`, and this one was still in the slot.
  have hnew : t ∉ j.returnedTickets := fun hmem => by
    have := (h.taken_iff hs).2 hmem
    rw [h.conduit.placed_of_slot hslot hs] at this
    exact absurd this (by decide)
  constructor
  case conduit => exact hsound
  case started_tickets => exact h.started_tickets
  case started_of_alive =>
    intro t' s' hs'
    obtain ⟨old, hold, rfl⟩ := Conduit.exists_of_send?_advance hs'
    have := h.started_of_alive hold
    split <;> exact this
  case started_of_slot => simp [Journal.hand, Conduit.advance]
  case started_of_returned =>
    intro p hp
    rcases List.mem_append.1 hp with hp | hp
    · exact h.started_of_returned hp
    · obtain rfl := List.mem_singleton.1 hp
      exact h.started_of_slot hslot
  case returned_nodup =>
    show ((j.returned ++ [(t, event)]).map (·.1)).Nodup
    rw [List.map_append]
    exact List.Nodup.append h.returned_nodup (List.nodup_singleton t)
      (List.disjoint_singleton.2 hnew)
  case taken_iff =>
    intro t' s' hs'
    obtain ⟨old, hold, rfl⟩ := Conduit.exists_of_send?_advance hs'
    rw [mem_returnedTickets_hand]
    by_cases ht : t' = t
    · simp [ht]
    · rw [if_neg ht, h.taken_iff hold]
      simp [ht]
  case returned_of_accepted =>
    exact fun haccepted => mem_returnedTickets_hand.2 (Or.inl (h.returned_of_accepted haccepted))
  case gone_of_refused => exact fun hrefused => (h.gone_of_refused hrefused).hand hs event b

/-- A poll of the receiver hands over at most one event. -/
theorem Sound.recv (h : j.Sound) : j.recv.Sound := by
  have hsound := h.conduit.recv
  have hrecv := Conduit.receiving_recv j.conduit
  simp only [Journal.recv]
  generalize j.conduit.recv.1 = receipt at hrecv hsound ⊢
  generalize j.conduit.recv.2.1 = entries at hrecv hsound
  generalize j.conduit.recv.2.2 = d at hrecv hsound ⊢
  cases hrecv with
  | empty hslot =>
    rw [Conduit.handing_of_empty hslot, List.append_nil]
    exact h.of_receiving _
  | @taken ticket event s hslot hs =>
    rw [Conduit.handing_of_alive hslot hs]
    exact h.hand _ hslot hs hsound
  | passed hslot hs =>
    rw [Conduit.handing_of_absent hslot hs, List.append_nil]
    have hquiet : j.conduit.Quiet { j.conduit with slot := none } :=
      ⟨rfl, (Conduit.Quiet.refl _).alive, by simp⟩
    exact (h.of_quiet hquiet hsound).of_receiving _

theorem Sound.close (h : j.Sound) : j.close.Sound :=
  (h.of_quiet (Conduit.quiet_close j.conduit) h.conduit.close).of_receiving false

theorem Sound.step (h : j.Sound) (m : Move) : (j.step m).Sound := by
  cases m with
  | act a => exact h.act a
  | recv => exact h.recv
  | dropRecv => exact h.of_receiving false
  | close => exact h.close

theorem Sound.follow (h : j.Sound) (moves : List Move) : (j.follow moves).Sound := by
  induction moves generalizing j with
  | nil => exact h
  | cons m rest ih => exact ih (h.step m)

theorem sound_run (moves : List Move) : (run moves).Sound := sound_new.follow moves

/-! ## Gone for good -/

theorem Gone.act {t : Ticket} (h : j.Gone t) (a : Act) : (j.act a).Gone t := by
  cases a with
  | start event => exact h.start event
  | poll t' =>
    have := h.of_quiet (Conduit.quiet_poll j.conduit t')
    exact ⟨this.issued, this.absent, this.not_returned⟩
  | drop t' => exact h.of_quiet (Conduit.quiet_drop j.conduit t')
  | addSender => exact ⟨h.issued, h.absent, h.not_returned⟩
  | dropSender => exact ⟨h.issued, h.absent, h.not_returned⟩

/-- The receiver has nothing to do with a ticket that is gone, even if its envelope stands in the
    slot. -/
theorem Gone.recv {t : Ticket} (h : j.Gone t) : j.recv.Gone t := by
  have hrecv := Conduit.receiving_recv j.conduit
  simp only [Journal.recv]
  generalize j.conduit.recv.1 = receipt at hrecv ⊢
  generalize j.conduit.recv.2.1 = entries at hrecv
  generalize j.conduit.recv.2.2 = d at hrecv ⊢
  cases hrecv with
  | empty hslot =>
    rw [Conduit.handing_of_empty hslot, List.append_nil]
    exact ⟨h.issued, h.absent, h.not_returned⟩
  | @taken ticket event s hslot hs =>
    rw [Conduit.handing_of_alive hslot hs]
    exact h.hand hs event _
  | passed hslot hs =>
    rw [Conduit.handing_of_absent hslot hs, List.append_nil]
    exact ⟨h.issued, h.absent, h.not_returned⟩

theorem Gone.step {t : Ticket} (h : j.Gone t) (m : Move) : (j.step m).Gone t := by
  cases m with
  | act a => exact h.act a
  | recv => exact h.recv
  | dropRecv => exact ⟨h.issued, h.absent, h.not_returned⟩
  | close =>
    have := h.of_quiet (Conduit.quiet_close j.conduit)
    exact ⟨this.issued, this.absent, this.not_returned⟩

theorem Gone.follow {t : Ticket} (h : j.Gone t) (moves : List Move) : (j.follow moves).Gone t := by
  induction moves generalizing j with
  | nil => exact h
  | cons m rest ih => exact ih (h.step m)

/-- A send that is dropped before its event was returned is gone. -/
theorem Sound.gone_drop (h : j.Sound) {t : Ticket} (halive : (j.conduit.send? t).isSome = true)
    (hnot : t ∉ j.returnedTickets) : (j.act (.drop t)).Gone t := by
  obtain ⟨s, hs⟩ := Option.isSome_iff_exists.1 halive
  refine ⟨h.conduit.issued_of_alive hs, ?_, hnot⟩
  show (j.conduit.drop t).send? t = none
  rw [Conduit.send?_drop, Conduit.send?_finish, if_pos rfl]

/-! ## Giving up a pending poll -/

/-- The journal without the note of whether the receiver waits. -/
def heedless (j : Journal) : Journal := { j with receiving := false }

/-- Nothing that is done depends on whether the receiver waits. -/
theorem heedless_step (j : Journal) (m : Move) :
    (j.heedless.step m).heedless = (j.step m).heedless := by
  cases m with
  | act a => cases a <;> rfl
  | recv => rfl
  | dropRecv => rfl
  | close => rfl

theorem heedless_follow_filter {j k : Journal} (h : j.heedless = k.heedless)
    (moves : List Move) :
    (j.follow (moves.filter (· ≠ .dropRecv))).heedless = (k.follow moves).heedless := by
  induction moves generalizing j k with
  | nil => exact h
  | cons m rest ih =>
    have hstep : (j.step m).heedless = (k.step m).heedless := by
      rw [← heedless_step j, ← heedless_step k, h]
    by_cases hm : m = .dropRecv
    · subst hm
      rw [List.filter_cons_of_neg (by simp)]
      exact ih h
    · rw [List.filter_cons_of_pos (by simpa using hm)]
      exact ih hstep

/-! ## Without the receiver -/

theorem returned_act (j : Journal) (a : Act) : (j.act a).returned = j.returned := by
  cases a <;> rfl

/-- Producers can neither close the conduit nor open it again. -/
theorem conduit_closed_act (j : Journal) (a : Act) :
    (j.act a).conduit.closed = j.conduit.closed := by
  cases a with
  | start event => rfl
  | poll t =>
    have hpoll := Conduit.polling_poll j.conduit t
    simp only [act]
    generalize (j.conduit.poll t).1 = answer at hpoll ⊢
    generalize (j.conduit.poll t).2 = d at hpoll ⊢
    cases hpoll <;> rfl
  | drop t => rfl
  | addSender => rfl
  | dropSender => rfl

/-- Only a poll of the receiver returns an event. -/
theorem returned_follow {moves : List Move} (h : ∀ m ∈ moves, m ≠ .recv) (j : Journal) :
    (j.follow moves).returned = j.returned := by
  induction moves generalizing j with
  | nil => rfl
  | cons m rest ih =>
    have hrest := ih (fun m' hm' => h m' (List.mem_cons_of_mem _ hm')) (j.step m)
    refine hrest.trans ?_
    cases m with
    | act a => exact returned_act j a
    | recv => exact absurd rfl (h .recv List.mem_cons_self)
    | dropRecv => rfl
    | close => rfl

/-- What was returned stays so. -/
theorem returned_follow_mono (j : Journal) (moves : List Move) {t : Ticket}
    (h : t ∈ j.returnedTickets) : t ∈ (j.follow moves).returnedTickets := by
  induction moves generalizing j with
  | nil => exact h
  | cons m rest ih =>
    refine ih (j.step m) ?_
    cases m with
    | act a =>
      rw [returnedTickets, step, returned_act]
      exact h
    | recv =>
      rw [returnedTickets, step, recv, List.map_append]
      exact List.mem_append_left _ h
    | dropRecv => exact h
    | close => exact h

/-! ## Exactly once -/

/-- A send whose event was returned is accepted when it is polled, whatever became of the
    receiver. -/
theorem Sound.poll_of_returned (h : j.Sound) {t : Ticket} (hmem : t ∈ j.returnedTickets)
    (halive : (j.conduit.send? t).isSome = true) :
    (j.conduit.poll t).1 = some .accepted := by
  obtain ⟨s, hs⟩ := Option.isSome_iff_exists.1 halive
  have hstage : s.stage = .taken := (h.taken_iff hs).2 hmem
  simp only [Conduit.poll, hs, hstage]

/-- Once the receiver is gone, a send whose event was not returned is refused when it is polled. -/
theorem Sound.poll_of_closed (h : j.Sound) (hclosed : j.conduit.closed = true) {t : Ticket}
    (hnot : t ∉ j.returnedTickets) (halive : (j.conduit.send? t).isSome = true) :
    (j.conduit.poll t).1 = some .refused := by
  obtain ⟨s, hs⟩ := Option.isSome_iff_exists.1 halive
  cases hstage : s.stage with
  | fresh => simp only [Conduit.poll, hs, hstage, hclosed, if_true]
  | queued => exact absurd hstage (h.conduit.not_queued_of_closed hclosed hs)
  | placed =>
    -- The slot of a closed conduit is empty.
    have hslot := h.conduit.slot_of_placed hs hstage
    rw [h.conduit.slot_of_closed hclosed] at hslot
    exact absurd hslot (by simp)
  | taken => exact absurd ((h.taken_iff hs).1 hstage) hnot
  | refused => simp only [Conduit.poll, hs, hstage]

/-- While the receiver is there, an event that was not returned is with its send or in the slot. -/
theorem Sound.kept (h : j.Sound) (hopen : j.conduit.closed = false) {t : Ticket} {s : Send}
    (hs : j.conduit.send? t = some s) (hnot : t ∉ j.returnedTickets) :
    s.stage = .fresh ∨ s.stage = .queued ∨ j.conduit.slot = some (t, s.event) := by
  cases hstage : s.stage with
  | fresh => exact Or.inl rfl
  | queued => exact Or.inr (Or.inl rfl)
  | placed => exact Or.inr (Or.inr (h.conduit.slot_of_placed hs hstage))
  | taken => exact absurd ((h.taken_iff hs).1 hstage) hnot
  | refused => exact absurd hstage (h.conduit.not_refused_of_open hopen hs)

/-- What a schedule says about the fate of every event that was sent. -/
structure ExactlyOnce (moves : List Move) : Prop where
  /-- Every send has a ticket of its own. -/
  tickets : (run moves).started.map (·.1) = List.range (run moves).conduit.issued
  /-- What is returned was sent, and it is returned only once. -/
  genuine : ∀ p ∈ (run moves).returned, p ∈ (run moves).started
  once : (run moves).returnedTickets.Nodup
  /-- A send is accepted only after its event was returned. -/
  accepted : ∀ t, (t, .accepted) ∈ (run moves).answers → t ∈ (run moves).returnedTickets
  /-- As long as the receiver is not polled, no further send is accepted. -/
  stalled : ∀ t more, (∀ m ∈ more, m ≠ .recv) →
    (t, .accepted) ∈ (run (moves ++ more)).answers → t ∈ (run moves).returnedTickets
  /-- The event of a refused send was not returned and never will be. -/
  refused : ∀ t more, (t, .refused) ∈ (run moves).answers →
    t ∉ (run (moves ++ more)).returnedTickets
  /-- Nor will that of a send that is dropped before it, and yet an envelope of it stays in the
      slot. -/
  withdrawn : ∀ t more, ((run moves).conduit.send? t).isSome = true →
    t ∉ (run moves).returnedTickets →
    t ∉ (run (moves ++ .act (.drop t) :: more)).returnedTickets
  envelope : ∀ t, (run (moves ++ [.act (.drop t)])).conduit.slot = (run moves).conduit.slot
  /-- A send whose event was returned is accepted at its next poll, whatever comes in between. -/
  told : ∀ t more, t ∈ (run moves).returnedTickets →
    ((run (moves ++ more)).conduit.send? t).isSome = true →
    ((run (moves ++ more)).conduit.poll t).1 = some .accepted
  /-- It makes no difference whether pending polls of the receiver are given up. -/
  unheeded : (run (moves.filter (· ≠ .dropRecv))).heedless = (run moves).heedless
  /-- As long as the receiver is there, the event of a living send is still on its way until it
      was returned, and once it stands in the slot the next poll of the receiver returns it. -/
  kept : ∀ t s, (run moves).conduit.closed = false → (run moves).conduit.send? t = some s →
    t ∉ (run moves).returnedTickets →
    s.stage = .fresh ∨ s.stage = .queued ∨ (run moves).conduit.slot = some (t, s.event)
  offered : ∀ t event, (run moves).conduit.slot = some (t, event) →
    ((run moves).conduit.send? t).isSome = true →
    (run (moves ++ [.dropRecv, .recv])).returned = (run moves).returned ++ [(t, event)]

/-- **Exactly-once hand-off.** However sends are started, polled and dropped through any number of
    senders, and however the receiver is polled, given up and dropped, every event has one fate,
    and both ends agree on it. -/
theorem exactlyOnce_run (moves : List Move) : ExactlyOnce moves where
  tickets := (sound_run moves).started_tickets
  genuine := fun _ hp => (sound_run moves).started_of_returned hp
  once := (sound_run moves).returned_nodup
  accepted := fun _ haccepted => (sound_run moves).returned_of_accepted haccepted
  stalled := by
    intro t more hmore haccepted
    have := (sound_run (moves ++ more)).returned_of_accepted haccepted
    rwa [run_append, returnedTickets, returned_follow hmore] at this
  refused := by
    intro t more hrefused
    rw [run_append]
    exact (((sound_run moves).gone_of_refused hrefused).follow more).not_returned
  withdrawn := by
    intro t more halive hnot
    rw [run_append]
    exact (((sound_run moves).gone_drop halive hnot).follow more).not_returned
  envelope := by
    intro t
    rw [run_append]
    rfl
  told := by
    -- Returned tickets stay returned, and the stage of their sends says so.
    intro t more hmem halive
    have hsound := sound_run (moves ++ more)
    refine hsound.poll_of_returned ?_ halive
    rw [run_append]
    exact returned_follow_mono (run moves) more hmem
  unheeded := heedless_follow_filter rfl moves
  kept := fun _ _ hopen hs hnot => (sound_run moves).kept hopen hs hnot
  offered := by
    intro t event hslot halive
    obtain ⟨s, hs⟩ := Option.isSome_iff_exists.1 halive
    rw [run_append]
    show (run moves).returned ++ (run moves).conduit.handing = _
    rw [Conduit.handing_of_alive hslot hs]

/-- The first send is dropped while its envelope stands in the slot. The second one waits until the
    receiver has passed over it, and is accepted although the receiver goes away right after. -/
example :
    (run [.act (.start ⟨.add, []⟩), .act (.poll 0), .act (.drop 0), .act (.start ⟨.update, []⟩),
        .act (.poll 1), .recv, .dropRecv, .act (.poll 1), .recv, .close, .act (.poll 1)]).returned
      = [(1, ⟨.update, []⟩)] := by decide

end Journal

end KeyRelay
