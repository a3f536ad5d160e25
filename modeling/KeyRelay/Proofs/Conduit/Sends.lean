import Mathlib.Tactic.Common
import KeyRelay.Conduit

set_option autoImplicit false

/-! # What the ends of a conduit can do

A conduit is known by its slot, by whether it is closed, and by `send?`, which finds the unfinished
send of a ticket. `Conduit.Polling` lists what a poll of a send can be, `Conduit.Receiving` what a
poll of the receiver can be, and each change of the list of sends is described by what it does to
`send?`.

`Conduit.Sound` is the invariant that holds at both ends: the slot and the sends agree on whose
event stands in the slot, and once the receiver is gone nobody waits for it. -/

namespace KeyRelay.Conduit

/-! ## Finding a send -/

theorem ticket_eq_of_send? {c : Conduit} {t : Ticket} {s : Send} (h : c.send? t = some s) :
    s.ticket = t := by
  have := List.find?_some h
  simpa using this

/-- What changes sends in place, but for their tickets, changes what is found in the same way. -/
theorem find?_map_sends (f : Send → Send) (hf : ∀ s, (f s).ticket = s.ticket) (sends : List Send)
    (t : Ticket) :
    (sends.map f).find? (fun s => s.ticket = t)
      = (sends.find? fun s => s.ticket = t).map f := by
  rw [List.find?_map]
  congr 2
  funext s
  rw [Function.comp_apply, hf]

theorem send?_advance (c : Conduit) (ticket t : Ticket) (stage : Send.Stage) :
    (c.advance ticket stage).send? t
      = (c.send? t).map fun s => if t = ticket then { s with stage } else s := by
  simp only [send?, advance]
  rw [find?_map_sends _ (fun s => by split <;> rfl)]
  cases hs : c.sends.find? fun s => s.ticket = t with
  | none => rfl
  | some s =>
    have hticket : s.ticket = t := ticket_eq_of_send? hs
    simp only [Option.map_some, hticket]

theorem exists_of_send?_advance {c : Conduit} {ticket t : Ticket} {stage : Send.Stage} {s : Send}
    (h : (c.advance ticket stage).send? t = some s) :
    ∃ old, c.send? t = some old ∧ s = if t = ticket then { old with stage } else old := by
  rw [send?_advance, Option.map_eq_some_iff] at h
  obtain ⟨old, hold, rfl⟩ := h
  exact ⟨old, hold, rfl⟩

theorem exists_of_send?_place {c : Conduit} {send s : Send} {t : Ticket}
    (h : (c.place send).send? t = some s) :
    ∃ old, c.send? t = some old
      ∧ s = if t = send.ticket then { old with stage := .placed } else old :=
  exists_of_send?_advance (show (c.advance send.ticket .placed).send? t = some s from h)

theorem exists_of_send?_enqueue {c : Conduit} {send s : Send} {t : Ticket}
    (h : (c.enqueue send).send? t = some s) :
    ∃ old, c.send? t = some old
      ∧ s = if t = send.ticket then { old with stage := .queued } else old :=
  exists_of_send?_advance (show (c.advance send.ticket .queued).send? t = some s from h)

theorem send?_drop (c : Conduit) (ticket t : Ticket) :
    (c.drop ticket).send? t = (c.finish ticket).send? t := rfl

theorem send?_finish (c : Conduit) (ticket t : Ticket) :
    (c.finish ticket).send? t = if t = ticket then none else c.send? t := by
  simp only [send?, finish, List.find?_filter]
  by_cases h : t = ticket
  · subst h
    simp
  · rw [if_neg h]
    congr 1
    funext s
    by_cases hs : s.ticket = t
    · simp [hs, h]
    · simp [hs]

theorem send?_start (c : Conduit) (event : Event) (t : Ticket) :
    (c.start event).2.send? t
      = (c.send? t).or (if t = c.issued then some ⟨c.issued, event, .fresh⟩ else none) := by
  simp only [send?, start, List.find?_append]
  congr 1
  by_cases h : t = c.issued
  · simp [h]
  · simp [h, Ne.symm h]

theorem of_send?_start {c : Conduit} {event : Event} {t : Ticket} {s : Send}
    (h : (c.start event).2.send? t = some s) :
    c.send? t = some s ∨ t = c.issued ∧ s = ⟨c.issued, event, .fresh⟩ := by
  rw [send?_start] at h
  rcases Option.or_eq_some_iff.1 h with h | ⟨-, h⟩
  · exact Or.inl h
  · split at h
    · next ht => exact Or.inr ⟨ht, (Option.some.inj h).symm⟩
    · simp at h

theorem send?_close (c : Conduit) (t : Ticket) :
    c.close.send? t = (c.send? t).map fun s =>
      if s.stage = .queued ∨ s.stage = .placed then { s with stage := .refused } else s :=
  find?_map_sends _ (fun s => by split <;> rfl) c.sends t

theorem exists_of_send?_close {c : Conduit} {t : Ticket} {s : Send}
    (h : c.close.send? t = some s) :
    ∃ old, c.send? t = some old
      ∧ s = if old.stage = .queued ∨ old.stage = .placed then { old with stage := .refused }
        else old := by
  rw [send?_close, Option.map_eq_some_iff] at h
  obtain ⟨old, hold, rfl⟩ := h
  exact ⟨old, hold, rfl⟩

/-! ## Polling a send -/

/-- How a poll of a send goes: what it answers, and the conduit afterwards. -/
inductive Polling (c : Conduit) (t : Ticket) : Option Send.Answer → Conduit → Prop where
  | absent (hs : c.send? t = none) : Polling c t none c
  /-- The first poll comes after the receiver has gone. -/
  | late {s : Send} (hs : c.send? t = some s) (hstage : s.stage = .fresh)
      (hclosed : c.closed = true) : Polling c t (some .refused) (c.finish t)
  /-- The slot is empty and nobody is before this send, so its event goes into the slot. -/
  | placed {s : Send} (hs : c.send? t = some s) (hstage : s.stage = .fresh ∨ s.stage = .queued)
      (hopen : s.stage = .fresh → c.closed = false) (hslot : c.slot = none)
      (hturn : c.line.head? = if s.stage = .fresh then none else some t) :
      Polling c t (some .pending) (c.place s)
  | enqueued {s : Send} (hs : c.send? t = some s) (hstage : s.stage = .fresh)
      (hclosed : c.closed = false) : Polling c t (some .pending) (c.enqueue s)
  | waiting {s : Send} (hs : c.send? t = some s)
      (hstage : s.stage = .queued ∨ s.stage = .placed) : Polling c t (some .pending) c
  | accepted {s : Send} (hs : c.send? t = some s) (hstage : s.stage = .taken) :
      Polling c t (some .accepted) (c.finish t)
  | refused {s : Send} (hs : c.send? t = some s) (hstage : s.stage = .refused) :
      Polling c t (some .refused) (c.finish t)

theorem polling_poll (c : Conduit) (t : Ticket) : Polling c t (c.poll t).1 (c.poll t).2 := by
  cases hs : c.send? t with
  | none =>
    simp only [poll, hs]
    exact .absent hs
  | some s =>
    cases hstage : s.stage with
    | fresh =>
      simp only [poll, hs, hstage]
      by_cases hclosed : c.closed = true
      · rw [if_pos hclosed]
        exact .late hs hstage hclosed
      · rw [if_neg hclosed]
        split
        · next hfree =>
            simp only [isFree, Bool.and_eq_true, Option.isNone_iff_eq_none,
              List.isEmpty_iff] at hfree
            exact .placed hs (Or.inl hstage) (fun _ => by simpa using hclosed) hfree.1
              (by simp [hfree.2, hstage])
        · exact .enqueued hs hstage (by simpa using hclosed)
    | queued =>
      simp only [poll, hs, hstage]
      split
      · next hholds =>
          simp only [holdsPermit, Bool.and_eq_true, Option.isNone_iff_eq_none,
            decide_eq_true_iff] at hholds
          exact .placed hs (Or.inr hstage) (by simp [hstage]) hholds.1
            (by simp [hholds.2, hstage])
      · exact .waiting hs (Or.inl hstage)
    | placed =>
      simp only [poll, hs, hstage]
      exact .waiting hs (Or.inr hstage)
    | taken =>
      simp only [poll, hs, hstage]
      exact .accepted hs hstage
    | refused =>
      simp only [poll, hs, hstage]
      exact .refused hs hstage

/-! ## Polling the receiver -/

theorem recv_of_empty {c : Conduit} (hslot : c.slot = none) : c.recv = (c.emptyReceipt, [], c) := by
  simp only [recv, hslot]

theorem recv_of_alive {c : Conduit} {t : Ticket} {event : Event} {s : Send}
    (hslot : c.slot = some (t, event)) (hs : c.send? t = some s) :
    c.recv = (.event event, [], { c with slot := none }.advance t .taken) := by
  have hsame : ({ c with slot := none } : Conduit).send? t = some s := hs
  simp only [recv, hslot, hsame, Option.isSome_some, if_true]

/-- An event whose send was dropped is thrown away with a note, and the slot counts as empty. -/
theorem recv_of_absent {c : Conduit} {t : Ticket} {event : Event}
    (hslot : c.slot = some (t, event)) (hs : c.send? t = none) :
    c.recv = (c.emptyReceipt, [.abandoned event.items.length], { c with slot := none }) := by
  have hsame : ({ c with slot := none } : Conduit).send? t = none := hs
  simp only [recv, hslot, hsame, Option.isSome_none, Bool.false_eq_true, if_false]
  rfl

/-- How a poll of the receiver goes: what it answers, what it notes, and the conduit afterwards. -/
inductive Receiving (c : Conduit) : Receipt → List LogEntry → Conduit → Prop where
  | empty (hslot : c.slot = none) : Receiving c c.emptyReceipt [] c
  /-- The send of the event is alive: it is told that its event was taken. -/
  | taken {t : Ticket} {event : Event} {s : Send} (hslot : c.slot = some (t, event))
      (hs : c.send? t = some s) :
      Receiving c (.event event) [] ({ c with slot := none }.advance t .taken)
  /-- The send of the event was dropped: the event is thrown away. -/
  | passed {t : Ticket} {event : Event} (hslot : c.slot = some (t, event))
      (hs : c.send? t = none) :
      Receiving c { c with slot := none }.emptyReceipt [.abandoned event.items.length]
        { c with slot := none }

theorem receiving_recv (c : Conduit) :
    Receiving c c.recv.1 c.recv.2.1 c.recv.2.2 := by
  cases hslot : c.slot with
  | none =>
    rw [recv_of_empty hslot]
    exact .empty hslot
  | some entry =>
    obtain ⟨t, event⟩ := entry
    cases hs : c.send? t with
    | none =>
      rw [recv_of_absent hslot hs]
      exact .passed hslot hs
    | some s =>
      rw [recv_of_alive hslot hs]
      exact .taken hslot hs

theorem issued_recv (c : Conduit) : c.recv.2.2.issued = c.issued := by
  have hrecv := receiving_recv c
  generalize c.recv.1 = receipt at hrecv
  generalize c.recv.2.1 = entries at hrecv
  generalize c.recv.2.2 = d at hrecv ⊢
  cases hrecv <;> rfl

theorem closed_recv (c : Conduit) : c.recv.2.2.closed = c.closed := by
  have hrecv := receiving_recv c
  generalize c.recv.1 = receipt at hrecv
  generalize c.recv.2.1 = entries at hrecv
  generalize c.recv.2.2 = d at hrecv ⊢
  cases hrecv <;> rfl

/-- An empty slot is no event. -/
theorem emptyReceipt_ne_event (c : Conduit) (event : Event) : c.emptyReceipt ≠ .event event := by
  unfold emptyReceipt
  split <;> simp

/-! ## The invariant of both ends -/

/-- The slot and the sends agree, and nobody waits at a closed conduit. -/
structure Sound (c : Conduit) : Prop where
  issued_of_alive : ∀ {t s}, c.send? t = some s → t < c.issued
  issued_of_slot : ∀ {t event}, c.slot = some (t, event) → t < c.issued
  slot_of_placed : ∀ {t s}, c.send? t = some s → s.stage = .placed → c.slot = some (t, s.event)
  placed_of_slot : ∀ {t event s}, c.slot = some (t, event) → c.send? t = some s →
    s.stage = .placed
  slot_of_closed : c.closed = true → c.slot = none
  not_queued_of_closed : ∀ {t s}, c.closed = true → c.send? t = some s → s.stage ≠ .queued
  not_refused_of_open : ∀ {t s}, c.closed = false → c.send? t = some s → s.stage ≠ .refused

theorem sound_new : Sound {} where
  issued_of_alive := by simp [send?]
  issued_of_slot := by simp
  slot_of_placed := by simp [send?]
  placed_of_slot := by simp
  slot_of_closed := by simp
  not_queued_of_closed := by simp
  not_refused_of_open := by simp [send?]

namespace Sound

variable {c : Conduit}

/-- The line and the number of senders play no part. -/
theorem congr {d : Conduit} (h : c.Sound) (hsend : ∀ t, d.send? t = c.send? t)
    (hslot : d.slot = c.slot) (hclosed : d.closed = c.closed) (hissued : d.issued = c.issued) :
    d.Sound := by
  constructor <;> simp only [hsend, hslot, hclosed, hissued]
  · exact h.issued_of_alive
  · exact h.issued_of_slot
  · exact h.slot_of_placed
  · exact h.placed_of_slot
  · exact h.slot_of_closed
  · exact h.not_queued_of_closed
  · exact h.not_refused_of_open

/-- A send that is started is new, and is known to nobody. -/
theorem start (h : c.Sound) (event : Event) : (c.start event).2.Sound := by
  constructor
  case issued_of_alive =>
    intro t s hs
    rcases of_send?_start hs with hs | ⟨rfl, -⟩
    · exact Nat.lt_succ_of_lt (h.issued_of_alive hs)
    · exact Nat.lt_succ_self _
  case issued_of_slot => exact fun hslot => Nat.lt_succ_of_lt (h.issued_of_slot hslot)
  case slot_of_placed =>
    intro t s hs hstage
    rcases of_send?_start hs with hs | ⟨-, rfl⟩
    · exact h.slot_of_placed hs hstage
    · simp at hstage
  case placed_of_slot =>
    intro t event s hslot hs
    rcases of_send?_start hs with hs | ⟨rfl, -⟩
    · exact h.placed_of_slot hslot hs
    · exact absurd (h.issued_of_slot hslot) (Nat.lt_irrefl _)
  case slot_of_closed => exact h.slot_of_closed
  case not_queued_of_closed =>
    intro t s hclosed hs
    rcases of_send?_start hs with hs | ⟨-, rfl⟩
    · exact h.not_queued_of_closed hclosed hs
    · simp
  case not_refused_of_open =>
    intro t s hopen hs
    rcases of_send?_start hs with hs | ⟨-, rfl⟩
    · exact h.not_refused_of_open hopen hs
    · simp

/-- A send that goes takes nothing with it. -/
theorem finish (h : c.Sound) (ticket : Ticket) : (c.finish ticket).Sound := by
  have halive : ∀ {t s}, (c.finish ticket).send? t = some s → c.send? t = some s := by
    intro t s hs
    rw [send?_finish] at hs
    split at hs
    · simp at hs
    · exact hs
  exact
    { issued_of_alive := fun hs => h.issued_of_alive (halive hs)
      issued_of_slot := h.issued_of_slot
      slot_of_placed := fun hs => h.slot_of_placed (halive hs)
      placed_of_slot := fun hslot hs => h.placed_of_slot hslot (halive hs)
      slot_of_closed := h.slot_of_closed
      not_queued_of_closed := fun hclosed hs => h.not_queued_of_closed hclosed (halive hs)
      not_refused_of_open := fun hopen hs => h.not_refused_of_open hopen (halive hs) }

theorem drop (h : c.Sound) (ticket : Ticket) : (c.drop ticket).Sound :=
  (h.finish ticket).congr (fun _ => rfl) rfl rfl rfl

theorem issued_of_advance (h : c.Sound) {ticket t : Ticket} {stage : Send.Stage} {s : Send}
    (hs : (c.advance ticket stage).send? t = some s) : t < c.issued := by
  obtain ⟨old, hold, -⟩ := exists_of_send?_advance hs
  exact h.issued_of_alive hold

theorem not_refused_of_advance (h : c.Sound) {ticket t : Ticket} {stage : Send.Stage} {s : Send}
    (hstage : stage ≠ .refused) (hopen : c.closed = false)
    (hs : (c.advance ticket stage).send? t = some s) : s.stage ≠ .refused := by
  obtain ⟨old, hold, rfl⟩ := exists_of_send?_advance hs
  split
  · exact hstage
  · exact h.not_refused_of_open hopen hold

/-- A send that gets the permit at an open conduit fills the slot. -/
theorem place (h : c.Sound) {t : Ticket} {send : Send} (hs : c.send? t = some send)
    (hopen : c.closed = false) (hslot : c.slot = none) : (c.place send).Sound := by
  obtain rfl : send.ticket = t := ticket_eq_of_send? hs
  constructor
  case issued_of_alive => exact fun hs' => h.issued_of_advance hs'
  case issued_of_slot =>
    intro t event hslot'
    obtain ⟨rfl, -⟩ := Prod.mk.inj (Option.some.inj hslot')
    exact h.issued_of_alive hs
  case slot_of_placed =>
    intro t s hs' hstage
    obtain ⟨old, hold, rfl⟩ := exists_of_send?_place hs'
    by_cases ht : t = send.ticket
    · subst ht
      obtain rfl : send = old := Option.some.inj (hs.symm.trans hold)
      simp [Conduit.place]
    · -- The event of any other send at this stage would stand in the slot, which was empty.
      rw [if_neg ht] at hstage
      have := h.slot_of_placed hold hstage
      simp [hslot] at this
  case placed_of_slot =>
    intro t event s hslot' hs'
    obtain ⟨rfl, -⟩ := Prod.mk.inj (Option.some.inj hslot')
    obtain ⟨old, -, rfl⟩ := exists_of_send?_place hs'
    simp
  case slot_of_closed => exact fun hclosed => absurd (hopen.symm.trans hclosed) (by decide)
  case not_queued_of_closed => exact fun hclosed => absurd (hopen.symm.trans hclosed) (by decide)
  case not_refused_of_open => exact fun _ hs' => h.not_refused_of_advance (by decide) hopen hs'

/-- A send that joins the line leaves the slot alone. -/
theorem enqueue (h : c.Sound) {t : Ticket} {send : Send} (hs : c.send? t = some send)
    (hstage : send.stage = .fresh) (hopen : c.closed = false) : (c.enqueue send).Sound := by
  obtain rfl : send.ticket = t := ticket_eq_of_send? hs
  constructor
  case issued_of_alive => exact fun hs' => h.issued_of_advance hs'
  case issued_of_slot => exact h.issued_of_slot
  case slot_of_placed =>
    intro t s hs' hstage'
    obtain ⟨old, hold, rfl⟩ := exists_of_send?_enqueue hs'
    by_cases ht : t = send.ticket
    · rw [if_pos ht] at hstage'
      simp at hstage'
    · rw [if_neg ht] at hstage' ⊢
      exact h.slot_of_placed hold hstage'
  case placed_of_slot =>
    intro t event s hslot hs'
    obtain ⟨old, hold, rfl⟩ := exists_of_send?_enqueue hs'
    have hplaced := h.placed_of_slot hslot hold
    by_cases ht : t = send.ticket
    · subst ht
      obtain rfl : send = old := Option.some.inj (hs.symm.trans hold)
      simp [hstage] at hplaced
    · rwa [if_neg ht]
  case slot_of_closed => exact h.slot_of_closed
  case not_queued_of_closed => exact fun hclosed => absurd (hopen.symm.trans hclosed) (by decide)
  case not_refused_of_open => exact fun _ hs' => h.not_refused_of_advance (by decide) hopen hs'

theorem poll (h : c.Sound) (t : Ticket) : (c.poll t).2.Sound := by
  have hpoll := polling_poll c t
  generalize (c.poll t).1 = answer at hpoll
  generalize (c.poll t).2 = d at hpoll ⊢
  cases hpoll with
  | absent _ => exact h
  | late _ _ _ => exact h.finish t
  | placed hs hstage hopen hslot =>
    refine h.place hs ?_ hslot
    rcases hstage with hfresh | hqueued
    · exact hopen hfresh
    · -- Nobody waits in the line of a closed conduit, so this one is open.
      rw [← Bool.not_eq_true]
      exact fun hclosed => h.not_queued_of_closed hclosed hs hqueued
  | enqueued hs hstage hclosed => exact h.enqueue hs hstage hclosed
  | waiting _ _ => exact h
  | accepted _ _ => exact h.finish t
  | refused _ _ => exact h.finish t

/-- The slot is emptied, and if the send of its event is alive, it is told so. -/
theorem recv (h : c.Sound) : c.recv.2.2.Sound := by
  have hrecv := receiving_recv c
  generalize c.recv.1 = receipt at hrecv
  generalize c.recv.2.1 = entries at hrecv
  generalize c.recv.2.2 = d at hrecv ⊢
  cases hrecv with
  | empty _ => exact h
  | @taken ticket event s hslot hs =>
    constructor
    case issued_of_alive => exact fun hs' => h.issued_of_advance hs'
    case issued_of_slot => simp [advance]
    case slot_of_placed =>
      intro t s hs' hstage
      obtain ⟨old, hold, rfl⟩ := exists_of_send?_advance hs'
      by_cases ht : t = ticket
      · rw [if_pos ht] at hstage
        simp at hstage
      · -- The slot held one event only, and that was the one of `ticket`.
        rw [if_neg ht] at hstage
        have hslot' := hslot.symm.trans (h.slot_of_placed hold hstage)
        exact absurd (Prod.mk.inj (Option.some.inj hslot')).1.symm ht
    case placed_of_slot => simp [advance]
    case slot_of_closed => exact fun _ => rfl
    case not_queued_of_closed =>
      intro t s hclosed hs'
      obtain ⟨old, hold, rfl⟩ := exists_of_send?_advance hs'
      split
      · simp
      · exact h.not_queued_of_closed hclosed hold
    case not_refused_of_open =>
      exact fun hopen hs' => h.not_refused_of_advance (by decide) hopen hs'
  | passed hslot hs =>
    exact
      { issued_of_alive := h.issued_of_alive
        issued_of_slot := by simp
        slot_of_placed := fun {t s} hs' hstage => by
          have hslot' := hslot.symm.trans (h.slot_of_placed hs' hstage)
          obtain ⟨rfl, -⟩ := Prod.mk.inj (Option.some.inj hslot')
          exact absurd (hs.symm.trans hs') (by simp)
        placed_of_slot := by simp
        slot_of_closed := fun _ => rfl
        not_queued_of_closed := h.not_queued_of_closed
        not_refused_of_open := h.not_refused_of_open }

theorem close (h : c.Sound) : c.close.Sound := by
  constructor
  case issued_of_alive =>
    intro t s hs
    obtain ⟨old, hold, -⟩ := exists_of_send?_close hs
    exact h.issued_of_alive hold
  case issued_of_slot => simp [Conduit.close]
  case slot_of_placed =>
    intro t s hs hstage
    obtain ⟨old, -, rfl⟩ := exists_of_send?_close hs
    split at hstage
    · simp at hstage
    · next hnot => exact absurd (Or.inr hstage) hnot
  case placed_of_slot => simp [Conduit.close]
  case slot_of_closed => exact fun _ => rfl
  case not_queued_of_closed =>
    intro t s _ hs
    obtain ⟨old, -, rfl⟩ := exists_of_send?_close hs
    split
    · simp
    · next hnot => exact fun hqueued => hnot (Or.inl hqueued)
  case not_refused_of_open => exact fun hopen => absurd hopen (by simp [Conduit.close])

end Sound

end KeyRelay.Conduit
