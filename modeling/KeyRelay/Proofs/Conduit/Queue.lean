import KeyRelay.Proofs.Conduit.Handover

set_option autoImplicit false

/-! # The queue of a conduit

The sends whose events are still to be taken stand in one queue (`Conduit.queue`): the one whose
event is in the slot, if it has not been dropped, and then those in the line, whoever holds the
permit. A first poll joins the queue at its end, a drop leaves it, and the receiver takes from its
front; nothing else moves it. In the queue is who waits, each send once (`Conduit.Lined`). -/

namespace KeyRelay

namespace Conduit

/-! ## The queue -/

/-- The sends whose events are to be taken, in order: the one whose event stands in the slot, if it
    is alive, and then those in the line. -/
def queue (c : Conduit) : List Ticket :=
  match c.slot with
  | some (t, _) => if (c.send? t).isSome then t :: c.line else c.line
  | none => c.line

/-- The send waits for the permit, or for the receiver to take its event from the slot. -/
def Waits (c : Conduit) (t : Ticket) : Prop :=
  ∃ s, c.send? t = some s ∧ (s.stage = .queued ∨ s.stage = .placed)

variable {c d : Conduit} {t u : Ticket} {send : Send}

theorem queue_of_empty (hslot : c.slot = none) : c.queue = c.line := by
  rw [queue, hslot]

theorem queue_of_alive {event : Event} {s : Send} (hslot : c.slot = some (t, event))
    (hs : c.send? t = some s) : c.queue = t :: c.line := by
  simp only [queue, hslot, hs, Option.isSome_some, if_true]

theorem queue_of_absent {event : Event} (hslot : c.slot = some (t, event))
    (hs : c.send? t = none) : c.queue = c.line := by
  simp only [queue, hslot, hs, Option.isSome_none, Bool.false_eq_true, if_false]

/-- Only the line counts, and the life of the send whose event stands in the slot. -/
theorem queue_congr (hslot : d.slot = c.slot) (hline : d.line = c.line)
    (halive : ∀ t event, c.slot = some (t, event) →
      (d.send? t).isSome = (c.send? t).isSome) : d.queue = c.queue := by
  unfold queue
  rw [hslot, hline]
  split
  · next t event hc => rw [halive t event hc]
  · rfl

/-- Nobody is in the queue twice, and in the queue is who waits. -/
structure Lined (c : Conduit) : Prop where
  nodup : c.queue.Nodup
  mem_queue : ∀ {t}, t ∈ c.queue ↔ c.Waits t

/-! ## Who waits -/

theorem waits_start (event : Event) : (c.start event).2.Waits u ↔ c.Waits u := by
  constructor
  · rintro ⟨s, hs, hstage⟩
    rcases of_send?_start hs with hs | ⟨-, rfl⟩
    · exact ⟨s, hs, hstage⟩
    · simp at hstage
  · rintro ⟨s, hs, hstage⟩
    refine ⟨s, ?_, hstage⟩
    rw [send?_start, hs]
    rfl

theorem waits_finish : (c.finish t).Waits u ↔ u ≠ t ∧ c.Waits u := by
  unfold Waits
  rw [send?_finish]
  by_cases hu : u = t <;> simp [hu]

theorem waits_advance (hs : c.send? t = some send) (stage : Send.Stage) :
    (c.advance t stage).Waits u
      ↔ if u = t then stage = .queued ∨ stage = .placed else c.Waits u := by
  unfold Waits
  rw [send?_advance]
  by_cases hu : u = t
  · subst hu
    simp [hs]
  · simp [hu]

theorem not_waits_close : ¬ c.close.Waits u := by
  rintro ⟨s, hs, hstage⟩
  obtain ⟨old, -, rfl⟩ := exists_of_send?_close hs
  split at hstage
  · simp at hstage
  · next hnot => exact hnot hstage

/-! ## How the queue moves -/

theorem queue_start (h : c.Sound) (event : Event) : (c.start event).2.queue = c.queue := by
  refine queue_congr rfl rfl fun t event' hslot => ?_
  rw [send?_start, if_neg (Nat.ne_of_lt (h.issued_of_slot hslot)), Option.or_none]

/-- A send that does not wait goes unnoticed. -/
theorem queue_finish (h : c.Sound) (hnot : ¬ c.Waits t) : (c.finish t).queue = c.queue := by
  refine queue_congr rfl rfl fun u event hslot => ?_
  rw [send?_finish]
  split
  · next hu =>
      -- The send of the event in the slot would wait.
      subst hu
      cases hs : c.send? u with
      | none => rfl
      | some s => exact absurd ⟨s, hs, Or.inr (h.placed_of_slot hslot hs)⟩ hnot
  · rfl

theorem queue_drop (c : Conduit) (t : Ticket) :
    (c.drop t).queue = c.queue.filter (· ≠ t) := by
  cases hslot : c.slot with
  | none =>
    rw [queue_of_empty hslot, queue_of_empty (show (c.drop t).slot = none from hslot)]
    rfl
  | some entry =>
    obtain ⟨u, event⟩ := entry
    have hslot' : (c.drop t).slot = some (u, event) := hslot
    have hfound : (c.drop t).send? u = if u = t then none else c.send? u := send?_finish c t u
    cases hs : c.send? u with
    | none =>
      rw [queue_of_absent hslot hs, queue_of_absent hslot' (by simp [hfound, hs])]
      rfl
    | some s =>
      rw [queue_of_alive hslot hs]
      by_cases hu : u = t
      · rw [queue_of_absent hslot' (hfound.trans (if_pos hu)),
          List.filter_cons_of_neg (by simp [hu])]
        rfl
      · rw [queue_of_alive hslot' (by rw [hfound, if_neg hu, hs]),
          List.filter_cons_of_pos (by simp [hu])]
        rfl

theorem queue_place (hs : c.send? t = some send) :
    (c.place send).queue = t :: c.line.filter (· ≠ t) := by
  obtain rfl : send.ticket = t := ticket_eq_of_send? hs
  have hfound : (c.place send).send? send.ticket = some { send with stage := .placed } := by
    show (c.advance send.ticket .placed).send? send.ticket = _
    rw [send?_advance, hs]
    simp
  exact queue_of_alive rfl hfound

theorem queue_enqueue (hs : c.send? t = some send) :
    (c.enqueue send).queue = c.queue ++ [t] := by
  obtain rfl : send.ticket = t := ticket_eq_of_send? hs
  have halive : ∀ u, ((c.enqueue send).send? u).isSome = (c.send? u).isSome := by
    intro u
    show ((c.advance send.ticket .queued).send? u).isSome = _
    rw [send?_advance, Option.isSome_map]
  cases hslot : c.slot with
  | none =>
    rw [queue_of_empty hslot, queue_of_empty (show (c.enqueue send).slot = none from hslot)]
    rfl
  | some entry =>
    have hslot' : (c.enqueue send).slot = some entry := hslot
    simp only [queue, hslot, hslot', halive]
    split <;> rfl

/-- A send that is polled is not as it was before its first poll; the others stay as they are. -/
theorem of_send?_poll {s : Send} (h : (c.poll t).2.send? u = some s) :
    u = t ∧ s.stage ≠ .fresh ∨ u ≠ t ∧ c.send? u = some s := by
  have hpoll := polling_poll c t
  generalize (c.poll t).1 = answer at hpoll
  generalize (c.poll t).2 = d at hpoll h
  have hgone : (c.finish t).send? u = some s → u ≠ t ∧ c.send? u = some s := by
    intro h
    rw [send?_finish] at h
    split at h
    · simp at h
    · next hu => exact ⟨hu, h⟩
  have hmoved : ∀ {old : Send} {stage : Send.Stage}, c.send? t = some old → stage ≠ .fresh →
      (c.advance old.ticket stage).send? u = some s →
      u = t ∧ s.stage ≠ .fresh ∨ u ≠ t ∧ c.send? u = some s := by
    intro old stage hs hstage h
    obtain ⟨before, hbefore, rfl⟩ := exists_of_send?_advance h
    rw [ticket_eq_of_send? hs]
    split
    · next hu => exact Or.inl ⟨hu, hstage⟩
    · next hu => exact Or.inr ⟨hu, hbefore⟩
  have hsame : c.send? u = some s → (u = t → s.stage ≠ .fresh) →
      u = t ∧ s.stage ≠ .fresh ∨ u ≠ t ∧ c.send? u = some s := by
    intro hs hstage
    by_cases hu : u = t
    · exact Or.inl ⟨hu, hstage hu⟩
    · exact Or.inr ⟨hu, hs⟩
  cases hpoll with
  | absent hnone => exact hsame h fun hu => absurd (hnone.symm.trans (hu ▸ h)) (by simp)
  | late _ _ _ => exact Or.inr (hgone h)
  | placed hs _ _ _ _ => exact hmoved hs (by decide) h
  | enqueued hs _ _ => exact hmoved hs (by decide) h
  | waiting hs hstage =>
    refine hsame h fun hu => ?_
    subst hu
    obtain rfl := Option.some.inj (hs.symm.trans h)
    rcases hstage with hstage | hstage <;> simp [hstage]
  | accepted _ _ => exact Or.inr (hgone h)
  | refused _ _ => exact Or.inr (hgone h)

/-- The receiver takes from the front of the queue. -/
theorem queue_recv (c : Conduit) :
    c.queue = c.handing.map (·.1) ++ c.recv.2.2.queue := by
  have hrecv := receiving_recv c
  generalize c.recv.1 = receipt at hrecv
  generalize c.recv.2.1 = entries at hrecv
  generalize c.recv.2.2 = d at hrecv ⊢
  cases hrecv with
  | empty hslot =>
    rw [handing_of_empty hslot]
    rfl
  | taken hslot hs =>
    rw [handing_of_alive hslot hs, queue_of_alive hslot hs]
    rfl
  | passed hslot hs =>
    rw [handing_of_absent hslot hs, queue_of_absent hslot hs]
    rfl

/-- The receiver has nothing to do with sends that were never polled. -/
theorem Sound.of_send?_recv (h : c.Sound) {s : Send} (hs : c.recv.2.2.send? t = some s) :
    ∃ old, c.send? t = some old ∧ (s.stage = .fresh ↔ old.stage = .fresh) := by
  have hrecv := receiving_recv c
  generalize c.recv.1 = receipt at hrecv
  generalize c.recv.2.1 = entries at hrecv
  generalize c.recv.2.2 = d at hrecv hs
  cases hrecv with
  | empty _ => exact ⟨s, hs, Iff.rfl⟩
  | taken hslot hsend =>
    obtain ⟨old, hold, rfl⟩ := exists_of_send?_advance hs
    refine ⟨old, hold, ?_⟩
    split
    · next ht =>
        subst ht
        have hplaced := h.placed_of_slot hslot hold
        simp [hplaced]
    · rfl
  | passed _ _ => exact ⟨s, hs, Iff.rfl⟩

/-- What is handed over was in front. -/
theorem head?_queue_of_handing {event : Event} (h : (t, event) ∈ c.handing) :
    c.queue.head? = some t := by
  cases hslot : c.slot with
  | none => simp [handing_of_empty hslot] at h
  | some entry =>
    obtain ⟨u, event'⟩ := entry
    cases hs : c.send? u with
    | none => simp [handing_of_absent hslot hs] at h
    | some s =>
      rw [handing_of_alive hslot hs, List.mem_singleton] at h
      obtain ⟨rfl, -⟩ := Prod.mk.inj h
      rw [queue_of_alive hslot hs]
      rfl

/-! ## The slot -/

/-- Nobody puts an event over another one, even if the send of that one is gone. -/
theorem slot_poll_of_full {entry : Ticket × Event} (hslot : c.slot = some entry) (u : Ticket) :
    (c.poll u).2.slot = some entry := by
  have hpoll := polling_poll c u
  generalize (c.poll u).1 = answer at hpoll
  generalize (c.poll u).2 = d at hpoll ⊢
  cases hpoll with
  | placed _ _ _ hempty _ => exact absurd (hslot.symm.trans hempty) (by simp)
  | _ => exact hslot

/-- Nobody uses the permit of another send, even if that one is not polled. -/
theorem slot_poll_of_granted (hholds : c.holdsPermit t = true) (hu : u ≠ t) :
    (c.poll u).2.slot = none := by
  rw [holdsPermit, Bool.and_eq_true, Option.isNone_iff_eq_none, decide_eq_true_iff] at hholds
  obtain ⟨hslot, hfirst⟩ := hholds
  have hpoll := polling_poll c u
  generalize (c.poll u).1 = answer at hpoll
  generalize (c.poll u).2 = d at hpoll ⊢
  cases hpoll with
  | placed _ _ _ _ hturn =>
    rw [hfirst] at hturn
    split at hturn
    · simp at hturn
    · exact absurd (Option.some.inj hturn).symm hu
  | _ => exact hslot

/-- Who holds the permit uses it when it is polled. -/
theorem Lined.exists_slot_of_granted (h : c.Lined) (hsound : c.Sound)
    (hholds : c.holdsPermit t = true) :
    ∃ s, c.send? t = some s ∧ (c.poll t).2.slot = some (t, s.event) := by
  have hpermit := hholds
  rw [holdsPermit, Bool.and_eq_true, Option.isNone_iff_eq_none, decide_eq_true_iff] at hpermit
  obtain ⟨hslot, hfirst⟩ := hpermit
  have hmem : t ∈ c.queue := by
    rw [queue_of_empty hslot]
    exact List.mem_of_head? hfirst
  obtain ⟨s, hs, hqueued | hplaced⟩ := h.mem_queue.1 hmem
  · refine ⟨s, hs, ?_⟩
    simp only [Conduit.poll, hs, hqueued, hholds, if_true, place, ticket_eq_of_send? hs]
  · exact absurd (hslot.symm.trans (hsound.slot_of_placed hs hplaced)) (by simp)

/-! ## Everything keeps the queue in order -/

namespace Lined

/-- A poll of a send that was not polled before joins the queue at its end, if the receiver is
    still there; any other poll leaves the queue as it is. -/
theorem queue_poll (h : c.Lined) (hsound : c.Sound) (hs : c.send? t = some send) :
    (c.poll t).2.queue
      = if send.stage = .fresh ∧ c.closed = false then c.queue ++ [t] else c.queue := by
  have hpoll := polling_poll c t
  generalize (c.poll t).1 = answer at hpoll
  generalize (c.poll t).2 = d at hpoll ⊢
  -- What the poll found is the send that is known to be there.
  have hsame : ∀ {s : Send}, c.send? t = some s → s = send := fun hs' =>
    Option.some.inj (hs'.symm.trans hs)
  have hgoes : send.stage ≠ .queued → send.stage ≠ .placed → (c.finish t).queue = c.queue :=
    fun hqueued hplaced => queue_finish hsound fun ⟨s, hs', hstage⟩ =>
      (hsame hs' ▸ hstage).elim hqueued hplaced
  cases hpoll with
  | absent hnone => exact absurd (hnone.symm.trans hs) (by simp)
  | late hs' hstage hclosed =>
    obtain rfl := hsame hs'
    rw [if_neg (by simp [hclosed]), hgoes (by simp [hstage]) (by simp [hstage])]
  | placed hs' hstage hopen hslot hturn =>
    obtain rfl := hsame hs'
    rw [queue_place hs, queue_of_empty hslot]
    rcases hstage with hfresh | hqueued
    · rw [if_pos hfresh, List.head?_eq_none_iff] at hturn
      rw [if_pos ⟨hfresh, hopen hfresh⟩, hturn]
      rfl
    · -- The send was the first in the line, and it is there only once.
      rw [if_neg (by simp [hqueued])] at hturn ⊢
      obtain ⟨rest, hline⟩ : ∃ rest, c.line = t :: rest := List.head?_eq_some_iff.1 hturn
      have hnodup := h.nodup
      rw [queue_of_empty hslot, hline, List.nodup_cons] at hnodup
      rw [hline, List.filter_cons_of_neg (by simp), List.filter_eq_self.2]
      intro u hu
      have : u ≠ t := fun heq => hnodup.1 (heq ▸ hu)
      simpa using this
  | enqueued hs' hstage hclosed =>
    obtain rfl := hsame hs'
    rw [if_pos ⟨hstage, hclosed⟩, queue_enqueue hs]
  | waiting hs' hstage =>
    obtain rfl := hsame hs'
    rw [if_neg]
    rintro ⟨hfresh, -⟩
    simp [hfresh] at hstage
  | accepted hs' hstage =>
    obtain rfl := hsame hs'
    rw [if_neg (by simp [hstage]), hgoes (by simp [hstage]) (by simp [hstage])]
  | refused hs' hstage =>
    obtain rfl := hsame hs'
    rw [if_neg (by simp [hstage]), hgoes (by simp [hstage]) (by simp [hstage])]

theorem start (h : c.Lined) (hsound : c.Sound) (event : Event) : (c.start event).2.Lined where
  nodup := by
    rw [queue_start hsound]
    exact h.nodup
  mem_queue := by
    intro u
    rw [queue_start hsound, waits_start]
    exact h.mem_queue

theorem drop (h : c.Lined) (t : Ticket) : (c.drop t).Lined where
  nodup := by
    rw [queue_drop]
    exact h.nodup.filter _
  mem_queue := by
    intro u
    have hdrop : (c.drop t).Waits u ↔ u ≠ t ∧ c.Waits u := waits_finish
    rw [queue_drop, List.mem_filter, hdrop, h.mem_queue, and_comm]
    simp

theorem close (c : Conduit) : c.close.Lined :=
  ⟨List.nodup_nil, fun {_} => iff_of_false List.not_mem_nil not_waits_close⟩

/-- After a poll waits who waited before, and the polled send too if this was its first poll and the
    receiver is still there. -/
theorem waits_poll (hs : c.send? t = some send) :
    (c.poll t).2.Waits u ↔ c.Waits u ∨ u = t ∧ send.stage = .fresh ∧ c.closed = false := by
  have hpoll := polling_poll c t
  generalize (c.poll t).1 = answer at hpoll
  generalize (c.poll t).2 = d at hpoll ⊢
  have hsame : ∀ {s : Send}, c.send? t = some s → s = send := fun hs' =>
    Option.some.inj (hs'.symm.trans hs)
  have hself : c.Waits t ↔ send.stage = .queued ∨ send.stage = .placed :=
    ⟨fun ⟨_, hs', hstage⟩ => hsame hs' ▸ hstage, fun hstage => ⟨send, hs, hstage⟩⟩
  have hgoes : ¬ c.Waits t → ¬ (send.stage = .fresh ∧ c.closed = false) →
      ((c.finish t).Waits u ↔ c.Waits u ∨ u = t ∧ send.stage = .fresh ∧ c.closed = false) := by
    intro hnot hlate
    rw [waits_finish]
    constructor
    · exact fun h => Or.inl h.2
    · rintro (hu | ⟨-, h⟩)
      · exact ⟨fun heq => hnot (heq ▸ hu), hu⟩
      · exact absurd h hlate
  have hjoins : ∀ stage, stage = .queued ∨ stage = .placed →
      (c.Waits t ∨ send.stage = .fresh ∧ c.closed = false) →
      ((c.advance send.ticket stage).Waits u
        ↔ c.Waits u ∨ u = t ∧ send.stage = .fresh ∧ c.closed = false) := by
    intro stage hstage ht
    rw [ticket_eq_of_send? hs, waits_advance hs]
    by_cases hu : u = t
    · subst hu
      simpa [hstage] using ht
    · simp [hu]
  cases hpoll with
  | absent hnone => exact absurd (hnone.symm.trans hs) (by simp)
  | late hs' hstage hclosed =>
    obtain rfl := hsame hs'
    exact hgoes (by simp [hself, hstage]) (by simp [hclosed])
  | placed hs' hstage hopen _ _ =>
    obtain rfl := hsame hs'
    refine hjoins .placed (Or.inr rfl) ?_
    rcases hstage with hfresh | hqueued
    · exact Or.inr ⟨hfresh, hopen hfresh⟩
    · exact Or.inl (hself.2 (Or.inl hqueued))
  | enqueued hs' hstage hclosed =>
    obtain rfl := hsame hs'
    exact hjoins .queued (Or.inl rfl) (Or.inr ⟨hstage, hclosed⟩)
  | waiting hs' hstage =>
    obtain rfl := hsame hs'
    refine ⟨Or.inl, ?_⟩
    rintro (hu | ⟨-, hfresh, -⟩)
    · exact hu
    · simp [hfresh] at hstage
  | accepted hs' hstage =>
    obtain rfl := hsame hs'
    exact hgoes (by simp [hself, hstage]) (by simp [hstage])
  | refused hs' hstage =>
    obtain rfl := hsame hs'
    exact hgoes (by simp [hself, hstage]) (by simp [hstage])

theorem poll (h : c.Lined) (hsound : c.Sound) (t : Ticket) : (c.poll t).2.Lined := by
  cases hs : c.send? t with
  | none =>
    have hsame : (c.poll t).2 = c := by simp only [Conduit.poll, hs]
    rwa [hsame]
  | some send =>
    have hqueue := h.queue_poll hsound hs
    constructor
    case nodup =>
      rw [hqueue]
      split
      · next hjoins =>
          -- A send that was not polled before does not wait yet.
          have hnew : t ∉ c.queue := by
            rw [h.mem_queue]
            rintro ⟨s, hs', hstage⟩
            obtain rfl : s = send := Option.some.inj (hs'.symm.trans hs)
            simp [hjoins.1] at hstage
          exact h.nodup.append (List.nodup_singleton t) (List.disjoint_singleton.2 hnew)
      · exact h.nodup
    case mem_queue =>
      intro u
      rw [waits_poll hs, hqueue, ← h.mem_queue]
      split
      · next hjoins => simp [hjoins]
      · next hnot => simp [hnot]

/-- The send that is told that its event was taken waits no more. -/
theorem recv (h : c.Lined) : c.recv.2.2.Lined := by
  have hqueue := queue_recv c
  have hrecv := receiving_recv c
  generalize c.recv.1 = receipt at hrecv
  generalize c.recv.2.1 = entries at hrecv
  generalize c.recv.2.2 = d at hrecv hqueue ⊢
  have hnodup := hqueue ▸ h.nodup
  refine ⟨hnodup.of_append_right, fun {u} => ?_⟩
  cases hrecv with
  | empty _ => exact h.mem_queue
  | @taken t event s hslot hs =>
    have hfront : t :: c.line = t :: ({ c with slot := none }.advance t .taken).queue := rfl
    rw [waits_advance (c := { c with slot := none }) hs]
    split
    · next hu =>
        subst hu
        rw [handing_of_alive hslot hs] at hnodup
        simpa using (List.nodup_cons.1 hnodup).1
    · next hu =>
        have hmem := h.mem_queue (t := u)
        rw [queue_of_alive hslot hs, hfront, List.mem_cons, or_iff_right hu] at hmem
        exact hmem
  | passed hslot hs =>
    have hmem := h.mem_queue (t := u)
    rw [queue_of_absent hslot hs] at hmem
    exact hmem

end Lined

end Conduit

end KeyRelay
