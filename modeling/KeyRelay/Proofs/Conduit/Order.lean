import Mathlib.Data.List.Induction
import KeyRelay.Proofs.Conduit.Queue

set_option autoImplicit false

/-! # First come, first served

Sends are served in the order of their first polls. What was returned so far, followed by the queue
of those who still wait, stands in this order at every moment (`Journal.Orderly`), as a first poll
joins the queue at its end and the receiver takes from its front. Who is missing among those before
a send that was served has been dropped in time (`Journal.Withdrawn`). -/

namespace KeyRelay

/-! ## Order in a list -/

/-- Ticket `t` stands in the list, and `u` stands behind it. -/
def Precedes (l : List Ticket) (t u : Ticket) : Prop := [t, u].Sublist l

namespace Precedes

variable {l : List Ticket} {t u v : Ticket}

theorem mem_right (h : Precedes l t u) : u ∈ l :=
  h.subset (List.mem_cons_of_mem _ List.mem_cons_self)

/-- What is added at the end stands behind everything. -/
theorem of_concat (h : Precedes (l ++ [v]) t u) (hne : u ≠ v) : Precedes l t u := by
  obtain ⟨first, last, heq, hfirst, hlast⟩ := List.sublist_append_iff.1 h
  rcases List.sublist_singleton.1 hlast with rfl | rfl
  · rw [List.append_nil] at heq
    rwa [Precedes, heq]
  · have hends := congrArg List.getLast? heq
    rw [List.getLast?_concat] at hends
    exact absurd (Option.some.inj hends) hne

/-- Without repetitions only one of two comes before the other. -/
theorem asymm (hnodup : l.Nodup) (h : Precedes l t u) : ¬ Precedes l u t := by
  induction l with
  | nil => exact absurd h.mem_right List.not_mem_nil
  | cons v rest ih =>
    obtain ⟨hv, hrest⟩ := List.nodup_cons.1 hnodup
    intro hswap
    cases h with
    | cons _ h =>
      cases hswap with
      | cons _ hswap => exact ih hrest h hswap
      | cons_cons _ _ => exact hv (mem_right h)
    | cons_cons _ hu =>
      cases hswap with
      | cons _ hswap => exact hv (mem_right hswap)
      | cons_cons _ _ => exact hv (hu.subset List.mem_cons_self)

end Precedes

namespace Journal

open Conduit (Act)

/-! ## Arrivals -/

/-- The tickets whose sends were polled, in the order of their first polls. -/
def arrivals (j : Journal) : List Ticket := (j.answers.map (·.1)).eraseDups

/-- The events of these sends, in the same order. -/
def arrived (j : Journal) : List (Ticket × Event) := j.arrivals.filterMap (j.started[·]?)

/-- The send was dropped, alive, before its event was returned. -/
def Withdrawn (moves : List Move) (t : Ticket) : Prop :=
  ∃ before after, moves = before ++ .act (.drop t) :: after
    ∧ ((run before).conduit.send? t).isSome = true ∧ t ∉ (run before).returnedTickets

theorem Withdrawn.append {moves : List Move} {t : Ticket} (h : Withdrawn moves t)
    (more : List Move) : Withdrawn (moves ++ more) t := by
  obtain ⟨before, after, rfl, halive, hnot⟩ := h
  exact ⟨before, after ++ more, by simp, halive, hnot⟩

theorem Withdrawn.gone {moves : List Move} {t : Ticket} (h : Withdrawn moves t) :
    (run moves).Gone t := by
  obtain ⟨before, after, rfl, halive, hnot⟩ := h
  rw [run_append]
  exact ((sound_run before).gone_drop halive hnot).follow after

theorem eraseDups_concat (l : List Ticket) (t : Ticket) :
    (l ++ [t]).eraseDups
      = if t ∈ l.eraseDups then l.eraseDups else l.eraseDups ++ [t] := by
  rw [List.eraseDups_append]
  by_cases h : t ∈ l
  · rw [if_pos (List.mem_eraseDups.2 h)]
    simp [List.removeAll, h]
  · rw [if_neg (mt List.mem_eraseDups.1 h)]
    simp [List.removeAll, h, List.eraseDups_cons]

theorem nodup_arrivals (j : Journal) : j.arrivals.Nodup := by
  unfold arrivals
  induction j.answers.map (·.1) using List.reverseRecOn with
  | nil => simp
  | append_singleton l t ih =>
    rw [eraseDups_concat]
    split
    · exact ih
    · next h =>
        exact ih.append (List.nodup_singleton t) (List.disjoint_singleton.2 h)

variable {j : Journal} {t u : Ticket} {send : Send}

theorem act_poll_of_absent (hs : j.conduit.send? t = none) : j.act (.poll t) = j := by
  simp [act, Conduit.poll, hs]

/-- A poll of a living send is answered, so its ticket has arrived. -/
theorem arrivals_poll (hs : j.conduit.send? t = some send) :
    (j.act (.poll t)).arrivals
      = if t ∈ j.arrivals then j.arrivals else j.arrivals ++ [t] := by
  have hpoll := Conduit.polling_poll j.conduit t
  have hanswer : ∃ answer, (j.conduit.poll t).1 = some answer := by
    generalize (j.conduit.poll t).1 = answer at hpoll ⊢
    generalize (j.conduit.poll t).2 = d at hpoll
    cases hpoll with
    | absent hnone => exact absurd (hnone.symm.trans hs) (by simp)
    | _ => exact ⟨_, rfl⟩
  obtain ⟨answer, hanswer⟩ := hanswer
  show ((j.answers ++ (j.conduit.poll t).1.toList.map fun a => (t, a)).map (·.1)).eraseDups = _
  rw [hanswer, List.map_append]
  exact eraseDups_concat _ t

/-! ## The invariant -/

/-- What was returned and what is still to be taken stand in the order of arrival. Who has arrived
    and is missing was withdrawn, as long as the receiver is there, and for good if a later arrival
    was returned. -/
structure Orderly (withdrawn : Ticket → Prop) (j : Journal) : Prop where
  lined : j.conduit.Lined
  order : (j.returnedTickets ++ j.conduit.queue).Sublist j.arrivals
  issued : ∀ {t}, t ∈ j.arrivals → t < j.conduit.issued
  fresh_iff : ∀ {t s}, j.conduit.send? t = some s → (s.stage = .fresh ↔ t ∉ j.arrivals)
  settled : j.conduit.closed = false → ∀ {t}, t ∈ j.arrivals →
    t ∈ j.returnedTickets ∨ t ∈ j.conduit.queue ∨ withdrawn t
  missing : ∀ {t u}, u ∈ j.returnedTickets → Precedes j.arrivals t u →
    t ∈ j.returnedTickets ∨ withdrawn t

variable {withdrawn : Ticket → Prop}

theorem orderly_new : Orderly withdrawn {} where
  lined := ⟨List.nodup_nil, by simp [Conduit.queue, Conduit.Waits, Conduit.send?]⟩
  order := List.nil_sublist _
  issued := by simp [arrivals]
  fresh_iff := by simp [Conduit.send?]
  settled := by simp [arrivals]
  missing := by simp [returnedTickets]

namespace Orderly

theorem mono {more : Ticket → Prop} (h : Orderly withdrawn j)
    (hmore : ∀ t, withdrawn t → more t) : Orderly more j :=
  { h with
    settled := fun hopen _ ht => (h.settled hopen ht).imp id (Or.imp id (hmore _))
    missing := fun hu ht => (h.missing hu ht).imp id (hmore _) }

theorem start (h : Orderly withdrawn j) (hsound : j.Sound) (event : Event) :
    Orderly withdrawn (j.act (.start event)) where
  lined := h.lined.start hsound.conduit event
  order := by
    show (j.returnedTickets ++ (j.conduit.start event).2.queue).Sublist j.arrivals
    rw [Conduit.queue_start hsound.conduit]
    exact h.order
  issued := fun ht => Nat.lt_succ_of_lt (h.issued ht)
  fresh_iff := by
    intro t s hs
    rcases Conduit.of_send?_start hs with hs | ⟨rfl, rfl⟩
    · exact h.fresh_iff hs
    · exact iff_of_true rfl fun ht => Nat.lt_irrefl _ (h.issued ht)
  settled := by
    intro hopen t ht
    show t ∈ j.returnedTickets ∨ t ∈ (j.conduit.start event).2.queue ∨ withdrawn t
    rw [Conduit.queue_start hsound.conduit]
    exact h.settled hopen ht
  missing := h.missing

theorem mem_arrivals (h : Orderly withdrawn j) (ht : t ∈ j.returnedTickets) : t ∈ j.arrivals :=
  h.order.subset (List.mem_append_left _ ht)

/-- The first poll of a send puts its ticket behind those that came before, and into the queue if
    the receiver is still there. -/
theorem poll_first (h : Orderly withdrawn j) (hsound : j.Sound)
    (hs : j.conduit.send? t = some send) (hfresh : send.stage = .fresh) :
    Orderly withdrawn (j.act (.poll t)) := by
  have hnew : t ∉ j.arrivals := (h.fresh_iff hs).1 hfresh
  have harrivals : (j.act (.poll t)).arrivals = j.arrivals ++ [t] := by
    rw [arrivals_poll hs, if_neg hnew]
  have hqueue : (j.act (.poll t)).conduit.queue
      = if j.conduit.closed = false then j.conduit.queue ++ [t] else j.conduit.queue := by
    show (j.conduit.poll t).2.queue = _
    simp only [h.lined.queue_poll hsound.conduit hs, hfresh, true_and]
  constructor
  case lined => exact h.lined.poll hsound.conduit t
  case order =>
    show (j.returnedTickets ++ (j.act (.poll t)).conduit.queue).Sublist _
    rw [hqueue, harrivals]
    split
    · rw [← List.append_assoc]
      exact h.order.append (List.Sublist.refl [t])
    · exact h.order.trans (List.sublist_append_left _ _)
  case issued =>
    intro u hu
    show u < (j.conduit.poll t).2.issued
    rw [(Conduit.quiet_poll j.conduit t).issued]
    rw [harrivals, List.mem_append, List.mem_singleton] at hu
    rcases hu with hu | rfl
    · exact h.issued hu
    · exact hsound.conduit.issued_of_alive hs
  case fresh_iff =>
    intro u s hs'
    rw [harrivals, List.mem_append, List.mem_singleton]
    rcases Conduit.of_send?_poll hs' with ⟨rfl, hstage⟩ | ⟨hu, hs'⟩
    · simp [hstage]
    · simp [h.fresh_iff hs', hu]
  case settled =>
    intro hopen u hu
    rw [conduit_closed_act] at hopen
    rw [harrivals, List.mem_append] at hu
    rw [hqueue, if_pos hopen, List.mem_append]
    rcases hu with hu | hu
    · exact (h.settled hopen hu).imp id (Or.imp Or.inl id)
    · exact Or.inr (Or.inl (Or.inr hu))
  case missing =>
    intro u v hv hu
    rw [harrivals] at hu
    refine h.missing hv (hu.of_concat fun heq => hnew ?_)
    exact heq ▸ h.mem_arrivals hv

/-- Further polls change nothing. -/
theorem poll_again (h : Orderly withdrawn j) (hsound : j.Sound)
    (hs : j.conduit.send? t = some send) (hstage : send.stage ≠ .fresh) :
    Orderly withdrawn (j.act (.poll t)) := by
  have hold : t ∈ j.arrivals := Decidable.not_not.1 (mt (h.fresh_iff hs).2 hstage)
  have harrivals : (j.act (.poll t)).arrivals = j.arrivals := by
    rw [arrivals_poll hs, if_pos hold]
  have hqueue : (j.act (.poll t)).conduit.queue = j.conduit.queue := by
    show (j.conduit.poll t).2.queue = _
    simp only [h.lined.queue_poll hsound.conduit hs, hstage, false_and, if_false]
  constructor
  case lined => exact h.lined.poll hsound.conduit t
  case order =>
    show (j.returnedTickets ++ (j.act (.poll t)).conduit.queue).Sublist _
    rw [hqueue, harrivals]
    exact h.order
  case issued =>
    intro u hu
    show u < (j.conduit.poll t).2.issued
    rw [(Conduit.quiet_poll j.conduit t).issued]
    exact h.issued (harrivals ▸ hu)
  case fresh_iff =>
    intro u s hs'
    rw [harrivals]
    rcases Conduit.of_send?_poll hs' with ⟨rfl, hstage'⟩ | ⟨-, hs'⟩
    · exact iff_of_false hstage' (not_not_intro hold)
    · exact h.fresh_iff hs'
  case settled =>
    intro hopen u hu
    rw [hqueue]
    exact h.settled (conduit_closed_act j _ ▸ hopen) (harrivals ▸ hu)
  case missing =>
    intro u v hv hu
    exact h.missing hv (harrivals ▸ hu)

/-- A send that is dropped leaves the queue, and is withdrawn if it was still in it. -/
theorem drop (h : Orderly withdrawn j) (hsound : j.Sound)
    (hgone : (j.conduit.send? t).isSome = true → t ∉ j.returnedTickets → withdrawn t) :
    Orderly withdrawn (j.act (.drop t)) := by
  have hqueue : (j.act (.drop t)).conduit.queue = j.conduit.queue.filter (· ≠ t) :=
    Conduit.queue_drop j.conduit t
  constructor
  case lined => exact h.lined.drop t
  case order =>
    show (j.returnedTickets ++ (j.act (.drop t)).conduit.queue).Sublist j.arrivals
    rw [hqueue]
    exact (List.filter_sublist.append_left j.returnedTickets).trans h.order
  case issued => exact h.issued
  case fresh_iff =>
    intro u s hs
    have hs' : (j.conduit.finish t).send? u = some s := hs
    rw [Conduit.send?_finish] at hs'
    split at hs'
    · simp at hs'
    · exact h.fresh_iff hs'
  case settled =>
    intro hopen u hu
    rw [hqueue]
    rcases h.settled hopen hu with hreturned | hwaits | hleft
    · exact Or.inl hreturned
    · by_cases heq : u = t
      · subst heq
        -- Who is in the queue is alive and was not returned.
        obtain ⟨s, hs, hstage⟩ := h.lined.mem_queue.1 hwaits
        refine Or.inr (Or.inr (hgone (by simp [hs]) fun hreturned => ?_))
        have htaken := (hsound.taken_iff hs).2 hreturned
        simp [htaken] at hstage
      · exact Or.inr (Or.inl (List.mem_filter.2 ⟨hwaits, by simpa using heq⟩))
    · exact Or.inr (Or.inr hleft)
  case missing => exact h.missing

/-- What the receiver takes goes over from the front of the queue to the end of what was
    returned. -/
theorem recv (h : Orderly withdrawn j) (hsound : j.Sound) : Orderly withdrawn j.recv := by
  have hqueue : j.conduit.queue = j.conduit.handing.map (·.1) ++ j.recv.conduit.queue :=
    Conduit.queue_recv j.conduit
  have hreturned : j.recv.returnedTickets
      = j.returnedTickets ++ j.conduit.handing.map (·.1) := List.map_append
  constructor
  case lined => exact h.lined.recv
  case order =>
    show (j.recv.returnedTickets ++ j.recv.conduit.queue).Sublist j.arrivals
    rw [hreturned, List.append_assoc, ← hqueue]
    exact h.order
  case issued =>
    intro u hu
    show u < j.conduit.recv.2.2.issued
    rw [Conduit.issued_recv]
    exact h.issued hu
  case fresh_iff =>
    intro u s hs
    obtain ⟨old, hold, hstage⟩ := hsound.conduit.of_send?_recv hs
    rw [hstage]
    exact h.fresh_iff hold
  case settled =>
    intro hopen u hu
    have hopen : j.conduit.closed = false := by rwa [← Conduit.closed_recv]
    have hwas := h.settled hopen hu
    rw [hqueue, List.mem_append] at hwas
    rw [hreturned, List.mem_append]
    rcases hwas with hwas | (hwas | hwas) | hwas
    · exact Or.inl (Or.inl hwas)
    · exact Or.inl (Or.inr hwas)
    · exact Or.inr (Or.inl hwas)
    · exact Or.inr (Or.inr hwas)
  case missing =>
    intro t u hu ht
    rw [hreturned, List.mem_append] at hu ⊢
    rcases hu with hu | hu
    · exact (h.missing hu ht).imp Or.inl id
    · -- Nobody in the queue has come before the one in front.
      have hopen : j.conduit.closed = false := by
        rw [← Bool.not_eq_true]
        intro hclosed
        rw [Conduit.handing_of_empty (hsound.conduit.slot_of_closed hclosed)] at hu
        exact absurd hu List.not_mem_nil
      rcases h.settled hopen (ht.subset List.mem_cons_self) with hwas | hwas | hwas
      · exact Or.inl (Or.inl hwas)
      · rw [hqueue, List.mem_append] at hwas
        rcases hwas with hwas | hwas
        · exact Or.inl (Or.inr hwas)
        · have hbehind : Precedes j.arrivals u t := by
            refine List.Sublist.trans ?_ h.order
            rw [hqueue]
            refine List.Sublist.trans ?_ (List.sublist_append_right _ _)
            exact (List.singleton_sublist.2 hu).append (List.singleton_sublist.2 hwas)
          exact absurd ht (hbehind.asymm j.nodup_arrivals)
      · exact Or.inr hwas

theorem close (h : Orderly withdrawn j) : Orderly withdrawn j.close where
  lined := Conduit.Lined.close j.conduit
  order := by
    show (j.returnedTickets ++ []).Sublist j.arrivals
    exact ((List.nil_sublist j.conduit.queue).append_left j.returnedTickets).trans h.order
  issued := h.issued
  fresh_iff := by
    intro t s hs
    obtain ⟨old, hold, rfl⟩ := Conduit.exists_of_send?_close hs
    refine Iff.trans ?_ (h.fresh_iff hold)
    split
    · next hwaits => rcases hwaits with hstage | hstage <;> simp [hstage]
    · rfl
  settled := fun hopen => absurd hopen (by simp [Journal.close, Conduit.close])
  missing := h.missing

/-- Every move but a drop keeps the invariant with the same sends withdrawn. -/
theorem step (h : Orderly withdrawn j) (hsound : j.Sound) {m : Move}
    (hdrop : ∀ t, m = .act (.drop t) → (j.conduit.send? t).isSome = true →
      t ∉ j.returnedTickets → withdrawn t) : Orderly withdrawn (j.step m) := by
  cases m with
  | act a =>
    cases a with
    | start event => exact h.start hsound event
    | poll t =>
      show Orderly withdrawn (j.act (.poll t))
      cases hs : j.conduit.send? t with
      | none => rwa [act_poll_of_absent hs]
      | some send =>
        by_cases hfresh : send.stage = .fresh
        · exact h.poll_first hsound hs hfresh
        · exact h.poll_again hsound hs hfresh
    | drop t => exact h.drop hsound (hdrop t rfl)
    | addSender =>
      exact ⟨⟨h.lined.nodup, h.lined.mem_queue⟩, h.order, h.issued, h.fresh_iff, h.settled,
        h.missing⟩
    | dropSender =>
      exact ⟨⟨h.lined.nodup, h.lined.mem_queue⟩, h.order, h.issued, h.fresh_iff, h.settled,
        h.missing⟩
  | recv => exact h.recv hsound
  | dropRecv => exact ⟨h.lined, h.order, h.issued, h.fresh_iff, h.settled, h.missing⟩
  | close => exact h.close

end Orderly

theorem orderly_run (moves : List Move) : Orderly (Withdrawn moves) (run moves) := by
  induction moves using List.reverseRecOn with
  | nil => exact orderly_new
  | append_singleton moves m ih =>
    rw [run_append]
    refine (ih.mono fun t ht => ht.append [m]).step (sound_run moves) ?_
    rintro t rfl halive hnot
    exact ⟨moves, [], rfl, halive, hnot⟩

/-! ## First come, first served -/

/-- Every ticket finds its own event among those that were started. -/
theorem Sound.started_getElem? (h : j.Sound) {p : Ticket × Event} (hp : p ∈ j.started) :
    j.started[p.1]? = some p := by
  obtain ⟨i, hi⟩ := List.mem_iff_getElem?.1 hp
  have hticket : (j.started.map (·.1))[i]? = some p.1 := by
    rw [List.getElem?_map, hi]
    rfl
  rw [h.started_tickets, List.getElem?_eq_some_iff] at hticket
  obtain ⟨_, hget⟩ := hticket
  rw [List.getElem_range] at hget
  rwa [← hget]

theorem Sound.returned_eq (h : j.Sound) :
    j.returned = j.returnedTickets.filterMap (j.started[·]?) := by
  rw [returnedTickets, List.filterMap_map]
  refine (List.filterMap_some.symm.trans (List.filterMap_congr fun p hp => ?_))
  exact (h.started_getElem? (h.started_of_returned hp)).symm

/-- While the receiver is there, in the queue is who has come, is alive, and was not returned. -/
theorem Orderly.mem_queue_iff {withdrawn : Ticket → Prop} (h : Orderly withdrawn j)
    (hsound : j.Sound) (hopen : j.conduit.closed = false) :
    t ∈ j.conduit.queue
      ↔ t ∈ j.arrivals ∧ (j.conduit.send? t).isSome = true ∧ t ∉ j.returnedTickets := by
  rw [h.lined.mem_queue]
  constructor
  · rintro ⟨s, hs, hstage⟩
    have hfresh : s.stage ≠ .fresh := by rcases hstage with hstage | hstage <;> simp [hstage]
    have htaken : s.stage ≠ .taken := by rcases hstage with hstage | hstage <;> simp [hstage]
    exact ⟨Decidable.not_not.1 (mt (h.fresh_iff hs).2 hfresh), by simp [hs],
      mt (hsound.taken_iff hs).2 htaken⟩
  · rintro ⟨hcame, halive, hnot⟩
    obtain ⟨s, hs⟩ := Option.isSome_iff_exists.1 halive
    refine ⟨s, hs, ?_⟩
    cases hstage : s.stage with
    | fresh => exact absurd hcame ((h.fresh_iff hs).1 hstage)
    | queued => exact Or.inl rfl
    | placed => exact Or.inr rfl
    | taken => exact absurd ((hsound.taken_iff hs).1 hstage) hnot
    | refused => exact absurd hstage (hsound.conduit.not_refused_of_open hopen hs)

/-- What a schedule says about the order in which events are returned. -/
structure FirstCome (moves : List Move) : Prop where
  /-- The events that were returned stand in the order of the first polls of their sends. -/
  order : (run moves).returned.Sublist (run moves).arrived
  /-- What is missing before one of them was withdrawn before it could be handed over, and what was
      withdrawn is missing. -/
  missing : ∀ t u, u ∈ (run moves).returnedTickets → Precedes (run moves).arrivals t u →
    (t ∉ (run moves).returnedTickets ↔ Withdrawn moves t)
  /-- A send that is alive and was not served is not overtaken by a later one. -/
  not_overtaken : ∀ t u, Precedes (run moves).arrivals t u →
    ((run moves).conduit.send? t).isSome = true → t ∉ (run moves).returnedTickets →
    u ∉ (run moves).returnedTickets
  /-- All who have come, are alive and were not served stand in the queue in the order in which they
      have come, whoever before them was dropped, and the receiver takes from its front. -/
  waiting : (run moves).conduit.closed = false → ∀ t, t ∈ (run moves).conduit.queue
    ↔ t ∈ (run moves).arrivals ∧ ((run moves).conduit.send? t).isSome = true
      ∧ t ∉ (run moves).returnedTickets
  queued : (run moves).conduit.queue.Sublist (run moves).arrivals
  dropped : ∀ t, (run (moves ++ [.act (.drop t)])).conduit.queue
    = (run moves).conduit.queue.filter (· ≠ t)
  front : ∀ t event, (t, event) ∈ (run moves).conduit.handing →
    (run moves).conduit.queue.head? = some t
  /-- A send that was granted the free slot finds it free whenever it is polled, as nobody else can
      put an event there. -/
  granted : ∀ t, (run moves).conduit.holdsPermit t = true →
    (∀ u, u ≠ t → ((run moves).conduit.poll u).2.slot = none)
      ∧ ∃ s, (run moves).conduit.send? t = some s
        ∧ ((run moves).conduit.poll t).2.slot = some (t, s.event)
  /-- Nor can anybody replace an event in the slot, even if its send is gone. -/
  held : ∀ entry, (run moves).conduit.slot = some entry → ∀ u,
    ((run moves).conduit.poll u).2.slot = some entry

/-- **First come, first served.** However sends are started, polled and dropped through any number
    of senders, and however the receiver is polled, events are returned in the order of the first
    polls of their sends, and only those that were dropped in time are left out. -/
theorem firstCome_run (moves : List Move) : FirstCome moves := by
  have hsound := sound_run moves
  have horder := orderly_run moves
  have hmissing : ∀ t u, u ∈ (run moves).returnedTickets → Precedes (run moves).arrivals t u →
      (t ∉ (run moves).returnedTickets ↔ Withdrawn moves t) := by
    intro t u hu ht
    exact ⟨(horder.missing hu ht).resolve_left, fun hleft => hleft.gone.not_returned⟩
  constructor
  case order =>
    rw [hsound.returned_eq]
    exact ((List.sublist_append_left _ _).trans horder.order).filterMap _
  case missing => exact hmissing
  case not_overtaken =>
    intro t u ht halive hnot hu
    have hgone := ((hmissing t u hu ht).1 hnot).gone
    rw [hgone.absent] at halive
    simp at halive
  case waiting => exact fun hopen _ => horder.mem_queue_iff hsound hopen
  case queued => exact (List.sublist_append_right _ _).trans horder.order
  case dropped =>
    intro t
    rw [run_append]
    exact Conduit.queue_drop _ t
  case front => exact fun _ _ hmem => Conduit.head?_queue_of_handing hmem
  case granted =>
    intro t hholds
    exact ⟨fun u hu => Conduit.slot_poll_of_granted hholds hu,
      horder.lined.exists_slot_of_granted hsound.conduit hholds⟩
  case held => exact fun _ hslot u => Conduit.slot_poll_of_full hslot u

/-- The first send is dropped while its event stands in the slot. When the receiver has passed over
    it, the second one is granted the slot, and the third one cannot take it, although it is polled
    first. -/
example :
    let j := run [.act (.start ⟨.add, []⟩), .act (.start ⟨.update, []⟩),
      .act (.start ⟨.delete, []⟩), .act (.poll 1), .act (.poll 0), .act (.poll 2),
      .act (.drop 1), .recv, .act (.poll 2), .recv, .act (.poll 0), .act (.poll 2), .recv]
    j.arrivals = [1, 0, 2] ∧ j.returned = [(0, ⟨.add, []⟩)] ∧ j.conduit.queue = [2] := by
  decide

end Journal

end KeyRelay
