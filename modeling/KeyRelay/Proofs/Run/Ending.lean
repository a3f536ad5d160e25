import KeyRelay.Proofs.Run.Refinement

set_option autoImplicit false

/-! # A run that has ended

A run that has stopped or crashed applies nothing more, whatever is done to it and to its conduit
(`Run.Course.Halted`). It crashes exactly when an event that it has applied does
(`Run.Course.crashed_iff_run`). -/

namespace KeyRelay.Run

/-! ## Crashes -/

theorem status_reduce_of_crash {event : Event} {l : Ledger} {crash : Crash}
    (h : (l.apply event).1.crash? = some crash) (c : Conduit) :
    (reduce event c l).status = .crashed crash := by
  simp only [reduce, h]

/-- A poll that takes an event reduces it, and nothing but notes comes before. -/
theorem exists_poll_eq_reduce (started : Bool) {cancelled : Bool} {c : Conduit} {t : Ticket}
    {event : Event} (htaking : taking cancelled c = [(t, event)]) (l : Ledger) :
    ∃ entries d, poll started cancelled c l = (reduce event d l).noting entries := by
  cases cancelled with
  | true => simp [taking] at htaking
  | false =>
    -- Only an event whose send is alive is taken.
    have hreceiving := Conduit.receiving_recv c
    have hrecv : c.recv = (c.recv.1, c.recv.2.1, c.recv.2.2) := rfl
    generalize c.recv.1 = receipt at hreceiving hrecv
    generalize c.recv.2.1 = entries at hreceiving hrecv
    generalize c.recv.2.2 = d at hreceiving hrecv
    cases hreceiving with
    | empty hslot => simp [taking, Conduit.handing_of_empty hslot] at htaking
    | passed hslot hs => simp [taking, Conduit.handing_of_absent hslot hs] at htaking
    | taken hslot hs =>
      have halive := (Conduit.handing_of_alive hslot hs).symm.trans htaking
      obtain ⟨rfl, rfl⟩ := Prod.mk.inj (List.singleton_inj.1 halive)
      have hwork : poll started false c l = (work c l).noting _ := rfl
      rw [work_of_event hrecv, Progress.noting_noting] at hwork
      exact ⟨_, _, hwork⟩

/-- A run crashes with the event that it takes. -/
theorem status_poll_of_crash (started cancelled : Bool) (c : Conduit) (l : Ledger)
    {report : Report} {crash : Crash}
    (hmem : report ∈ (Ledger.applyAll ((taking cancelled c).map (·.2)) l).1)
    (hcrash : report.crash? = some crash) :
    (poll started cancelled c l).status = .crashed crash := by
  rcases taking_eq_nil_or_singleton cancelled c with htaking | ⟨t, event, htaking⟩
  · simp [htaking, Ledger.applyAll] at hmem
  · rw [htaking] at hmem
    obtain rfl : report = (l.apply event).1 := List.mem_singleton.1 hmem
    obtain ⟨entries, d, hpoll⟩ := exists_poll_eq_reduce started htaking l
    rw [hpoll, Progress.status_noting]
    exact status_reduce_of_crash hcrash d

/-- What is noted on an event that is taken stands together in the log. -/
theorem entries_poll_of_taking (started : Bool) {cancelled : Bool} {c : Conduit} {t : Ticket}
    {event : Event} (htaking : taking cancelled c = [(t, event)]) (l : Ledger) :
    (l.apply event).1.entries <:+: (poll started cancelled c l).entries := by
  obtain ⟨entries, d, hpoll⟩ := exists_poll_eq_reduce started htaking l
  rw [hpoll]
  exact ⟨entries, _, List.append_assoc entries _ _⟩

namespace Course

variable {l : Ledger} {r : Course}

/-- Every crash of an event that was handed over is a crash of the run. -/
def Admits (l : Ledger) (r : Course) : Prop :=
  ∀ report ∈ (Ledger.applyAll r.handed l).1, ∀ crash, report.crash? = some crash →
    r.status = .crashed crash

theorem admits_new (l : Ledger) : Admits l { ledger := l } := by
  intro report hmem
  simp [Course.handed, Ledger.applyAll] at hmem

theorem Admits.poll (h : Admits l r) (hsound : Sound l r) : Admits l r.poll := by
  unfold Course.poll
  split
  · next hrunning =>
      intro report hmem crash hcrash
      rw [handed_after, Ledger.applyAll_append, ← hsound.ledger] at hmem
      rcases List.mem_append.1 hmem with hmem | hmem
      · -- The run goes on, so nothing has crashed before.
        have := h report hmem crash hcrash
        rw [hrunning] at this
        simp at this
      · exact status_poll_of_crash r.started r.cancelled _ _ hmem hcrash
  · exact h

theorem Admits.step (h : Admits l r) (hsound : Sound l r) (m : Move) : Admits l (r.step m) := by
  cases m with
  | act a =>
    have hhanded : (r.step (.act a)).handed = r.handed := by
      show (r.journal.act a).returned.map (·.2) = r.journal.returned.map (·.2)
      rw [Journal.returned_act]
    intro report hmem
    rw [hhanded] at hmem
    exact h report hmem
  | poll => exact h.poll hsound
  | cancel => exact h

theorem Admits.follow (h : Admits l r) (hsound : Sound l r) (moves : List Move) :
    Admits l (r.follow moves) := by
  induction moves generalizing r with
  | nil => exact h
  | cons m rest ih => exact ih (h.step hsound m) (hsound.step m)

/-- Unless the run has crashed, what was handed over to it was applied in full. -/
theorem Admits.in_full (h : Admits l r) (hnot : ∀ crash, r.status ≠ .crashed crash) :
    List.Forall₂
      (fun report event => report.crash? = none ∧ report.outcomes.length = event.items.length)
      (Ledger.applyAll r.handed l).1 r.handed := by
  have hnone : ∀ report ∈ (Ledger.applyAll r.handed l).1, report.crash? = none := by
    intro report hmem
    cases hcrash : report.crash? with
    | none => rfl
    | some crash => exact absurd (h report hmem crash hcrash) (hnot crash)
  refine ((List.forall₂_and_left _ _).2 ⟨hnone, Ledger.forall₂_applyAll r.handed l⟩).imp ?_
  rintro report event ⟨hcrash, hlength⟩
  exact ⟨hcrash, hlength hcrash⟩

/-- A run has crashed if and only if an event that was handed over to it has. -/
theorem crashed_iff_run (l : Ledger) (moves : List Move) (crash : Crash) :
    (run l moves).status = .crashed crash
      ↔ ∃ report ∈ (Ledger.applyAll (run l moves).handed l).1, report.crash? = some crash := by
  have hadmits : Admits l (run l moves) := (admits_new l).follow (sound_new l) moves
  constructor
  · exact (sound_run l moves).crashed crash
  · rintro ⟨report, hmem, hcrash⟩
    exact hadmits report hmem crash hcrash

/-! ## Nothing comes after the end -/

/-- A run that had ended, and what has become of it since: nothing. -/
structure Halted (r s : Course) : Prop where
  status : s.status = r.status
  ledger : s.ledger = r.ledger
  published : s.published = r.published
  returned : s.journal.returned = r.journal.returned

theorem Halted.refl (r : Course) : Halted r r := ⟨rfl, rfl, rfl, rfl⟩

theorem Halted.step {s : Course} (h : Halted r s) (hended : r.status ≠ .running) (m : Move) :
    Halted r (s.step m) := by
  cases m with
  | act a =>
    exact ⟨h.status, h.ledger, h.published, (Journal.returned_act s.journal a).trans h.returned⟩
  | poll =>
    have hsame : s.step .poll = s := if_neg (h.status.trans_ne hended)
    rw [hsame]
    exact h
  | cancel => exact ⟨h.status, h.ledger, h.published, h.returned⟩

theorem Halted.follow {s : Course} (h : Halted r s) (hended : r.status ≠ .running)
    (moves : List Move) : Halted r (s.follow moves) := by
  induction moves generalizing s with
  | nil => exact h
  | cons m rest ih => exact ih (h.step hended m)

end Course

end KeyRelay.Run
