import KeyRelay.Proofs.Assembly.Steps

set_option autoImplicit false

/-! # Reducers that share a counter

Where all reducers take their revisions from one counter, this counter and the store are one ledger
that they all work on. A command that makes no record past them leaves this ledger alone, takes a
revision from it, or lets one reducer apply one event to it (`Assembly.turn_step`). -/

namespace KeyRelay

namespace Assembly

/-- All reducers take their revisions from this counter. -/
structure Shares (k : Nat) (a : Assembly) : Prop where
  exists_counter : k < a.counters.length
  counter_eq : ∀ reducer, a.Employs reducer → reducer.counter = k

/-- What reducers with this counter work on. -/
def shared (a : Assembly) (k : Nat) : Ledger := ⟨a.counter k, a.store⟩

/-- What a step comes to where reducers share a counter. -/
inductive Turn (k : Nat) (a : Assembly) (reduces : Bool) (events : List Event) (e : Effect) : Prop
  | rests (hledger : e.after.shared k = a.shared k) (houtcomes : e.reply.listed = [])
      (hchanges : e.changes = []) (hcrash : reduces = true → ∀ crash, e.reply ≠ .crashed crash) :
      Turn k a reduces events e
  | counts (hledger : e.after.shared k = ⟨(a.shared k).counter.next.2, a.store⟩)
      (houtcomes : e.reply.listed = []) (hchanges : e.changes = []) (hreduces : reduces = false) :
      Turn k a reduces events e
  | applies {reducer : Reducer} {event : Event} (hemployed : a.Employs reducer)
      (hevents : events = [event]) (hledger : e.after.shared k = ((a.shared k).apply event).2)
      (houtcomes : e.reply.listed = []
        ∨ e.reply.listed = ((a.shared k).apply event).1.outcomes)
      (hchanges : e.changes = reported reducer ((a.shared k).apply event).1.changes)
      (hcrash : ∀ crash, e.reply = .crashed crash →
        ((a.shared k).apply event).1.crash? = some crash) :
      Turn k a reduces events e

variable {a b : Assembly} {k : Nat}

theorem Shares.of_retains (h : a.Shares k) (hb : Retains a b) : b.Shares k :=
  ⟨hb.length_counters ▸ h.exists_counter, fun r hr => h.counter_eq r (hb.employs r hr)⟩

theorem Shares.ledger_eq (h : a.Shares k) {reducer : Reducer} (hemployed : a.Employs reducer) :
    a.ledger reducer = a.shared k := by
  obtain rfl := h.counter_eq reducer hemployed
  rfl

/-- A counter that was put in the place of the shared one is shared from then on. -/
theorem Shares.shared_set (h : a.Shares k) {c : Counter}
    (hcounters : b.counters = a.counters.set k c) : b.shared k = ⟨c, b.store⟩ := by
  simp [shared, counter, hcounters, h.exists_counter]

theorem Doing.turn {reduces feeds : Bool} {events : List Event} {e : Effect}
    (h : Doing a reduces feeds events e) (hshares : a.Shares k) :
    Turn k a reduces events e := by
  cases h with
  | rests hcounters hstore _ houtcomes hchanges hcrash =>
    refine .rests ?_ houtcomes hchanges hcrash
    simp only [shared, counter, hcounters, hstore]
  | @counts number hcounters hstore _ houtcomes hchanges hreduces =>
    by_cases hk : number = k
    · subst hk
      refine .counts ?_ houtcomes hchanges hreduces
      rw [hshares.shared_set hcounters, hstore]
      rfl
    · -- The revision comes from another counter.
      refine .rests ?_ houtcomes hchanges (by simp [hreduces])
      simp [shared, counter, hcounters, hstore, hk]
  | applies hemployed hevents hcounters hstore _ houtcomes hchanges hcrash =>
    have hledger := hshares.ledger_eq hemployed
    rw [hledger] at hcounters hstore houtcomes hchanges hcrash
    rw [hshares.counter_eq _ hemployed] at hcounters
    refine .applies hemployed hevents ?_ houtcomes hchanges hcrash
    rw [hshares.shared_set hcounters, hstore]

/-- Whatever command is carried out, without a record from a draft: the counter stays shared, and
    the shared ledger is left alone or moved on by a revision or an event. -/
theorem turn_step (h : a.Shares k) {command : Command} (hdraft : command.isDraft = false) :
    Retains a (a.step command).after
      ∧ Turn k a command.reduces (a.eventsOf command) (a.step command) := by
  obtain ⟨hretains, hdoing⟩ := doing_step a hdraft
  exact ⟨hretains, hdoing.turn h⟩

end Assembly

end KeyRelay
