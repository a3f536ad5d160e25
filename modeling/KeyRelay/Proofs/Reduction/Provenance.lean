import KeyRelay.Proofs.Reduction.Weighing

set_option autoImplicit false

/-! # Where records come from

A record is made as a first version, or from a record that was made before it and is not younger
than the revision that it takes. So it was never created after it was modified, and nothing else is
known of it (`Record.made_iff`): revisions may have come from anywhere. Reduction makes records in
this way only, and stores each of them under its own key (`Ledger.made_apply`). -/

namespace KeyRelay

/-- A record as it can be made. -/
inductive Record.Made : Record → Prop where
  | created (item : Item) (revision : Revision) : Made (.created item revision)
  | modified {item : Item} {previous record : Record} {revision : Revision}
      (hprevious : Made previous) (hrecord : Record.modified item previous revision = .ok record) :
      Made record

namespace Record

theorem modified_eq_ok_iff {item : Item} {previous record : Record} {revision : Revision} :
    modified item previous revision = .ok record
      ↔ previous.createRevision ≤ revision ∧ record = ⟨item, previous.createRevision, revision⟩ := by
  unfold modified
  split
  · next hle => simp [hle, eq_comm]
  · next hnot => simp [hnot]

/-- What can be made are the records that were not created after they were modified. -/
theorem made_iff {r : Record} : r.Made ↔ r.createRevision ≤ r.modifyRevision := by
  constructor
  · intro h
    cases h with
    | created item revision => exact Int.le_refl revision
    | modified _ hrecord =>
      obtain ⟨hle, rfl⟩ := modified_eq_ok_iff.1 hrecord
      exact hle
  · intro hle
    -- It is made from a first version of its own.
    exact .modified (.created r.item r.createRevision) (modified_eq_ok_iff.2 ⟨hle, rfl⟩)

theorem Made.renew {previous : Record} (h : previous.Made) (item : Item) {revision : Revision}
    (hle : previous.createRevision ≤ revision) :
    Made ⟨item, previous.createRevision, revision⟩ :=
  .modified h (modified_eq_ok_iff.2 ⟨hle, rfl⟩)

instance (r : Record) : Decidable r.Made := decidable_of_iff _ made_iff.symm

end Record

/-- The record of a change, and the one before it if there is one. -/
def Change.records (c : Change) : List Record := c.record :: c.previous.toList

/-- A change that tells of records as they can be made. -/
def Change.Made (c : Change) : Prop := ∀ r ∈ c.records, r.Made

instance (c : Change) : Decidable c.Made := List.decidableBAll _ _

theorem Change.made_put {record : Record} {previous : Option Record} (hrecord : record.Made)
    (hprevious : ∀ p, previous = some p → p.Made) : (Change.put record previous).Made := by
  intro r hr
  rcases List.mem_cons.1 hr with rfl | hr
  · exact hrecord
  · exact hprevious r (Option.mem_toList.1 hr)

theorem Change.made_delete {tombstone previous : Record} (htombstone : tombstone.Made)
    (hprevious : previous.Made) : (Change.delete tombstone previous).Made := by
  intro r hr
  rcases List.mem_cons.1 hr with rfl | hr
  · exact htombstone
  · obtain rfl := List.mem_singleton.1 hr
    exact hprevious

/-! ## Stores -/

namespace Store

/-- Every record was made, and stands under its own key. -/
def Made (s : Store) : Prop := ∀ e ∈ s.entries, e.2.Made ∧ e.2.key? = some e.1

variable {s : Store} {key : Key} {record : Record}

theorem made_empty : Made {} := by simp [Made]

theorem mem_entries_of_get? (h : s.get? key = some record) : (key, record) ∈ s.entries := by
  obtain ⟨e, hfound, rfl⟩ := Option.map_eq_some_iff.1 h
  obtain rfl : e.1 = key := by simpa using List.find?_some hfound
  exact List.mem_of_find?_eq_some hfound

theorem Made.get? (h : s.Made) (hfound : s.get? key = some record) : record.Made :=
  (h _ (mem_entries_of_get? hfound)).1

theorem Made.insert (h : s.Made) (hrecord : record.Made) (hkey : record.key? = some key) :
    (s.insert key record).Made := by
  intro e he
  rcases mem_insertEntry he with rfl | he
  · exact ⟨hrecord, hkey⟩
  · exact h e he

theorem Made.erase (h : s.Made) (key : Key) : (s.erase key).Made :=
  fun e he => h e (List.mem_filter.1 he).1

/-- What is weighed leaves records that were made, and tells of such records. -/
theorem Made.weigh (h : s.Made) {kind : EventKind} {item : Item} {revision : Revision}
    {v : Verdict} (hv : s.weigh kind item revision = .ok v) :
    v.store.Made ∧ ∀ c ∈ v.change?.toList, c.Made := by
  have hweigh := weighing_weigh s kind item revision
  rw [hv] at hweigh
  have htold : ∀ {change : Change}, change.Made → ∀ c ∈ (some change).toList, c.Made := by
    intro change hchange c hc
    obtain rfl := List.mem_singleton.1 hc
    exact hchange
  cases hweigh with
  | added hkey =>
    have hrecord := Record.Made.created item revision
    exact ⟨h.insert hrecord hkey, htold (Change.made_put hrecord fun p hp => h.get? hp)⟩
  | updated hkey hfound hle =>
    have hrecord := (h.get? hfound).renew item hle
    refine ⟨h.insert hrecord hkey, htold (Change.made_put hrecord fun p hp => ?_)⟩
    obtain rfl := Option.some.inj hp
    exact h.get? hfound
  | deleted hkey hfound hle =>
    have hrecord := (h.get? hfound).renew item hle
    exact ⟨h.erase _, htold (Change.made_delete hrecord (h.get? hfound))⟩
  | absent _ _ _ => exact ⟨h, by simp⟩

end Store

/-! ## Reduction -/

namespace Ledger

theorem made_applyItems (kind : EventKind) (items : List Item) {l : Ledger} (h : l.store.Made) :
    (applyItems kind items l).2.store.Made
      ∧ ∀ c ∈ (applyItems kind items l).1.changes, c.Made := by
  induction items generalizing l with
  | nil => exact ⟨h, by simp [applyItems]⟩
  | cons item rest ih =>
    cases hweigh : l.store.weigh kind item (l.counter.current + 1) with
    | error crash =>
      rw [applyItems_of_error hweigh]
      exact ⟨h, by simp⟩
    | ok v =>
      rw [applyItems_of_ok hweigh]
      obtain ⟨hstore, hchange⟩ := h.weigh hweigh
      obtain ⟨hlast, hchanges⟩ := ih (l := ⟨⟨l.counter.current + 1⟩, v.store⟩) hstore
      refine ⟨hlast, fun c hc => ?_⟩
      rcases List.mem_append.1 hc with hc | hc
      · exact hchange c hc
      · exact hchanges c hc

/-- What an event leaves and tells of was made. -/
theorem made_apply {l : Ledger} (h : l.store.Made) (event : Event) :
    (l.apply event).2.store.Made ∧ ∀ c ∈ (l.apply event).1.changes, c.Made :=
  made_applyItems event.kind event.items h

end Ledger

end KeyRelay
