import KeyRelay.Proofs.Reduction.Weighing

set_option autoImplicit false

/-! # Every revision is a fresh one

A ledger is fresh if its records carry revisions that were handed out, and no two keys share one
(`Ledger.Fresh`). An empty ledger is fresh, and whatever items are reduced, it stays so: an item
that is accepted brings a revision that nothing in the store has yet, and the only other one it may
carry is that of the record it replaces. What is reduced therefore never belongs to an object that
is younger than it, and the revisions that are told of only rise (`Fresh.applyItems`). -/

namespace KeyRelay

/-! ## Rising revisions -/

/-- Some of the revisions after `low` and up to `high`, each later than the one before. -/
structure Rising (low high : Revision) (revisions : List Revision) : Prop where
  le : low ≤ high
  ordered : revisions.Pairwise (· < ·)
  within : ∀ r ∈ revisions, low < r ∧ r ≤ high

namespace Rising

variable {low middle high : Revision} {early late : List Revision}

theorem nil (h : low ≤ high) : Rising low high [] := ⟨h, .nil, by simp⟩

theorem single (low : Revision) : Rising low (low + 1) [low + 1] where
  le := Int.le_of_lt (Int.lt_succ low)
  ordered := List.pairwise_singleton _ _
  within := by
    intro r hr
    obtain rfl := List.mem_singleton.1 hr
    exact ⟨Int.lt_succ low, Int.le_refl _⟩

theorem append (h : Rising low middle early) (hlate : Rising middle high late) :
    Rising low high (early ++ late) where
  le := Int.le_trans h.le hlate.le
  ordered := by
    refine List.pairwise_append.2 ⟨h.ordered, hlate.ordered, fun a ha b hb => ?_⟩
    exact Int.lt_of_le_of_lt (h.within a ha).2 (hlate.within b hb).1
  within := by
    intro r hr
    rcases List.mem_append.1 hr with hr | hr
    · exact ⟨(h.within r hr).1, Int.le_trans (h.within r hr).2 hlate.le⟩
    · exact ⟨Int.lt_of_le_of_lt h.le (hlate.within r hr).1, (hlate.within r hr).2⟩

theorem sublist (h : Rising low high late) (hsub : early.Sublist late) :
    Rising low high early :=
  ⟨h.le, h.ordered.sublist hsub, fun r hr => h.within r (hsub.subset hr)⟩

end Rising

/-! ## What is written carries the revision of its item -/

/-- What an item leaves was modified at its revision, and created then or when the record before it
    was. -/
theorem Record.successor_eq_some {kind : EventKind} {item : Item} {previous : Option Record}
    {revision : Revision} {record : Record}
    (h : Record.successor kind item previous revision = some record) :
    record.modifyRevision = revision ∧ (record.createRevision = revision
      ∨ ∃ p, previous = some p ∧ record.createRevision = p.createRevision) := by
  cases kind with
  | add =>
    obtain rfl := Option.some.inj h
    exact ⟨rfl, Or.inl rfl⟩
  | update =>
    cases previous with
    | none => simp [Record.successor] at h
    | some p =>
      obtain rfl := Option.some.inj h
      exact ⟨rfl, Or.inr ⟨p, rfl, rfl⟩⟩
  | delete => simp [Record.successor] at h

/-- A verdict is on an item with a key, and tells of the revision that the item has taken. -/
theorem Store.revision_weigh {s : Store} {kind : EventKind} {item : Item} {revision : Revision}
    {v : Verdict} (hv : s.weigh kind item revision = .ok v) :
    (∃ key, item.key? = some key) ∧ v.outcome.revision = revision
      ∧ ∀ c ∈ v.change?.toList, c.revision = revision := by
  obtain ⟨key, hon⟩ := on_weigh hv
  refine ⟨⟨key, hon.keyed⟩, by rw [hon.outcome], fun c hc => ?_⟩
  rw [Option.mem_toList, hon.change?] at hc
  exact (Change.of_broughtBy hc).2.2.1

namespace Ledger

/-! ## Fresh ledgers -/

/-- Every record carries revisions that were handed out, and shares neither of them with the record
    of another key. -/
structure Fresh (l : Ledger) : Prop where
  nonneg : 0 ≤ l.counter.current
  bounds : ∀ {key record}, l.store.get? key = some record →
    1 ≤ record.createRevision ∧ record.createRevision ≤ record.modifyRevision
      ∧ record.modifyRevision ≤ l.counter.current
  apart : ∀ {key other record record'}, key ≠ other →
    l.store.get? key = some record → l.store.get? other = some record' →
    record.createRevision ≠ record'.createRevision
      ∧ record.modifyRevision ≠ record'.modifyRevision

theorem fresh_empty : Fresh {} := ⟨Int.le_refl 0, by simp, by simp⟩

variable {l : Ledger}

theorem Fresh.upToDate (h : l.Fresh) : l.UpToDate := by
  intro key record hfound
  obtain ⟨-, hle, hmodified⟩ := h.bounds hfound
  exact Int.le_trans hle hmodified

/-- A revision that is taken for nothing leaves no trace in the store. -/
theorem Fresh.next (h : l.Fresh) : Fresh ⟨l.counter.next.2, l.store⟩ where
  nonneg := Int.le_trans h.nonneg (Int.le_of_lt (Int.lt_succ _))
  bounds := fun hfound => by
    obtain ⟨hone, hle, hmodified⟩ := h.bounds hfound
    exact ⟨hone, hle, Int.le_trans hmodified (Int.le_of_lt (Int.lt_succ _))⟩
  apart := h.apart

/-- A record that has taken the next revision, and keeps at most the creation of the one that stands
    under its key. -/
structure Renews (l : Ledger) (key : Key) (record : Record) : Prop where
  modified : record.modifyRevision = l.counter.current + 1
  created : record.createRevision = l.counter.current + 1
    ∨ ∃ p, l.store.get? key = some p ∧ record.createRevision = p.createRevision

variable {key other : Key} {record record' : Record}

theorem Renews.bounds (hnew : l.Renews key record) (h : l.Fresh) :
    1 ≤ record.createRevision ∧ record.createRevision ≤ record.modifyRevision
      ∧ record.modifyRevision ≤ l.counter.current + 1 := by
  refine ⟨?_, ?_, Int.le_of_eq hnew.modified⟩
  · rcases hnew.created with hcreated | ⟨p, hp, hcreated⟩
    · exact hcreated ▸ Int.le_add_of_nonneg_left h.nonneg
    · exact hcreated ▸ (h.bounds hp).1
  · rcases hnew.created with hcreated | ⟨p, hp, hcreated⟩
    · exact Int.le_of_eq (hcreated.trans hnew.modified.symm)
    · rw [hcreated, hnew.modified]
      exact h.upToDate.le_next hp

/-- It shares no revision with the record of another key: the next revision is later than all that
    are there, and the creation it may keep is not shared already. -/
theorem Renews.apart (hnew : l.Renews key record) (h : l.Fresh) (hne : key ≠ other)
    (hother : l.store.get? other = some record') :
    record.createRevision ≠ record'.createRevision
      ∧ record.modifyRevision ≠ record'.modifyRevision := by
  obtain ⟨-, hle, hlast⟩ := h.bounds hother
  have hlt : record'.modifyRevision < l.counter.current + 1 := Int.lt_add_one_of_le hlast
  refine ⟨?_, hnew.modified ▸ (Int.ne_of_lt hlt).symm⟩
  rcases hnew.created with hcreated | ⟨p, hp, hcreated⟩
  · exact hcreated ▸ (Int.ne_of_lt (Int.lt_of_le_of_lt hle hlt)).symm
  · rw [hcreated]
    exact (h.apart hne hp hother).1

/-- Such a record can take the place under its key, or nothing at all. -/
theorem Fresh.renew (h : l.Fresh) {s : Store} {left : Option Record}
    (hget : ∀ k, s.get? k = if key = k then left else l.store.get? k)
    (hleft : ∀ record, left = some record → l.Renews key record) :
    Fresh ⟨l.counter.next.2, s⟩ := by
  constructor
  case nonneg => exact h.next.nonneg
  case bounds =>
    intro k record hrecord
    rw [hget] at hrecord
    split at hrecord
    · exact (hleft record hrecord).bounds h
    · exact h.next.bounds hrecord
  case apart =>
    intro k other record record' hne hrecord hother
    rw [hget] at hrecord hother
    by_cases hk : key = k
    · subst hk
      rw [if_pos rfl] at hrecord
      rw [if_neg hne] at hother
      exact (hleft record hrecord).apart h hne hother
    · rw [if_neg hk] at hrecord
      by_cases hother' : key = other
      · subst hother'
        rw [if_pos rfl] at hother
        obtain ⟨hcreated, hmodified⟩ := (hleft record' hother).apart h hk hrecord
        exact ⟨hcreated.symm, hmodified.symm⟩
      · rw [if_neg hother'] at hother
        exact h.apart hne hrecord hother

/-! ## One item -/

theorem Fresh.weigh (h : l.Fresh) {kind : EventKind} {item : Item} {v : Verdict}
    (hv : l.store.weigh kind item (l.counter.current + 1) = .ok v) :
    Fresh ⟨l.counter.next.2, v.store⟩ := by
  obtain ⟨key, hon⟩ := Store.on_weigh hv
  refine h.renew hon.found fun record hrecord => ?_
  obtain ⟨hmodified, hcreated⟩ := Record.successor_eq_some hrecord
  exact ⟨hmodified, hcreated⟩

/-- Where the ledger is fresh, only an item without a key can crash. -/
theorem UpToDate.weigh_error (h : l.UpToDate) {kind : EventKind} {item : Item} {crash : Crash}
    (hcrash : l.store.weigh kind item (l.counter.current + 1) = .error crash) :
    crash = .keyless ∧ item.key? = none := by
  cases hkey : item.key? with
  | some key =>
    have hkeyed : item.key?.isSome = true := by simp [hkey]
    obtain ⟨v, hv, -⟩ := h.weigh kind hkeyed
    rw [hv] at hcrash
    simp at hcrash
  | none =>
    have hweigh := Store.weighing_weigh l.store kind item (l.counter.current + 1)
    rw [hcrash] at hweigh
    cases hweigh with
    | keyless _ => exact ⟨rfl, rfl⟩
    | regressed hkey' _ _ _ => simp [hkey] at hkey'

/-! ## Items one after the other -/

/-- Some items of a fresh ledger were reduced: it is fresh again, what is told of carries rising
    revisions that were handed out in between, and a crash is due to an item without a key. -/
structure Advances (l : Ledger) (items : List Item) (report : Report) (l' : Ledger) : Prop where
  fresh : l'.Fresh
  outcomes : Rising l.counter.current l'.counter.current (report.outcomes.map (·.revision))
  changes : (report.changes.map Change.revision).Sublist (report.outcomes.map (·.revision))
  crash : ∀ crash, report.crash? = some crash →
    crash = .keyless ∧ ∃ item ∈ items, item.key? = none

/-- The revisions of the changes are revisions of the outcomes. -/
theorem sublist_revisions_after {v : Verdict} {report : Report}
    (hv : ∀ c ∈ v.change?.toList, c.revision = v.outcome.revision)
    (h : (report.changes.map Change.revision).Sublist (report.outcomes.map (·.revision))) :
    ((report.after v).changes.map Change.revision).Sublist
      ((report.after v).outcomes.map (·.revision)) := by
  unfold Report.after
  cases hchange : v.change? with
  | none => exact h.cons _
  | some c =>
    have hc : c.revision = v.outcome.revision := hv c (by simp [hchange])
    simp only [Option.toList_some, List.singleton_append, List.map_cons, hc]
    exact h.cons_cons _

theorem Fresh.applyItems (h : l.Fresh) (kind : EventKind) (items : List Item) :
    Advances l items (applyItems kind items l).1 (applyItems kind items l).2 := by
  induction items generalizing l with
  | nil => exact ⟨h, .nil (Int.le_refl _), .slnil, by simp [Ledger.applyItems]⟩
  | cons item rest ih =>
    cases hweigh : l.store.weigh kind item (l.counter.current + 1) with
    | error crash =>
      -- The item has taken its revision, and nothing is told of it.
      rw [applyItems_of_error hweigh]
      obtain ⟨rfl, hnone⟩ := h.upToDate.weigh_error hweigh
      refine ⟨h.next, .nil (Int.le_of_lt (Int.lt_succ _)), .slnil, fun crash hcrash => ?_⟩
      exact ⟨(Option.some.inj hcrash).symm, item, List.mem_cons_self, hnone⟩
    | ok v =>
      rw [applyItems_of_ok hweigh]
      obtain ⟨-, hrevision, hchange⟩ := Store.revision_weigh hweigh
      have hrest := ih (h.weigh hweigh)
      constructor
      case fresh => exact hrest.fresh
      case outcomes =>
        have hfirst := (Rising.single l.counter.current).append hrest.outcomes
        rw [← hrevision] at hfirst
        exact hfirst
      case changes =>
        exact sublist_revisions_after (fun c hc => (hchange c hc).trans hrevision.symm)
          hrest.changes
      case crash =>
        intro crash hcrash
        obtain ⟨hkeyless, i, hi, hnone⟩ := hrest.crash crash hcrash
        exact ⟨hkeyless, i, List.mem_cons_of_mem _ hi, hnone⟩

theorem Fresh.apply (h : l.Fresh) (event : Event) :
    Advances l event.items (l.apply event).1 (l.apply event).2 := by
  obtain ⟨hfresh, houtcomes, hchanges, hcrash⟩ := h.applyItems event.kind event.items
  exact ⟨hfresh, houtcomes, hchanges, hcrash⟩

/-- The revisions that items take rise from event to event. -/
theorem Fresh.applyAll (h : l.Fresh) (events : List Event) :
    (applyAll events l).2.Fresh
      ∧ Rising l.counter.current (applyAll events l).2.counter.current
        (((applyAll events l).1.flatMap (·.outcomes)).map (·.revision)) := by
  induction events generalizing l with
  | nil => exact ⟨h, .nil (Int.le_refl _)⟩
  | cons event rest ih =>
    have hfirst := h.apply event
    obtain ⟨hfresh, hrising⟩ := ih hfirst.fresh
    refine ⟨hfresh, ?_⟩
    simp only [Ledger.applyAll, List.flatMap_cons, List.map_append]
    exact hfirst.outcomes.append hrising

end Ledger

end KeyRelay
