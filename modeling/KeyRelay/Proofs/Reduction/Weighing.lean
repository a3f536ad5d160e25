import Mathlib.Tactic.Common
import KeyRelay.Proofs.Store
import KeyRelay.Reduction

set_option autoImplicit false

/-! # What one item comes to

`Store.Weighing` lists the six ways in which an item that has taken a revision can be weighed
against a store, with everything that follows in each of them. All facts about reduction are
derived from it; nothing else looks into `Store.weigh`.

A verdict is known from its item, from the revision that the item has taken and from what the store
held under the key of the item (`Verdict.On`). Where every cached object was created at an earlier
revision, there is a verdict on every item with a key (`Store.weigh_keyed`). -/

namespace KeyRelay

namespace Verdict

variable (kind : EventKind) (key : Key) (revision : Revision) (change : Change) (entry : LogEntry)
  (store : Store)

@[simp]
theorem outcome_accept : (accept key revision change entry store).outcome
    = ⟨true, key, revision⟩ := rfl

@[simp]
theorem change?_accept : (accept key revision change entry store).change? = some change := rfl

@[simp]
theorem entry_accept : (accept key revision change entry store).entry = entry := rfl

@[simp]
theorem store_accept : (accept key revision change entry store).store = store := rfl

@[simp]
theorem outcome_reject : (reject kind key revision store).outcome = ⟨false, key, revision⟩ := rfl

@[simp]
theorem change?_reject : (reject kind key revision store).change? = none := rfl

@[simp]
theorem store_reject : (reject kind key revision store).store = store := rfl

end Verdict

namespace Store

/-- How an item that has taken `revision` fares against a store. -/
inductive Weighing (s : Store) (item : Item) (revision : Revision) :
    EventKind → Except Crash Verdict → Prop where
  | keyless {kind : EventKind} (hkey : item.key? = none) :
      Weighing s item revision kind (.error .keyless)
  | added {key : Key} (hkey : item.key? = some key) :
      Weighing s item revision .add
        (.ok (.accept key revision (.put (.created item revision) (s.get? key))
          (.applied .add key revision revision (some item))
          (s.insert key (.created item revision))))
  | updated {key : Key} {previous : Record} (hkey : item.key? = some key)
      (hfound : s.get? key = some previous) (hle : previous.createRevision ≤ revision) :
      Weighing s item revision .update
        (.ok (.accept key revision
          (.put ⟨item, previous.createRevision, revision⟩ (some previous))
          (.applied .update key previous.createRevision revision (some item))
          (s.insert key ⟨item, previous.createRevision, revision⟩)))
  | deleted {key : Key} {previous : Record} (hkey : item.key? = some key)
      (hfound : s.get? key = some previous) (hle : previous.createRevision ≤ revision) :
      Weighing s item revision .delete
        (.ok (.accept key revision
          (.delete ⟨item, previous.createRevision, revision⟩ previous)
          (.applied .delete key previous.createRevision revision none) (s.erase key)))
  | absent {kind : EventKind} {key : Key} (hkey : item.key? = some key) (hkind : kind ≠ .add)
      (hnone : s.get? key = none) :
      Weighing s item revision kind (.ok (.reject kind key revision s))
  | regressed {kind : EventKind} {key : Key} {previous : Record} (hkey : item.key? = some key)
      (hkind : kind ≠ .add) (hfound : s.get? key = some previous)
      (hlt : revision < previous.createRevision) :
      Weighing s item revision kind (.error .revisionRegressed)

theorem weighing_weigh (s : Store) (kind : EventKind) (item : Item) (revision : Revision) :
    Weighing s item revision kind (s.weigh kind item revision) := by
  cases hkey : item.key? with
  | none =>
    simp only [weigh, hkey]
    exact .keyless hkey
  | some key =>
    cases kind with
    | add =>
      simp only [weigh, hkey]
      exact .added hkey
    | update =>
      cases hfound : s.get? key with
      | none =>
        simp only [weigh, hkey, hfound]
        exact .absent hkey (by decide) hfound
      | some previous =>
        by_cases hle : previous.createRevision ≤ revision
        · simp only [weigh, hkey, hfound, Record.modified, if_pos hle]
          exact .updated hkey hfound hle
        · simp only [weigh, hkey, hfound, Record.modified, if_neg hle]
          exact .regressed hkey (by decide) hfound (Int.not_le.1 hle)
    | delete =>
      cases hfound : s.get? key with
      | none =>
        simp only [weigh, hkey, hfound]
        exact .absent hkey (by decide) hfound
      | some previous =>
        by_cases hle : previous.createRevision ≤ revision
        · simp only [weigh, hkey, hfound, Record.modified, if_pos hle]
          exact .deleted hkey hfound hle
        · simp only [weigh, hkey, hfound, Record.modified, if_neg hle]
          exact .regressed hkey (by decide) hfound (Int.not_le.1 hle)

/-- There is one way only in which it fares. -/
theorem Weighing.weigh_eq {s : Store} {kind : EventKind} {item : Item} {revision : Revision}
    {w : Except Crash Verdict} (h : Weighing s item revision kind w) :
    s.weigh kind item revision = w := by
  cases h with
  | keyless hkey => simp only [weigh, hkey]
  | added hkey =>
    simp only [weigh, hkey]
    rfl
  | updated hkey hfound hle =>
    simp only [weigh, hkey, hfound, Record.modified, if_pos hle]
    rfl
  | deleted hkey hfound hle =>
    simp only [weigh, hkey, hfound, Record.modified, if_pos hle]
    rfl
  | absent hkey hkind hnone =>
    cases kind with
    | add => exact absurd rfl hkind
    | update | delete => simp only [weigh, hkey, hnone]
  | regressed hkey hkind hfound hlt =>
    have hnot := Int.not_le.2 hlt
    cases kind with
    | add => exact absurd rfl hkind
    | update | delete =>
      simp only [weigh, hkey, hfound, Record.modified, if_neg hnot]
      rfl

end Store

/-! ## What a verdict tells -/

/-- What is found under the key of an item after the item was weighed, when `previous` was found
    there before. -/
def Record.successor (kind : EventKind) (item : Item) (previous : Option Record)
    (revision : Revision) : Option Record :=
  match kind, previous with
  | .add, _ => some (.created item revision)
  | .update, some previous => some ⟨item, previous.createRevision, revision⟩
  | .update, none | .delete, _ => none

/-- The change that an item brings which has taken `revision`, when `previous` was found under its
    key. -/
def Change.broughtBy (kind : EventKind) (item : Item) (previous : Option Record)
    (revision : Revision) : Option Change :=
  match kind, previous with
  | .add, previous => some (.put (.created item revision) previous)
  | .update, some previous => some (.put ⟨item, previous.createRevision, revision⟩ (some previous))
  | .delete, some previous => some (.delete ⟨item, previous.createRevision, revision⟩ previous)
  | .update, none | .delete, none => none

/-- What an event of this kind does to the key of an item that is applied. -/
def EventKind.brings : EventKind → ChangeKind
  | .add | .update => .put
  | .delete => .delete

/-- What a change tells of the item that has brought it, and of what was there before. -/
theorem Change.of_broughtBy {kind : EventKind} {item : Item} {previous : Option Record}
    {revision : Revision} {c : Change} (h : broughtBy kind item previous revision = some c) :
    c.kind = kind.brings ∧ c.record.item = item ∧ c.revision = revision
      ∧ c.previous = previous := by
  cases kind <;> cases previous <;> simp only [broughtBy, reduceCtorEq, Option.some.injEq] at h
  all_goals
    subst h
    exact ⟨rfl, rfl, rfl, rfl⟩

/-- There is a change if there is something to update or to delete, and for every add. -/
theorem Change.isSome_broughtBy (kind : EventKind) (item : Item) (previous : Option Record)
    (revision : Revision) :
    (broughtBy kind item previous revision).isSome
      = decide (kind = .add ∨ previous.isSome = true) := by
  cases kind <;> cases previous <;> simp [broughtBy]

/-- The note on an item that has taken `revision`: it agrees with the record of the change if there
    is one. -/
def LogEntry.on (kind : EventKind) (key : Key) (revision : Revision) : Option Change → LogEntry
  | some change =>
      .applied kind key change.record.createRevision change.record.modifyRevision
        (if kind = .delete then none else some change.record.item)
  | none => .ignored kind key revision

/-- A verdict on an item that has this key and has taken this revision. -/
structure Verdict.On (v : Verdict) (s : Store) (kind : EventKind) (item : Item) (key : Key)
    (revision : Revision) : Prop where
  keyed : item.key? = some key
  outcome : v.outcome = ⟨decide (kind = .add ∨ (s.get? key).isSome = true), key, revision⟩
  change? : v.change? = Change.broughtBy kind item (s.get? key) revision
  entry : v.entry = .on kind key revision v.change?
  found : ∀ k, v.store.get? k
    = if key = k then Record.successor kind item (s.get? key) revision else s.get? k

/-- An item is applied exactly if it brings a change. -/
theorem Verdict.On.applied {v : Verdict} {s : Store} {kind : EventKind} {item : Item} {key : Key}
    {revision : Revision} (h : v.On s kind item key revision) :
    v.outcome.applied = v.change?.isSome := by
  rw [h.outcome, h.change?, Change.isSome_broughtBy]

theorem Store.on_weigh {s : Store} {kind : EventKind} {item : Item} {revision : Revision}
    {v : Verdict} (hv : s.weigh kind item revision = .ok v) :
    ∃ key, v.On s kind item key revision := by
  have hweigh := weighing_weigh s kind item revision
  rw [hv] at hweigh
  cases hweigh with
  -- The revisions in the note are the item's own and, where there was an object, that of its
  -- creation; the record of the change was made with the same ones.
  | @added key hkey =>
    exact ⟨key, hkey, by simp, rfl, by simp [LogEntry.on, Change.put, Record.created],
      fun k => get?_insert s key k _⟩
  | @updated key previous hkey hfound _ =>
    refine ⟨key, hkey, by simp [hfound], by simp [hfound, Change.broughtBy],
      by simp [LogEntry.on, Change.put], fun k => ?_⟩
    simp [get?_insert, hfound, Record.successor]
  | @deleted key previous hkey hfound _ =>
    refine ⟨key, hkey, by simp [hfound], by simp [hfound, Change.broughtBy],
      by simp [LogEntry.on, Change.delete], fun k => ?_⟩
    simp [get?_erase, Record.successor]
  | @absent _ key hkey hkind hnone =>
    -- What is rejected leaves nothing under its key, as nothing was there.
    have hleft : Record.successor kind item none revision = none := by
      cases kind <;> simp_all [Record.successor]
    have hchange : Change.broughtBy kind item none revision = none := by
      cases kind <;> simp_all [Change.broughtBy]
    refine ⟨key, hkey, by simp [hkind, hnone], by simp [hnone, hchange], rfl, fun k => ?_⟩
    by_cases hk : key = k
    · subst hk
      simp [hnone, hleft]
    · simp [hk]

namespace Store

/-- An item with a key gets through where the object it belongs to is not younger than it. It is
    applied if it is added or belongs to an object, and it changes nothing but its own key. -/
theorem weigh_keyed {s : Store} {item : Item} {key : Key} (kind : EventKind)
    {revision : Revision} (hkey : item.key? = some key)
    (hle : ∀ previous, s.get? key = some previous → previous.createRevision ≤ revision) :
    ∃ v, s.weigh kind item revision = .ok v ∧ v.On s kind item key revision := by
  cases hweigh : s.weigh kind item revision with
  | ok v =>
    obtain ⟨own, hon⟩ := on_weigh hweigh
    obtain rfl : key = own := Option.some.inj (hkey.symm.trans hon.keyed)
    exact ⟨v, rfl, hon⟩
  | error crash =>
    have hcases := weighing_weigh s kind item revision
    rw [hweigh] at hcases
    cases hcases with
    | keyless hnone => simp [hkey] at hnone
    | regressed hkey' _ hfound hlt =>
      obtain rfl : key = _ := Option.some.inj (hkey.symm.trans hkey')
      exact absurd (hle _ hfound) (Int.not_le.2 hlt)

end Store

/-! ## Items one after the other -/

namespace Ledger

theorem applyItems_of_ok {kind : EventKind} {item : Item} {rest : List Item} {l : Ledger}
    {v : Verdict} (h : l.store.weigh kind item (l.counter.current + 1) = .ok v) :
    applyItems kind (item :: rest) l
      = ((applyItems kind rest ⟨⟨l.counter.current + 1⟩, v.store⟩).1.after v,
          (applyItems kind rest ⟨⟨l.counter.current + 1⟩, v.store⟩).2) := by
  simp only [applyItems, Counter.next, h]

theorem applyItems_of_error {kind : EventKind} {item : Item} {rest : List Item} {l : Ledger}
    {crash : Crash} (h : l.store.weigh kind item (l.counter.current + 1) = .error crash) :
    applyItems kind (item :: rest) l
      = ({ crash? := some crash }, ⟨⟨l.counter.current + 1⟩, l.store⟩) := by
  simp only [applyItems, Counter.next, h]

/-- No cached object was created at a revision that is still to come. -/
def UpToDate (l : Ledger) : Prop :=
  ∀ key record, l.store.get? key = some record → record.createRevision ≤ l.counter.current

theorem upToDate_empty : UpToDate {} := fun _ _ h => absurd h (by simp)

theorem UpToDate.le_next {l : Ledger} (h : l.UpToDate) {key : Key} {record : Record}
    (hfound : l.store.get? key = some record) :
    record.createRevision ≤ l.counter.current + 1 :=
  Int.le_trans (h key record hfound) (Int.le_add_one (Int.le_refl _))

/-- An item with a key does not crash, and what it leaves was created at its revision or before. -/
theorem UpToDate.weigh {l : Ledger} (h : l.UpToDate) (kind : EventKind) {item : Item}
    (hkeyed : item.key?.isSome = true) :
    ∃ v, l.store.weigh kind item (l.counter.current + 1) = .ok v
      ∧ UpToDate ⟨⟨l.counter.current + 1⟩, v.store⟩ := by
  obtain ⟨key, hkey⟩ := Option.isSome_iff_exists.1 hkeyed
  obtain ⟨v, hv, hon⟩ := Store.weigh_keyed kind hkey fun previous hfound => h.le_next hfound
  refine ⟨v, hv, fun k record hrecord => ?_⟩
  rw [hon.found] at hrecord
  by_cases hk : key = k
  · subst hk
    rw [if_pos rfl] at hrecord
    cases kind with
    | add =>
      obtain rfl := Option.some.inj hrecord
      exact Int.le_refl _
    | update =>
      -- An update keeps the revision of the creation, which was there before.
      cases hfound : l.store.get? key with
      | none => simp [hfound, Record.successor] at hrecord
      | some previous =>
        simp only [hfound, Record.successor, Option.some.injEq] at hrecord
        subst hrecord
        show previous.createRevision ≤ l.counter.current + 1
        exact h.le_next hfound
    | delete => simp [Record.successor] at hrecord
  · rw [if_neg hk] at hrecord
    exact h.le_next hrecord

/-- A batch that did not crash has an outcome for each item. -/
theorem length_outcomes_applyItems {kind : EventKind} {items : List Item} {l : Ledger}
    (h : (applyItems kind items l).1.crash? = none) :
    (applyItems kind items l).1.outcomes.length = items.length := by
  induction items generalizing l with
  | nil => rfl
  | cons item rest ih =>
    cases hweigh : l.store.weigh kind item (l.counter.current + 1) with
    | error crash =>
      rw [applyItems_of_error hweigh] at h
      simp at h
    | ok v =>
      rw [applyItems_of_ok hweigh] at h ⊢
      simp only [Report.after, List.length_cons, ih h]

/-- A batch of items with keys is reduced to its end. -/
theorem UpToDate.applyItems {l : Ledger} (h : l.UpToDate) (kind : EventKind) {items : List Item}
    (hkeyed : ∀ item ∈ items, item.key?.isSome = true) :
    (applyItems kind items l).1.crash? = none ∧ (applyItems kind items l).2.UpToDate := by
  induction items generalizing l with
  | nil => exact ⟨rfl, h⟩
  | cons item rest ih =>
    obtain ⟨v, hv, hnext⟩ := h.weigh kind (hkeyed item List.mem_cons_self)
    rw [applyItems_of_ok hv]
    exact ih hnext fun i hi => hkeyed i (List.mem_cons_of_mem _ hi)

/-- Applies events one after the other. A crash ends its event only. -/
def applyAll : List Event → Ledger → List Report × Ledger
  | [], l => ([], l)
  | event :: rest, l =>
      let (report, l) := l.apply event
      let (reports, l) := applyAll rest l
      (report :: reports, l)

theorem applyAll_append (events more : List Event) (l : Ledger) :
    applyAll (events ++ more) l
      = ((applyAll events l).1 ++ (applyAll more (applyAll events l).2).1,
          (applyAll more (applyAll events l).2).2) := by
  induction events generalizing l with
  | nil => rfl
  | cons event rest ih => simp only [List.cons_append, applyAll, ih]

/-- Every event is reported on, and in full if it did not crash. -/
theorem forall₂_applyAll (events : List Event) (l : Ledger) :
    List.Forall₂
      (fun report event => report.crash? = none → report.outcomes.length = event.items.length)
      (applyAll events l).1 events := by
  induction events generalizing l with
  | nil => exact .nil
  | cons event rest ih => exact .cons (fun h => length_outcomes_applyItems h) (ih _)

/-- Events whose items have keys are all applied in full. -/
theorem UpToDate.applyAll {l : Ledger} (h : l.UpToDate) {events : List Event}
    (hkeyed : ∀ event ∈ events, ∀ item ∈ event.items, item.key?.isSome = true) :
    (applyAll events l).1.map (fun report => (report.crash?, report.outcomes.length))
      = events.map fun event => (none, event.items.length) := by
  induction events generalizing l with
  | nil => rfl
  | cons event rest ih =>
    obtain ⟨hcrash, hnext⟩ := h.applyItems event.kind (hkeyed event List.mem_cons_self)
    have hlength := length_outcomes_applyItems hcrash
    have hrest := ih (l := (l.apply event).2) hnext fun e he => hkeyed e (List.mem_cons_of_mem _ he)
    simp only [Ledger.applyAll, List.map_cons, hrest]
    simp only [apply, hcrash, hlength]

end Ledger

end KeyRelay
