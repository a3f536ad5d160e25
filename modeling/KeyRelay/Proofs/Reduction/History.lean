import Mathlib.Order.Bounds.Basic
import KeyRelay.Proofs.Reduction.Weighing

set_option autoImplicit false

/-! # What a history of events comes to

The items of all events, in order, are the history of a run. Its positions are numbered from one,
and so are the revisions of a fresh counter: item `n` takes revision `n`, whatever becomes of it.

Everything else can be read off the history without looking at the store. A key is alive at a
position if it was added before and not deleted since; updates and deletes of a key that is not
alive are rejected, and they leave no trace. At the end the record of a living key is what the last
add or update of it brought, and it was created by the last add, also if that add came over a
living key.

The proof keeps the store and the history in step (`Ledger.Reflects`) item by item. -/

namespace KeyRelay

/-! ## Histories -/

/-- An item and what happened to it. -/
structure Deed where
  kind : EventKind
  item : Item
  deriving Repr, DecidableEq

/-- The items of an event, each with what happened to it. -/
def Event.deeds (event : Event) : List Deed := event.items.map fun item => ⟨event.kind, item⟩

/-- The deed at a position; the first position is one. -/
def deedAt (history : List Deed) : Nat → Option Deed
  | 0 => none
  | n + 1 => history[n]?

/-- Position `n` adds, updates or deletes `key`, as `kind` says. -/
def Happens (history : List Deed) (n : Nat) (kind : EventKind) (key : Key) : Prop :=
  ∃ deed, deedAt history n = some deed ∧ deed.kind = kind ∧ deed.item.key? = some key

/-- Before position `n` the key was added, and it was not deleted between that and `n`. -/
def AliveAt (history : List Deed) (key : Key) (n : Nat) : Prop :=
  ∃ j, j < n ∧ Happens history j .add key
    ∧ ∀ m, j < m → m < n → ¬ Happens history m .delete key

/-- The positions that add a key. -/
def adds (history : List Deed) (key : Key) : Set Nat := {n | Happens history n .add key}

/-- The positions that add or update a key. -/
def writes (history : List Deed) (key : Key) : Set Nat :=
  {n | Happens history n .add key ∨ Happens history n .update key}

/-- The record holds the item of the last add or update of the key, with the position of that as
    its revision, and was created at the last add of the key. -/
structure Describes (history : List Deed) (key : Key) (record : Record) : Prop where
  item : ∃ written, IsGreatest (writes history key) written ∧ record.modifyRevision = written
    ∧ (deedAt history written).map (·.item) = some record.item
  created : ∃ added, IsGreatest (adds history key) added ∧ record.createRevision = added

/-! ## One more deed -/

theorem deedAt_append_left {history : List Deed} {n : Nat} (h : n ≤ history.length)
    (rest : List Deed) : deedAt (history ++ rest) n = deedAt history n := by
  cases n with
  | zero => rfl
  | succ n => exact List.getElem?_append_left h

theorem deedAt_snoc (history : List Deed) (deed : Deed) :
    deedAt (history ++ [deed]) (history.length + 1) = some deed :=
  List.getElem?_concat_length

theorem Happens.bounds {history : List Deed} {n : Nat} {kind : EventKind} {key : Key}
    (h : Happens history n kind key) : 0 < n ∧ n ≤ history.length := by
  obtain ⟨deed, hdeed, -⟩ := h
  cases n with
  | zero => simp [deedAt] at hdeed
  | succ n => exact ⟨Nat.succ_pos n, (List.getElem?_eq_some_iff.1 hdeed).1⟩

theorem happens_append_left {history : List Deed} {n : Nat} (h : n ≤ history.length)
    (rest : List Deed) (kind : EventKind) (key : Key) :
    Happens (history ++ rest) n kind key ↔ Happens history n kind key := by
  simp only [Happens, deedAt_append_left h rest]

/-- The last deed is the only one that its history has in addition. -/
theorem happens_snoc (history : List Deed) (deed : Deed) (n : Nat) (kind : EventKind) (key : Key) :
    Happens (history ++ [deed]) n kind key
      ↔ Happens history n kind key
        ∨ n = history.length + 1 ∧ deed.kind = kind ∧ deed.item.key? = some key := by
  rcases Nat.lt_trichotomy n (history.length + 1) with hlt | rfl | hgt
  · rw [happens_append_left (Nat.le_of_lt_succ hlt)]
    exact ⟨Or.inl, fun h => h.resolve_right fun h' => Nat.ne_of_lt hlt h'.1⟩
  · constructor
    · rintro ⟨d, hd, hkind, hkey⟩
      obtain rfl : deed = d := Option.some.inj ((deedAt_snoc history deed).symm.trans hd)
      exact Or.inr ⟨rfl, hkind, hkey⟩
    · rintro (h | ⟨-, hkind, hkey⟩)
      · exact absurd h.bounds.2 (by omega)
      · exact ⟨deed, deedAt_snoc history deed, hkind, hkey⟩
  · constructor
    · intro h
      have := h.bounds.2
      rw [List.length_append, List.length_singleton] at this
      omega
    · rintro (h | ⟨rfl, -⟩)
      · exact absurd h.bounds.2 (by omega)
      · omega

/-- What is alive at a position depends on the deeds before it only. -/
theorem aliveAt_append_left {history : List Deed} {n : Nat} (h : n ≤ history.length + 1)
    (rest : List Deed) (key : Key) :
    AliveAt (history ++ rest) key n ↔ AliveAt history key n := by
  simp only [AliveAt]
  constructor
  · rintro ⟨j, hj, hadd, hnone⟩
    refine ⟨j, hj, (happens_append_left (by omega) rest _ _).1 hadd, fun m hjm hmn hdel => ?_⟩
    exact hnone m hjm hmn ((happens_append_left (by omega) rest _ _).2 hdel)
  · rintro ⟨j, hj, hadd, hnone⟩
    refine ⟨j, hj, (happens_append_left (by omega) rest _ _).2 hadd, fun m hjm hmn hdel => ?_⟩
    exact hnone m hjm hmn ((happens_append_left (by omega) rest _ _).1 hdel)

/-- A key is alive after a deed if the deed adds it, or if it was alive and the deed does not
    delete it. -/
theorem aliveAt_snoc (history : List Deed) (deed : Deed) (key : Key) :
    AliveAt (history ++ [deed]) key (history.length + 2)
      ↔ (deed.kind = .add ∧ deed.item.key? = some key)
        ∨ AliveAt history key (history.length + 1)
          ∧ ¬ (deed.kind = .delete ∧ deed.item.key? = some key) := by
  constructor
  · rintro ⟨j, hj, hadd, hnone⟩
    rcases (happens_snoc history deed j .add key).1 hadd with hadd | ⟨-, hlast⟩
    · -- The add lies before the last deed, so the key was alive there and the deed spared it.
      have hlt : j < history.length + 1 := Nat.lt_succ_of_le hadd.bounds.2
      refine Or.inr ⟨⟨j, hlt, hadd, fun m hjm hm hdel => ?_⟩, fun hdel => ?_⟩
      · exact hnone m hjm (by omega) ((happens_snoc history deed m .delete key).2 (Or.inl hdel))
      · exact hnone (history.length + 1) hlt (by omega)
          ((happens_snoc history deed _ .delete key).2 (Or.inr ⟨rfl, hdel⟩))
    · exact Or.inl hlast
  · rintro (hlast | ⟨⟨j, hj, hadd, hnone⟩, hdel⟩)
    · refine ⟨history.length + 1, by omega, ?_, fun m _ _ => by omega⟩
      exact (happens_snoc history deed _ .add key).2 (Or.inr ⟨rfl, hlast⟩)
    · refine ⟨j, by omega, (happens_snoc history deed j .add key).2 (Or.inl hadd), ?_⟩
      intro m hjm hm h
      rcases (happens_snoc history deed m .delete key).1 h with h | ⟨-, hlast⟩
      · exact hnone m hjm (Nat.lt_succ_of_le h.bounds.2) h
      · exact hdel hlast

/-! ## The last positions -/

theorem isGreatest_adds_snoc {history : List Deed} {deed : Deed} {key : Key}
    (hkind : deed.kind = .add) (hkey : deed.item.key? = some key) :
    IsGreatest (adds (history ++ [deed]) key) (history.length + 1) := by
  refine ⟨(happens_snoc ..).2 (Or.inr ⟨rfl, hkind, hkey⟩), fun n hn => ?_⟩
  have := Happens.bounds hn
  simpa using this.2

theorem isGreatest_writes_snoc {history : List Deed} {deed : Deed} {key : Key}
    (hkind : deed.kind ≠ .delete) (hkey : deed.item.key? = some key) :
    IsGreatest (writes (history ++ [deed]) key) (history.length + 1) := by
  constructor
  · simp only [writes, Set.mem_ofPred_eq, happens_snoc]
    cases hk : deed.kind with
    | add => simp [hkey]
    | update => simp [hkey]
    | delete => exact absurd hk hkind
  · rintro n (hn | hn)
    · simpa using hn.bounds.2
    · simpa using hn.bounds.2

theorem adds_snoc_of_not {history : List Deed} {deed : Deed} {key : Key}
    (hnot : ¬ (deed.kind = .add ∧ deed.item.key? = some key)) :
    adds (history ++ [deed]) key = adds history key := by
  ext n
  simp only [adds, Set.mem_ofPred_eq, happens_snoc, hnot, and_false, or_false]

theorem writes_snoc_of_ne {history : List Deed} {deed : Deed} {key : Key}
    (hne : deed.item.key? ≠ some key) :
    writes (history ++ [deed]) key = writes history key := by
  ext n
  simp only [writes, Set.mem_ofPred_eq, happens_snoc, hne, and_false, or_false]

/-- An add is described by its own position alone. -/
theorem describes_created (history : List Deed) {deed : Deed} {key : Key}
    (hkind : deed.kind = .add) (hkey : deed.item.key? = some key) :
    Describes (history ++ [deed]) key (.created deed.item (history.length + 1)) where
  item := ⟨history.length + 1, isGreatest_writes_snoc (by simp [hkind]) hkey, rfl,
    by rw [deedAt_snoc]; rfl⟩
  created := ⟨history.length + 1, isGreatest_adds_snoc hkind hkey, rfl⟩

/-- An update brings a new item and keeps the position of the last add. -/
theorem Describes.modified {history : List Deed} {deed : Deed} {key : Key} {previous : Record}
    (h : Describes history key previous) (hkind : deed.kind = .update)
    (hkey : deed.item.key? = some key) :
    Describes (history ++ [deed]) key
      ⟨deed.item, previous.createRevision, history.length + 1⟩ where
  item := ⟨history.length + 1, isGreatest_writes_snoc (by simp [hkind]) hkey, rfl,
    by rw [deedAt_snoc]; rfl⟩
  created := by
    rw [adds_snoc_of_not (by simp [hkind])]
    exact h.created

/-- A deed with another key changes nothing. -/
theorem Describes.snoc_of_ne {history : List Deed} {deed : Deed} {key : Key} {record : Record}
    (h : Describes history key record) (hne : deed.item.key? ≠ some key) :
    Describes (history ++ [deed]) key record where
  item := by
    obtain ⟨written, hgreatest, hrevision, hitem⟩ := h.item
    have hle : written ≤ history.length := by
      rcases hgreatest.1 with hw | hw
      · exact hw.bounds.2
      · exact hw.bounds.2
    refine ⟨written, ?_, hrevision, ?_⟩
    · rwa [writes_snoc_of_ne hne]
    · rwa [deedAt_append_left hle]
  created := by
    rw [adds_snoc_of_not fun h => hne h.2]
    exact h.created

/-! ## The ledger and the history in step -/

/-- The ledger is what the history comes to. -/
structure Ledger.Reflects (l : Ledger) (history : List Deed) : Prop where
  current : l.counter.current = history.length
  found : ∀ key, (l.store.get? key).isSome ↔ AliveAt history key (history.length + 1)
  describes : ∀ key record, l.store.get? key = some record → Describes history key record

/-- The outcome says what the history says of a position. -/
structure Tells (history : List Deed) (n : Nat) (outcome : Outcome) : Prop where
  revision : outcome.revision = n
  applied : ∃ deed, deedAt history n = some deed ∧ deed.item.key? = some outcome.key
    ∧ (outcome.applied = true ↔ deed.kind = .add ∨ AliveAt history outcome.key n)

theorem Tells.append {history : List Deed} {n : Nat} {outcome : Outcome}
    (h : Tells history n outcome) (hle : n ≤ history.length) (rest : List Deed) :
    Tells (history ++ rest) n outcome where
  revision := h.revision
  applied := by
    rw [deedAt_append_left hle, aliveAt_append_left (Nat.le_succ_of_le hle)]
    exact h.applied

namespace Ledger

theorem reflects_empty : Reflects {} [] where
  current := rfl
  found := fun key => by
    simp only [Store.get?_empty, Option.isSome_none, Bool.false_eq_true, false_iff]
    rintro ⟨j, hj, hadd, -⟩
    have := hadd.bounds
    exact Nat.not_lt_of_le this.2 this.1
  describes := fun key record h => by simp at h

theorem Reflects.upToDate {l : Ledger} {history : List Deed} (h : l.Reflects history) :
    l.UpToDate := by
  intro key record hfound
  obtain ⟨added, hgreatest, hcreated⟩ := (h.describes key record hfound).created
  have hle : added ≤ history.length := (Happens.bounds hgreatest.1).2
  rw [hcreated, h.current]
  exact Int.ofNat_le.2 hle

/-- What an item leaves under its key is described by the history that ends with it. -/
theorem Reflects.describes_successor {l : Ledger} {history : List Deed} (h : l.Reflects history)
    {deed : Deed} {key : Key} (hkey : deed.item.key? = some key) {record : Record}
    (hrecord : Record.successor deed.kind deed.item (l.store.get? key) (history.length + 1)
      = some record) :
    Describes (history ++ [deed]) key record := by
  cases hkind : deed.kind with
  | add =>
    simp only [hkind, Record.successor, Option.some.injEq] at hrecord
    subst hrecord
    exact describes_created history hkind hkey
  | update =>
    cases hfound : l.store.get? key with
    | none => simp [hkind, hfound, Record.successor] at hrecord
    | some previous =>
      simp only [hkind, hfound, Record.successor, Option.some.injEq] at hrecord
      subst hrecord
      exact (h.describes key previous hfound).modified hkind hkey
  | delete => simp [hkind, Record.successor] at hrecord

/-- A store in which only the key of an item has changed, in the way of the item, reflects the
    history that ends with it. -/
theorem Reflects.snoc {l : Ledger} {history : List Deed} (h : l.Reflects history) {deed : Deed}
    {key : Key} (hkey : deed.item.key? = some key) {s : Store}
    (hget : ∀ k, s.get? k = if key = k
      then Record.successor deed.kind deed.item (l.store.get? key) (history.length + 1)
      else l.store.get? k) :
    Reflects ⟨⟨(history.length + 1 : Nat)⟩, s⟩ (history ++ [deed]) := by
  constructor
  case current =>
    rw [List.length_append]
    rfl
  case found =>
    intro k
    rw [List.length_append, List.length_singleton, aliveAt_snoc, ← h.found, hget]
    by_cases hk : key = k
    · subst hk
      -- Under its own key an item leaves a record if it is an add, or an update of something.
      cases hkind : deed.kind with
      | add => simp [Record.successor, hkey]
      | update => cases hfound : l.store.get? key <;> simp [Record.successor]
      | delete => simp [Record.successor, hkey]
    · simp [hk, hkey]
  case describes =>
    intro k record hrecord
    rw [hget] at hrecord
    by_cases hk : key = k
    · subst hk
      rw [if_pos rfl] at hrecord
      exact h.describes_successor hkey hrecord
    · rw [if_neg hk] at hrecord
      exact (h.describes k record hrecord).snoc_of_ne (by simpa [hkey] using hk)

/-- One item: the invariant is kept, and the outcome tells what the longer history says. -/
theorem Reflects.weigh {l : Ledger} {history : List Deed} (h : l.Reflects history) (deed : Deed)
    {key : Key} (hkey : deed.item.key? = some key) :
    ∃ v, l.store.weigh deed.kind deed.item (l.counter.current + 1) = .ok v
      ∧ Tells (history ++ [deed]) (history.length + 1) v.outcome
      ∧ Reflects ⟨⟨l.counter.current + 1⟩, v.store⟩ (history ++ [deed]) := by
  obtain ⟨v, hv, hon⟩ :=
    Store.weigh_keyed deed.kind hkey fun previous hfound => h.upToDate.le_next hfound
  have houtcome := hon.outcome
  have hget := hon.found
  have hcurrent : l.counter.current + 1 = (history.length + 1 : Nat) := by
    rw [h.current]
    rfl
  refine ⟨v, hv, ⟨?_, deed, deedAt_snoc history deed, ?_, ?_⟩, ?_⟩
  · rw [houtcome]
    exact hcurrent
  · rw [houtcome]
    exact hkey
  · rw [houtcome, aliveAt_append_left (Nat.le_refl _), ← h.found]
    exact decide_eq_true_iff
  · rw [hcurrent] at hget ⊢
    exact h.snoc hkey hget

/-! ## Runs -/

/-- The deeds of a batch. -/
abbrev deedsOf (kind : EventKind) (items : List Item) : List Deed :=
  items.map fun item => ⟨kind, item⟩

/-- The outcomes of a batch tell what its items came to. -/
theorem Reflects.applyItems (kind : EventKind) {items : List Item} {l : Ledger}
    {history : List Deed} (h : l.Reflects history)
    (hkeyed : ∀ item ∈ items, item.key?.isSome = true) :
    (∀ i outcome, (applyItems kind items l).1.outcomes[i]? = some outcome →
        Tells (history ++ deedsOf kind items) (history.length + i + 1) outcome)
      ∧ (applyItems kind items l).2.Reflects (history ++ deedsOf kind items) := by
  induction items generalizing l history with
  | nil => exact ⟨by simp [Ledger.applyItems], by simpa [Ledger.applyItems] using h⟩
  | cons item rest ih =>
    obtain ⟨key, hkey⟩ := Option.isSome_iff_exists.1 (hkeyed item List.mem_cons_self)
    obtain ⟨v, hv, htells, hnext⟩ := h.weigh ⟨kind, item⟩ hkey
    obtain ⟨houtcomes, hreflects⟩ := ih hnext fun i hi => hkeyed i (List.mem_cons_of_mem _ hi)
    have hsplit : history ++ deedsOf kind (item :: rest)
        = history ++ [⟨kind, item⟩] ++ deedsOf kind rest := by simp
    rw [applyItems_of_ok hv, hsplit]
    refine ⟨?_, hreflects⟩
    intro i outcome hi
    cases i with
    | zero =>
      obtain rfl : v.outcome = outcome := by simpa [Report.after] using hi
      exact htells.append (by simp) _
    | succ i =>
      have := houtcomes i outcome (by simpa [Report.after] using hi)
      rwa [List.length_append, List.length_singleton, Nat.add_right_comm history.length 1 i] at this

/-- What a run of events came to is what the history of the events says. -/
structure FollowsHistory (events : List Event) (reports : List Report) (ledger : Ledger) :
    Prop where
  /-- Every event has a report, without a crash and with one outcome for each item. -/
  complete : reports.map (fun report => (report.crash?, report.outcomes.length))
    = events.map fun event => (none, event.items.length)
  /-- The outcomes of all events, in order, tell of the positions of the history, in order. -/
  outcomes : ∀ i outcome, (reports.flatMap (·.outcomes))[i]? = some outcome →
    Tells (events.flatMap Event.deeds) (i + 1) outcome
  /-- A key is found if it was added at some position and not deleted after it. -/
  found : ∀ key, (ledger.store.get? key).isSome ↔
    ∃ j, Happens (events.flatMap Event.deeds) j .add key
      ∧ ∀ m, j < m → ¬ Happens (events.flatMap Event.deeds) m .delete key
  /-- What is found is described by the last add and the last write of the key. -/
  describes : ∀ key record, ledger.store.get? key = some record →
    Describes (events.flatMap Event.deeds) key record
  /-- Every item has taken one revision. -/
  current : ledger.counter.current = (events.flatMap Event.deeds).length

/-- The outcomes of all events tell what their items came to, from wherever the history has come
    to. -/
theorem Reflects.applyAll {events : List Event} {l : Ledger} {history : List Deed}
    (h : l.Reflects history)
    (hkeyed : ∀ event ∈ events, ∀ item ∈ event.items, item.key?.isSome = true) :
    (∀ i outcome, ((applyAll events l).1.flatMap (·.outcomes))[i]? = some outcome →
        Tells (history ++ events.flatMap Event.deeds) (history.length + i + 1) outcome)
      ∧ (applyAll events l).2.Reflects (history ++ events.flatMap Event.deeds) := by
  induction events generalizing l history with
  | nil => exact ⟨by simp [Ledger.applyAll], by simpa [Ledger.applyAll] using h⟩
  | cons event rest ih =>
    have hitems := hkeyed event List.mem_cons_self
    obtain ⟨houtcomes, hnext⟩ := h.applyItems event.kind hitems
    obtain ⟨hrest, hreflects⟩ := ih hnext fun e he => hkeyed e (List.mem_cons_of_mem _ he)
    have hlength : (Ledger.applyItems event.kind event.items l).1.outcomes.length
        = event.items.length :=
      length_outcomes_applyItems (h.upToDate.applyItems event.kind hitems).1
    have hsplit : history ++ (event :: rest).flatMap Event.deeds
        = history ++ deedsOf event.kind event.items ++ rest.flatMap Event.deeds := by
      simp [Event.deeds]
    rw [hsplit]
    refine ⟨?_, hreflects⟩
    intro i outcome hi
    have happly : ((Ledger.applyAll (event :: rest) l).1.flatMap (·.outcomes))
        = (Ledger.applyItems event.kind event.items l).1.outcomes
          ++ ((Ledger.applyAll rest (Ledger.applyItems event.kind event.items l).2).1.flatMap
            (·.outcomes)) := rfl
    rw [happly] at hi
    -- The outcomes of the first event come first, those of the rest behind them.
    rcases Nat.lt_or_ge i event.items.length with hlt | hge
    · rw [List.getElem?_append_left (by rwa [hlength])] at hi
      exact (houtcomes i outcome hi).append (by simp; omega) _
    · rw [List.getElem?_append_right (by rwa [hlength]), hlength] at hi
      have := hrest _ outcome hi
      rw [List.length_append, List.length_map] at this
      rwa [show history.length + event.items.length + (i - event.items.length) + 1
        = history.length + i + 1 by omega] at this

/-- **Reduction by history.** From an empty store and a fresh counter, whatever events are applied,
    every item is told its position as its revision and whether it was applied, and the store
    holds for every living key the item of its last write, all as the history says it. -/
theorem followsHistory_applyAll (events : List Event)
    (hkeyed : ∀ event ∈ events, ∀ item ∈ event.items, item.key?.isSome = true) :
    FollowsHistory events (applyAll events {}).1 (applyAll events {}).2 := by
  obtain ⟨houtcomes, hreflects⟩ := reflects_empty.applyAll hkeyed
  rw [List.nil_append] at hreflects
  refine ⟨upToDate_empty.applyAll hkeyed, ?_, fun key => ?_, hreflects.describes, hreflects.current⟩
  · intro i outcome hi
    have := houtcomes i outcome hi
    rwa [List.nil_append, List.length_nil, Nat.zero_add] at this
  · -- At the end every position is in the past, so the bounds of `AliveAt` can go.
    rw [hreflects.found]
    constructor
    · rintro ⟨j, -, hadd, hnone⟩
      exact ⟨j, hadd, fun m hm hdel => hnone m hm (Nat.lt_succ_of_le hdel.bounds.2) hdel⟩
    · rintro ⟨j, hadd, hnone⟩
      exact ⟨j, Nat.lt_succ_of_le hadd.bounds.2, hadd, fun m hm _ => hnone m hm⟩

/-- A key that is added twice, deleted twice, updated in vain and added again. -/
theorem followsHistory_readded :
    let pair := fun key value => Item.raw ⟨key, [value]⟩
    let events : List Event :=
      [⟨.add, [pair "a" 1, pair "a" 2]⟩, ⟨.update, [pair "a" 3, pair "b" 4]⟩, ⟨.update, []⟩,
        ⟨.delete, [pair "a" 5, pair "a" 6]⟩, ⟨.update, [pair "a" 7]⟩,
        ⟨.add, [pair "a" 8, pair "b" 9]⟩]
    (∀ event ∈ events, ∀ item ∈ event.items, item.key?.isSome = true)
      ∧ (applyAll events {}).2.store.records = [⟨pair "a" 8, 8, 8⟩, ⟨pair "b" 9, 9, 9⟩]
      ∧ FollowsHistory events (applyAll events {}).1 (applyAll events {}).2 := by
  intro pair events
  have hkeyed : ∀ event ∈ events, ∀ item ∈ event.items, item.key?.isSome = true := by decide
  exact ⟨hkeyed, by decide, followsHistory_applyAll events hkeyed⟩

end Ledger

end KeyRelay
