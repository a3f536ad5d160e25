import KeyRelay.Proofs.Reduction.Interruption
import KeyRelay.Proofs.Reduction.Reached
import KeyRelay.Proofs.Reduction.Verdicts

set_option autoImplicit false

/-! # The order of a batch

Items of one batch that have keys of their own do not meet: each of them finds under its key what
was there before the batch, and leaves the other keys alone. So the order of such a batch decides
which item takes which revision, and nothing else (`Ledger.orderBlind_apply`). -/

namespace KeyRelay

/-- What a change tells of but for the revisions of its record: whether the key was put or deleted,
    the item, and the record before it. -/
def Change.content (c : Change) : ChangeKind × Item × Option Record :=
  (c.kind, c.record.item, c.previous)

/-- What a verdict tells of but for the revision of its item. -/
def Verdict.content (v : Verdict) : Key × Bool × Option (ChangeKind × Item × Option Record) :=
  (v.outcome.key, v.outcome.applied, v.change?.map Change.content)

/-- What the verdict on an item will tell of if it finds what is in this store. -/
def Store.foretell (s : Store) (kind : EventKind) (item : Item) :
    Option (Key × Bool × Option (ChangeKind × Item × Option Record)) :=
  item.key?.map fun key =>
    (key, decide (kind = .add ∨ (s.get? key).isSome = true),
      (Change.broughtBy kind item (s.get? key) 0).map Change.content)

/-- The revision of an item does not show in what its change tells of otherwise. -/
theorem Change.content_broughtBy (kind : EventKind) (item : Item) (previous : Option Record)
    (revision : Revision) :
    (broughtBy kind item previous revision).map content
      = (broughtBy kind item previous 0).map content := by
  cases kind <;> cases previous <;> rfl

/-- What is not added belongs to the object that was there before. -/
theorem Change.createRevision_of_broughtBy {kind : EventKind} {item : Item}
    {previous : Option Record} {revision : Revision} {c : Change} (hkind : kind ≠ .add)
    (h : broughtBy kind item previous revision = some c) :
    c.previous.map (·.createRevision) = some c.record.createRevision := by
  cases kind with
  | add => exact absurd rfl hkind
  | update | delete =>
    cases previous with
    | none => simp [broughtBy] at h
    | some previous =>
      obtain rfl := Option.some.inj h
      rfl

theorem Verdict.On.foretold {v : Verdict} {s t : Store} {kind : EventKind} {item : Item} {key : Key}
    {revision : Revision} (h : v.On t kind item key revision) (hsame : t.get? key = s.get? key) :
    s.foretell kind item = some v.content := by
  simp only [Store.foretell, h.keyed, Option.map_some, Verdict.content, h.outcome, h.change?, hsame,
    Change.content_broughtBy]

/-- Nor does it show in the item that is left, -/
theorem Record.item_successor (kind : EventKind) (item : Item) (previous : Option Record)
    (r r' : Revision) :
    (successor kind item previous r).map (·.item)
      = (successor kind item previous r').map (·.item) := by
  cases kind <;> cases previous <;> rfl

/-- and an update keeps the creation. -/
theorem Record.createRevision_successor_update (item : Item) (previous : Option Record)
    (revision : Revision) :
    (successor .update item previous revision).map (·.createRevision)
      = previous.map (·.createRevision) := by
  cases previous <;> rfl

/-- Items with keys, each of them with a key of its own. -/
structure Item.Apart (items : List Item) : Prop where
  keyed : ∀ item ∈ items, item.key?.isSome = true
  nodup : (items.map key?).Nodup

namespace Item.Apart

variable {item : Item} {items others rest : List Item} {key : Key}

theorem perm (h : Apart items) (hperm : items.Perm others) : Apart others where
  keyed := fun item hitem => h.keyed item (hperm.mem_iff.2 hitem)
  nodup := (hperm.map key?).nodup_iff.1 h.nodup

theorem tail (h : Apart (item :: rest)) : Apart rest where
  keyed := fun i hi => h.keyed i (List.mem_cons_of_mem _ hi)
  nodup := (List.nodup_cons.1 h.nodup).2

/-- The key of the first item is named by no other one. -/
theorem unnamed (h : Apart (item :: rest)) (hkey : item.key? = some key) :
    ∀ other ∈ rest, other.key? ≠ some key := by
  intro other hother heq
  refine (List.nodup_cons.1 h.nodup).1 ?_
  rw [hkey, ← heq]
  exact List.mem_map_of_mem hother

end Item.Apart

namespace Ledger

open Item (Apart)

variable {kind : EventKind} {items others : List Item} {l : Ledger}

/-! ## One batch -/

/-- A key that no item has keeps its record. -/
theorem get?_applyItems_of_unnamed (kind : EventKind) {key : Key}
    (h : ∀ item ∈ items, item.key? ≠ some key) :
    (applyItems kind items l).2.store.get? key = l.store.get? key := by
  induction items generalizing l with
  | nil => rfl
  | cons item rest ih =>
    obtain ⟨hitem, hrest⟩ := List.forall_mem_cons.1 h
    cases hweigh : l.store.weigh kind item (l.counter.current + 1) with
    | error crash => rw [applyItems_of_error hweigh]
    | ok v =>
      obtain ⟨own, hon⟩ := Store.on_weigh hweigh
      have hne : own ≠ key := by
        rintro rfl
        exact hitem hon.keyed
      rw [applyItems_of_ok hweigh]
      exact (ih hrest).trans ((hon.found key).trans (if_neg hne))

/-- Under the key of an item stands afterwards what the item makes of what was there before the
    batch. -/
theorem get?_applyItems_of_apart (hl : l.UpToDate) (h : Apart items) {i : Nat} {item : Item}
    {key : Key} (hitem : items[i]? = some item) (hkey : item.key? = some key) :
    (applyItems kind items l).2.store.get? key
      = Record.successor kind item (l.store.get? key) (l.counter.current + i + 1) := by
  induction items generalizing l i with
  | nil => simp at hitem
  | cons first rest ih =>
    obtain ⟨v, hv, hnext⟩ := hl.weigh kind (h.keyed first List.mem_cons_self)
    obtain ⟨own, hon⟩ := Store.on_weigh hv
    rw [applyItems_of_ok hv]
    cases i with
    | zero =>
      obtain rfl : first = item := by simpa using hitem
      obtain rfl : own = key := Option.some.inj (hon.keyed.symm.trans hkey)
      have hlater := get?_applyItems_of_unnamed kind
        (l := ⟨⟨l.counter.current + 1⟩, v.store⟩) (h.unnamed hkey)
      exact hlater.trans ((hon.found own).trans (by simp))
    | succ i =>
      have hrest : rest[i]? = some item := by simpa using hitem
      have hne : own ≠ key := by
        rintro rfl
        exact h.unnamed hon.keyed item (List.mem_of_getElem? hrest) hkey
      have hlater := ih hnext h.tail hrest
      have hrevision : l.counter.current + 1 + i + 1 = l.counter.current + (i + 1 : Nat) + 1 := by
        unfold Revision
        omega
      rw [hon.found, if_neg hne, hrevision] at hlater
      exact hlater

/-- Every item of the batch is told of as if it were alone. -/
theorem content_verdicts {s : Store} (hl : l.UpToDate) (h : Apart items)
    (hsame : ∀ item ∈ items, ∀ key, item.key? = some key → l.store.get? key = s.get? key) :
    (verdicts kind items l).map Verdict.content = items.filterMap (s.foretell kind) := by
  induction items generalizing l with
  | nil => rfl
  | cons item rest ih =>
    obtain ⟨v, hv, hnext⟩ := hl.weigh kind (h.keyed item List.mem_cons_self)
    obtain ⟨own, hon⟩ := Store.on_weigh hv
    have hrest : ∀ other ∈ rest, ∀ key, other.key? = some key →
        v.store.get? key = s.get? key := by
      intro other hother key hkey
      have hne : own ≠ key := by
        rintro rfl
        exact h.unnamed hon.keyed other hother hkey
      rw [hon.found, if_neg hne]
      exact hsame other (List.mem_cons_of_mem _ hother) key hkey
    rw [verdicts_of_ok hv, List.map_cons, ih hnext h.tail hrest]
    rw [List.filterMap_cons, hon.foretold (hsame item List.mem_cons_self own hon.keyed)]

/-- What becomes of a batch: no item crashes, each of them takes the revision of its place, keys
    that are not named keep their records, and what is not added keeps its creation. -/
structure Separate (l : Ledger) (event : Event) : Prop where
  crash? : (l.apply event).1.crash? = none
  outcomes : ∀ (i : Nat) item, event.items[i]? = some item →
    ∃ o, (l.apply event).1.outcomes[i]? = some o ∧ item.key? = some o.key
      ∧ o.revision = l.counter.current + i + 1
  current : (l.apply event).2.counter.current = l.counter.current + event.items.length
  unnamed : ∀ key, (∀ item ∈ event.items, item.key? ≠ some key) →
    (l.apply event).2.store.get? key = l.store.get? key
  updated : event.kind = .update → ∀ key,
    ((l.apply event).2.store.get? key).map (·.createRevision)
      = (l.store.get? key).map (·.createRevision)
  inherited : event.kind ≠ .add → ∀ c ∈ (l.apply event).1.changes,
    c.previous.map (·.createRevision) = some c.record.createRevision

theorem separate_apply (hl : l.UpToDate) {event : Event} (h : Apart event.items) :
    l.Separate event := by
  obtain ⟨houtcomes, hchanges, -⟩ := report_eq_verdicts event.kind event.items l
  have hcrash := (hl.applyItems event.kind h.keyed).1
  constructor
  case crash? => exact hcrash
  case outcomes =>
    intro i item hitem
    obtain ⟨hi, -⟩ := List.getElem?_eq_some_iff.1 hitem
    have hlength := length_outcomes_applyItems hcrash
    rw [houtcomes, List.length_map] at hlength
    obtain ⟨v, hv⟩ : ∃ v, (verdicts event.kind event.items l)[i]? = some v :=
      ⟨_, List.getElem?_eq_getElem (hlength ▸ hi)⟩
    obtain ⟨own, key, hown, hon⟩ := on_of_getElem?_verdicts hv
    obtain rfl : own = item := Option.some.inj (hown.symm.trans hitem)
    refine ⟨v.outcome, ?_, ?_, ?_⟩
    · show (applyItems event.kind event.items l).1.outcomes[i]? = _
      rw [houtcomes, List.getElem?_map, hv, Option.map_some]
    · rw [hon.outcome, hon.keyed]
    · rw [hon.outcome]
  case current => exact current_applyItems hcrash
  case unnamed => exact fun key hunnamed => get?_applyItems_of_unnamed event.kind hunnamed
  case updated =>
    intro hkind key
    show ((applyItems event.kind event.items l).2.store.get? key).map _ = _
    by_cases hnamed : ∃ item ∈ event.items, item.key? = some key
    · obtain ⟨item, hmem, hkey⟩ := hnamed
      obtain ⟨i, hitem⟩ := List.mem_iff_getElem?.1 hmem
      rw [get?_applyItems_of_apart hl h hitem hkey, hkind,
        Record.createRevision_successor_update]
    · rw [get?_applyItems_of_unnamed _ fun item hmem hkey => hnamed ⟨item, hmem, hkey⟩]
  case inherited =>
    intro hkind c hc
    replace hc : c ∈ (applyItems event.kind event.items l).1.changes := hc
    rw [hchanges] at hc
    obtain ⟨v, hv, hchange⟩ := List.mem_filterMap.1 hc
    obtain ⟨i, hi⟩ := List.mem_iff_getElem?.1 hv
    obtain ⟨item, key, -, hon⟩ := on_of_getElem?_verdicts hi
    exact Change.createRevision_of_broughtBy hkind (hon.change?.symm.trans hchange)

/-! ## One batch in two orders -/

/-- What does not depend on the order of a batch. -/
structure OrderBlind (l : Ledger) (event other : Event) : Prop where
  /-- It is decided in the same way on each key. -/
  decisions : ((l.apply event).1.outcomes.map fun o => (o.key, o.applied)).Perm
    ((l.apply other).1.outcomes.map fun o => (o.key, o.applied))
  /-- The same keys hold the same items. -/
  stored : (l.apply event).2.store.entries.map (fun e => (e.1, e.2.item))
    = (l.apply other).2.store.entries.map fun e => (e.1, e.2.item)
  counter : (l.apply event).2.counter = (l.apply other).2.counter
  /-- The same changes are published but for their order and for the revisions of the batch. -/
  published : ((l.apply event).1.changes.map Change.content).Perm
    ((l.apply other).1.changes.map Change.content)

/-- What is told of a batch, but for the revisions, is told of the same items in any order. -/
theorem content_perm (kind : EventKind) (hl : l.UpToDate) (h : Apart items)
    (hperm : items.Perm others) :
    ((verdicts kind items l).map Verdict.content).Perm
      ((verdicts kind others l).map Verdict.content) := by
  rw [content_verdicts hl h fun _ _ _ _ => rfl]
  rw [content_verdicts hl (h.perm hperm) fun _ _ _ _ => rfl]
  exact hperm.filterMap _

/-- Outcomes and changes are told of by the verdicts, but for the revisions. -/
theorem report_eq_content (kind : EventKind) (items : List Item) (l : Ledger) :
    (applyItems kind items l).1.outcomes.map (fun o => (o.key, o.applied))
        = ((verdicts kind items l).map Verdict.content).map (fun c => (c.1, c.2.1))
      ∧ (applyItems kind items l).1.changes.map Change.content
        = ((verdicts kind items l).map Verdict.content).filterMap (·.2.2) := by
  obtain ⟨houtcomes, hchanges, -⟩ := report_eq_verdicts kind items l
  constructor
  · rw [houtcomes, List.map_map, List.map_map]
    rfl
  · rw [hchanges, List.map_filterMap, List.filterMap_map]
    rfl

theorem items_perm (hl : l.UpToDate) (h : Apart items) (hperm : items.Perm others) (key : Key) :
    ((applyItems kind items l).2.store.get? key).map (·.item)
      = ((applyItems kind others l).2.store.get? key).map (·.item) := by
  by_cases hnamed : ∃ item ∈ items, item.key? = some key
  · obtain ⟨item, hmem, hkey⟩ := hnamed
    obtain ⟨i, hitem⟩ := List.mem_iff_getElem?.1 hmem
    obtain ⟨j, hother⟩ := List.mem_iff_getElem?.1 (hperm.mem_iff.1 hmem)
    rw [get?_applyItems_of_apart hl h hitem hkey]
    rw [get?_applyItems_of_apart hl (h.perm hperm) hother hkey]
    exact Record.item_successor kind item _ _ _
  · rw [get?_applyItems_of_unnamed _ fun item hmem hkey => hnamed ⟨item, hmem, hkey⟩]
    rw [get?_applyItems_of_unnamed _ fun item hmem hkey =>
      hnamed ⟨item, hperm.mem_iff.2 hmem, hkey⟩]

/-- **The order of a batch plays no part.** Whatever reducers have come to, if the items of a batch
    have keys of their own, then in any order none of them crashes and each takes the revision of
    its place; and what is decided on each key, what is stored and what is published are the same
    but for these revisions. -/
theorem orderBlind_apply (h : l.Reached) (kind : EventKind)
    (hkeyed : ∀ item ∈ items, item.key?.isSome = true) (hnodup : (items.map Item.key?).Nodup)
    (hperm : items.Perm others) :
    l.Separate ⟨kind, items⟩ ∧ l.Separate ⟨kind, others⟩
      ∧ l.OrderBlind ⟨kind, items⟩ ⟨kind, others⟩ := by
  have hapart : Apart items := ⟨hkeyed, hnodup⟩
  have hl := h.fresh.upToDate
  have hleft : l.Separate ⟨kind, items⟩ := separate_apply hl hapart
  have hright : l.Separate ⟨kind, others⟩ := separate_apply hl (hapart.perm hperm)
  refine ⟨hleft, hright, ?_⟩
  have hcontent := content_perm kind hl hapart hperm
  obtain ⟨houtcomes, hchanges⟩ := report_eq_content kind items l
  obtain ⟨houtcomes', hchanges'⟩ := report_eq_content kind others l
  constructor
  case decisions =>
    show ((applyItems kind items l).1.outcomes.map fun o => (o.key, o.applied)).Perm
      ((applyItems kind others l).1.outcomes.map fun o => (o.key, o.applied))
    rw [houtcomes, houtcomes']
    exact hcontent.map _
  case stored =>
    exact (h.apply _).sound.sorted.map_entries_eq (h.apply _).sound.sorted Record.item
      (items_perm hl hapart hperm)
  case counter =>
    have hcurrent := hleft.current.trans (congrArg (fun n : Nat => l.counter.current + (n : Int))
      hperm.length_eq)
    exact congrArg Counter.mk (hcurrent.trans hright.current.symm)
  case published =>
    show ((applyItems kind items l).1.changes.map Change.content).Perm
      ((applyItems kind others l).1.changes.map Change.content)
    rw [hchanges, hchanges']
    exact hcontent.filterMap _

/-- Three updates, of which one finds no object and one cannot be encoded, and the same ones in
    another order; an object that is not named is left alone. -/
theorem orderBlind_updates :
    let pair := fun key value => Item.raw ⟨key, [value]⟩
    let l := (({} : Ledger).apply ⟨.add, [pair "a" 1, pair "b" 2, pair "d" 3]⟩).2
    let items := [pair "a" 4, pair "c" 5, .unencodable "b" "broken"]
    let others := [.unencodable "b" "broken", pair "a" 4, pair "c" 5]
    l.Reached ∧ (∀ item ∈ items, item.key?.isSome = true) ∧ (items.map Item.key?).Nodup
      ∧ items.Perm others
      ∧ (l.Separate ⟨.update, items⟩ ∧ l.Separate ⟨.update, others⟩
        ∧ l.OrderBlind ⟨.update, items⟩ ⟨.update, others⟩)
      ∧ (l.apply ⟨.update, items⟩).1.outcomes = [⟨true, "a", 4⟩, ⟨false, "c", 5⟩, ⟨true, "b", 6⟩]
      ∧ (l.apply ⟨.update, others⟩).1.outcomes = [⟨true, "b", 4⟩, ⟨true, "a", 5⟩, ⟨false, "c", 6⟩]
      ∧ (l.apply ⟨.update, items⟩).2.store.records
        = [⟨pair "a" 4, 1, 4⟩, ⟨.unencodable "b" "broken", 2, 6⟩, ⟨pair "d" 3, 3, 3⟩]
      ∧ (l.apply ⟨.update, others⟩).2.store.records
        = [⟨pair "a" 4, 1, 5⟩, ⟨.unencodable "b" "broken", 2, 4⟩, ⟨pair "d" 3, 3, 3⟩] := by
  intro pair l items others
  have hreached : l.Reached := Reached.start.apply _
  have hkeyed : ∀ item ∈ items, item.key?.isSome = true := by decide
  have hnodup : (items.map Item.key?).Nodup := by decide
  have hperm : items.Perm others := by decide
  exact ⟨hreached, hkeyed, hnodup, hperm,
    orderBlind_apply hreached .update hkeyed hnodup hperm, by decide, by decide, by decide,
    by decide⟩

end Ledger

end KeyRelay
