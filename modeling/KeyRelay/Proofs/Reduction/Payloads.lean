import Mathlib.Data.List.Forall2
import KeyRelay.Proofs.Reduction.Relabelling

set_option autoImplicit false

/-! # Payloads play no part

Reduction asks an item for its key and for nothing else. So it does the same with an item and with
a bare one, which has this key and nothing in it: reducing what was laid bare is laying bare what
was reduced (`Ledger.apply_bare`). Two runs whose items agree in their keys, whatever else is in
them, can therefore be told apart by what their own items hold, and by nothing else
(`Ledger.payloadBlind_applyAll`). An item that cannot be encoded is one of these items. -/

namespace KeyRelay

/-! ## Laying bare -/

/-- An item with this key, or without one, and with nothing in it. -/
def Item.hollow : Option Key → Item
  | some key => .raw ⟨key, []⟩
  | none => .keyless

/-- What is left of an item without its payload. -/
def Item.bare (item : Item) : Item := .hollow item.key?

def Event.bare (event : Event) : Event := { event with items := event.items.map Item.bare }

def Record.bare (r : Record) : Record := { r with item := r.item.bare }

def Change.bare (c : Change) : Change :=
  { c with record := c.record.bare, previous := c.previous.map Record.bare }

def LogEntry.bare : LogEntry → LogEntry
  | .applied kind key createRevision modifyRevision shown? =>
      .applied kind key createRevision modifyRevision (shown?.map Item.bare)
  | entry => entry

def Store.bare (s : Store) : Store := ⟨s.entries.map fun e => (e.1, e.2.bare)⟩

def Ledger.bare (l : Ledger) : Ledger := { l with store := l.store.bare }

def Verdict.bare (v : Verdict) : Verdict :=
  { v with
    change? := v.change?.map Change.bare
    entry := v.entry.bare
    store := v.store.bare }

def Report.bare (r : Report) : Report :=
  { r with changes := r.changes.map Change.bare, entries := r.entries.map LogEntry.bare }

@[simp]
theorem Item.key?_bare (item : Item) : item.bare.key? = item.key? := by
  unfold Item.bare
  cases item.key? <;> rfl

/-- Records that were laid bare still show their keys and revisions, and nothing but these. -/
theorem Record.bare_eq_bare_iff {r other : Record} :
    r.bare = other.bare ↔ r.key? = other.key?
      ∧ r.createRevision = other.createRevision ∧ r.modifyRevision = other.modifyRevision := by
  constructor
  · intro h
    have hkey : r.bare.key? = other.bare.key? := by rw [h]
    have hcreate : r.bare.createRevision = other.bare.createRevision := by rw [h]
    have hmodify : r.bare.modifyRevision = other.bare.modifyRevision := by rw [h]
    exact ⟨by simpa [key?, bare] using hkey, hcreate, hmodify⟩
  · rintro ⟨hkey, hcreate, hmodify⟩
    simp only [bare, Item.bare, hcreate, hmodify]
    rw [show r.item.key? = other.item.key? from hkey]

theorem Report.bare_after (v : Verdict) (r : Report) : (r.after v).bare = r.bare.after v.bare := by
  simp only [Report.after, Report.bare, Verdict.bare, List.map_append, List.map_cons]
  cases v.change? <;> rfl

/-! ## Reducing what was laid bare -/

/-- Bare items in place of items, and no other revisions. -/
def Relabelling.baring : Relabelling where
  item := Item.bare
  revision := id
  key?_item := Item.key?_bare

theorem Verdict.relabel_baring (v : Verdict) : v.relabel .baring = v.bare := by
  have hentry : v.entry.relabel .baring = v.entry.bare := by cases v.entry <;> rfl
  unfold Verdict.relabel Verdict.bare
  rw [hentry]
  rfl

/-- A bare item fares against a bare store as the item does against the store: no object is older or
    younger than it was. -/
theorem Store.weigh_bare (s : Store) (kind : EventKind) (item : Item) (revision : Revision) :
    s.bare.weigh kind item.bare revision = (s.weigh kind item revision).map Verdict.bare := by
  have hrelabel : s.bare.weigh kind item.bare revision = _ :=
    s.weigh_relabel .baring kind item fun _ _ _ => Iff.rfl
  rw [funext Verdict.relabel_baring] at hrelabel
  exact hrelabel

namespace Ledger

theorem applyItems_bare (kind : EventKind) (items : List Item) (l : Ledger) :
    applyItems kind (items.map Item.bare) l.bare
      = ((applyItems kind items l).1.bare, (applyItems kind items l).2.bare) := by
  induction items generalizing l with
  | nil => rfl
  | cons item rest ih =>
    have hbare := l.store.weigh_bare kind item (l.counter.current + 1)
    cases hweigh : l.store.weigh kind item (l.counter.current + 1) with
    | error crash =>
      rw [hweigh] at hbare
      rw [List.map_cons, applyItems_of_error hweigh, applyItems_of_error (l := l.bare) hbare]
      rfl
    | ok v =>
      rw [hweigh] at hbare
      have hrest := ih ⟨⟨l.counter.current + 1⟩, v.store⟩
      rw [List.map_cons, applyItems_of_ok hweigh, applyItems_of_ok (l := l.bare) hbare,
        Report.bare_after]
      exact congrArg (fun p => (p.1.after v.bare, p.2)) hrest

theorem apply_bare (l : Ledger) (event : Event) :
    l.bare.apply event.bare = ((l.apply event).1.bare, (l.apply event).2.bare) := by
  simp only [apply, Event.bare, applyItems_bare, List.length_map]
  rfl

theorem applyAll_bare (events : List Event) (l : Ledger) :
    applyAll (events.map Event.bare) l.bare
      = ((applyAll events l).1.map Report.bare, (applyAll events l).2.bare) := by
  induction events generalizing l with
  | nil => rfl
  | cons event rest ih => simp only [List.map_cons, applyAll, apply_bare, ih]

end Ledger

/-! ## Where items go -/

theorem Store.of_get?_insert {s : Store} {key k : Key} {record r : Record}
    (h : (s.insert key record).get? k = some r) : (key = k ∧ record = r) ∨ s.get? k = some r := by
  rw [get?_insert] at h
  split at h
  · next hk => exact Or.inl ⟨hk, Option.some.inj h⟩
  · exact Or.inr h

theorem Store.of_get?_erase {s : Store} {key k : Key} {r : Record}
    (h : (s.erase key).get? k = some r) : s.get? k = some r := by
  rw [get?_erase] at h
  split at h
  · simp at h
  · exact h

/-- A record that is found under a key after an item was weighed was there before, or holds the
    item; and a change tells of the item exactly when it was accepted. -/
theorem Store.item_weigh {s : Store} {kind : EventKind} {item : Item} {revision : Revision}
    {v : Verdict} (hv : s.weigh kind item revision = .ok v) :
    (∀ key record, v.store.get? key = some record → s.get? key = some record
        ∨ record.item = item ∧ v.outcome = ⟨true, key, record.modifyRevision⟩)
      ∧ v.change?.toList.map (·.record.item) = if v.outcome.applied then [item] else [] := by
  have hweigh := weighing_weigh s kind item revision
  rw [hv] at hweigh
  cases hweigh with
  | added hkey =>
    refine ⟨fun key record hrecord => ?_, rfl⟩
    rcases of_get?_insert hrecord with ⟨rfl, rfl⟩ | hbefore
    · exact Or.inr ⟨rfl, rfl⟩
    · exact Or.inl hbefore
  | updated hkey hfound hle =>
    refine ⟨fun key record hrecord => ?_, rfl⟩
    rcases of_get?_insert hrecord with ⟨rfl, rfl⟩ | hbefore
    · exact Or.inr ⟨rfl, rfl⟩
    · exact Or.inl hbefore
  | deleted hkey hfound hle => exact ⟨fun key record hrecord => Or.inl (of_get?_erase hrecord), rfl⟩
  | absent hkey hkind hnone => exact ⟨fun key record hrecord => Or.inl hrecord, rfl⟩

namespace Ledger

/-- Records hold what they were supplied with: each one was there before, or holds the item whose
    outcome carries its revision; and the changes tell of the items that were applied, in their
    order. -/
structure Supplies (l : Ledger) (items : List Item) (report : Report) (l' : Ledger) : Prop where
  stored : ∀ key record, l'.store.get? key = some record → l.store.get? key = some record
    ∨ ∃ j : Nat, items[j]? = some record.item
        ∧ report.outcomes[j]? = some ⟨true, key, record.modifyRevision⟩
  published : report.changes.map (·.record.item)
    = ((items.zip report.outcomes).filter (·.2.applied)).map (·.1)

theorem supplies_applyItems (kind : EventKind) (items : List Item) (l : Ledger) :
    Supplies l items (applyItems kind items l).1 (applyItems kind items l).2 := by
  induction items generalizing l with
  | nil => exact ⟨fun key record hrecord => Or.inl hrecord, rfl⟩
  | cons item rest ih =>
    cases hweigh : l.store.weigh kind item (l.counter.current + 1) with
    | error crash =>
      rw [applyItems_of_error hweigh]
      exact ⟨fun key record hrecord => Or.inl hrecord, rfl⟩
    | ok v =>
      rw [applyItems_of_ok hweigh]
      obtain ⟨hstored, hpublished⟩ := Store.item_weigh hweigh
      obtain ⟨hlater, hrest⟩ := ih ⟨⟨l.counter.current + 1⟩, v.store⟩
      constructor
      case stored =>
        intro key record hrecord
        rcases hlater key record hrecord with hbefore | ⟨j, hitem, houtcome⟩
        · rcases hstored key record hbefore with hbefore | ⟨hitem, houtcome⟩
          · exact Or.inl hbefore
          · exact Or.inr ⟨0, congrArg some hitem.symm, congrArg some houtcome⟩
        · exact Or.inr ⟨j + 1, hitem, houtcome⟩
      case published =>
        simp only [Report.after, List.map_append, hpublished, hrest, List.zip_cons_cons,
          List.filter_cons]
        split <;> rfl

theorem supplies_apply (l : Ledger) (event : Event) :
    Supplies l event.items (l.apply event).1 (l.apply event).2 := by
  obtain ⟨hstored, hpublished⟩ := supplies_applyItems event.kind event.items l
  exact ⟨hstored, hpublished⟩

theorem published_applyAll (events : List Event) (l : Ledger) :
    List.Forall₂
      (fun event report => report.changes.map (·.record.item)
        = ((event.items.zip report.outcomes).filter (·.2.applied)).map (·.1))
      events (applyAll events l).1 := by
  induction events generalizing l with
  | nil => exact .nil
  | cons event rest ih => exact .cons (l.supplies_apply event).published (ih _)

/-- A record that is found after some events was there before them, or holds an item of one of
    them, whose outcome carries its revision. -/
theorem stored_applyAll (events : List Event) (l : Ledger) (key : Key) (record : Record)
    (hrecord : (applyAll events l).2.store.get? key = some record) :
    l.store.get? key = some record
      ∨ ∃ pair ∈ events.zip (applyAll events l).1, ∃ j : Nat,
          pair.1.items[j]? = some record.item
            ∧ pair.2.outcomes[j]? = some ⟨true, key, record.modifyRevision⟩ := by
  induction events generalizing l with
  | nil => exact Or.inl hrecord
  | cons event rest ih =>
    rcases ih (l.apply event).2 hrecord with hbefore | ⟨pair, hpair, hsupplied⟩
    · rcases (l.supplies_apply event).stored key record hbefore with hbefore | hsupplied
      · exact Or.inl hbefore
      · exact Or.inr ⟨(event, (l.apply event).1), List.mem_cons_self, hsupplied⟩
    · exact Or.inr ⟨pair, List.mem_cons_of_mem _ hpair, hsupplied⟩

end Ledger

/-! ## Two runs -/

/-- The same happened to items of the same keys. -/
structure Event.SameKeys (event other : Event) : Prop where
  kind : event.kind = other.kind
  keys : event.items.map Item.key? = other.items.map Item.key?

theorem Event.SameKeys.bare_eq {event other : Event} (h : event.SameKeys other) :
    event.bare = other.bare := by
  obtain ⟨kind, items⟩ := event
  obtain ⟨rfl, hkeys⟩ := h
  have hitems : items.map Item.bare = other.items.map Item.bare := by
    have hhollow := congrArg (List.map Item.hollow) hkeys
    rw [List.map_map, List.map_map] at hhollow
    exact hhollow
  exact congrArg (Event.mk other.kind) hitems

namespace Ledger

theorem applyAll_congr {events others : List Event} {l m : Ledger}
    (hevents : List.Forall₂ Event.SameKeys events others) (hledgers : l.bare = m.bare) :
    (applyAll events l).1.map Report.bare = (applyAll others m).1.map Report.bare
      ∧ (applyAll events l).2.bare = (applyAll others m).2.bare := by
  have hbare : events.map Event.bare = others.map Event.bare := by
    induction hevents with
    | nil => rfl
    | cons hevent _ ih => rw [List.map_cons, List.map_cons, hevent.bare_eq, ih]
  have hleft := applyAll_bare events l
  rw [hbare, hledgers, applyAll_bare others m] at hleft
  exact ⟨congrArg Prod.fst hleft.symm, congrArg Prod.snd hleft.symm⟩

/-- What two runs have in common that apply the same events but for the payloads of their items,
    and what the first of them has of its own. -/
structure PayloadBlind (events others : List Event) (l m : Ledger) : Prop where
  /-- Every event comes to the same: the outcomes, the crash if there is one, and, payloads apart,
      the changes and the notes. -/
  reports : (applyAll events l).1.map Report.bare = (applyAll others m).1.map Report.bare
  /-- After every event the counters are the same, and so are the stores, payloads apart: they have
      the same keys in the same order, with records of the same revisions. -/
  ledgers : ∀ n, (applyAll (events.take n) l).2.bare = (applyAll (others.take n) m).2.bare
  /-- Nothing but a missing key can break an event off where no object is younger than the counter;
      so whatever the payloads are, every item has its outcome. -/
  complete : l.UpToDate →
    (∀ event ∈ events, ∀ item ∈ event.items, item.key?.isSome = true) →
    (applyAll events l).1.map (fun report => (report.crash?, report.outcomes.length))
      = events.map fun event => (none, event.items.length)
  /-- The changes of an event tell of the items that were applied, as this run had them. -/
  published : List.Forall₂
    (fun event report => report.changes.map (·.record.item)
      = ((event.items.zip report.outcomes).filter (·.2.applied)).map (·.1))
    events (applyAll events l).1
  /-- What is stored after every event was there at first, or holds the item that took its
      revision, as this run had it. -/
  stored : ∀ n key record, (applyAll (events.take n) l).2.store.get? key = some record →
    l.store.get? key = some record
      ∨ ∃ pair ∈ (events.take n).zip (applyAll (events.take n) l).1, ∃ j : Nat,
          pair.1.items[j]? = some record.item
            ∧ pair.2.outcomes[j]? = some ⟨true, key, record.modifyRevision⟩

/-- **Payloads play no part in reduction.** Whatever events are applied, from ledgers that differ in
    their payloads at most: if other items of the same keys take the place of the items, everything
    comes to the same but for what the items hold, and each run stores and publishes its own. -/
theorem payloadBlind_applyAll {events others : List Event} {l m : Ledger}
    (hevents : List.Forall₂ Event.SameKeys events others) (hledgers : l.bare = m.bare) :
    PayloadBlind events others l m := by
  constructor
  case reports => exact (applyAll_congr hevents hledgers).1
  case ledgers => exact fun n => (applyAll_congr (List.forall₂_take n hevents) hledgers).2
  case complete => exact fun hupToDate hkeyed => hupToDate.applyAll hkeyed
  case published => exact published_applyAll events l
  case stored => exact fun n => stored_applyAll (events.take n) l

/-- An item that cannot be encoded stands among raw ones and documents, in place of others of the
    same keys; it is added, updated and published, and a document is added over one. -/
theorem payloadBlind_unencodable :
    let broken := fun key => Item.unencodable key "broken"
    let raw := fun key value => Item.raw ⟨key, [value]⟩
    let events : List Event :=
      [⟨.add, [raw "a" 1, broken "b", .document "c" .null]⟩, ⟨.update, [broken "a", broken "d"]⟩,
        ⟨.delete, [broken "c"]⟩, ⟨.add, [.document "b" .null]⟩]
    let others : List Event :=
      [⟨.add, [broken "a", raw "b" 2, raw "c" 3]⟩, ⟨.update, [raw "a" 4, raw "d" 5]⟩,
        ⟨.delete, [raw "c" 6]⟩, ⟨.add, [broken "b"]⟩]
    List.Forall₂ Event.SameKeys events others ∧ ({} : Ledger).bare = ({} : Ledger).bare
      ∧ PayloadBlind events others {} {}
      ∧ (applyAll events {}).1.map (·.outcomes.map (·.applied))
        = [[true, true, true], [true, false], [true], [true]]
      ∧ (applyAll (events.take 2) {}).2.store.records
        = [⟨broken "a", 1, 4⟩, ⟨broken "b", 2, 2⟩, ⟨.document "c" .null, 3, 3⟩]
      ∧ (applyAll (others.take 2) {}).2.store.records
        = [⟨raw "a" 4, 1, 4⟩, ⟨raw "b" 2, 2, 2⟩, ⟨raw "c" 3, 3, 3⟩] := by
  intro broken raw events others
  have hevents : List.Forall₂ Event.SameKeys events others :=
    .cons ⟨rfl, rfl⟩ (.cons ⟨rfl, rfl⟩ (.cons ⟨rfl, rfl⟩ (.cons ⟨rfl, rfl⟩ .nil)))
  exact ⟨hevents, rfl, payloadBlind_applyAll hevents rfl, by decide, by decide, by decide⟩

end Ledger

end KeyRelay
