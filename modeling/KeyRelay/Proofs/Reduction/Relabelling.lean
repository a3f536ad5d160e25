import KeyRelay.Proofs.Reduction.Weighing

set_option autoImplicit false

/-! # Other labels in place of items and revisions

Reduction looks at the keys of items, and at whether an object is younger than a revision, and at
nothing else that items and revisions are. So when other items of the same keys and other revisions
take their places, and no object gets older or younger than it was, an item fares as before
(`Store.Weighing.relabel`). -/

namespace KeyRelay

/-- Other items, of the same keys, and other revisions. -/
structure Relabelling where
  item : Item → Item
  revision : Revision → Revision
  key?_item : ∀ i, (item i).key? = i.key?

/-- Other revisions, and the same items. -/
def Relabelling.renumbering (revision : Revision → Revision) : Relabelling where
  item := id
  revision := revision
  key?_item := fun _ => rfl

/-! ## Relabelling what holds items and revisions -/

section

variable (ρ : Relabelling)

def Outcome.relabel (o : Outcome) : Outcome := { o with revision := ρ.revision o.revision }

def Record.relabel (r : Record) : Record :=
  ⟨ρ.item r.item, ρ.revision r.createRevision, ρ.revision r.modifyRevision⟩

def Change.relabel (c : Change) : Change :=
  { c with record := c.record.relabel ρ, previous := c.previous.map (Record.relabel ρ) }

def LogEntry.relabel : LogEntry → LogEntry
  | .applied kind key createRevision modifyRevision shown? =>
      .applied kind key (ρ.revision createRevision) (ρ.revision modifyRevision)
        (shown?.map ρ.item)
  | .ignored kind key revision => .ignored kind key (ρ.revision revision)
  | entry => entry

def Store.relabel (s : Store) : Store := s.mapRecords (Record.relabel ρ)

def Verdict.relabel (v : Verdict) : Verdict where
  outcome := v.outcome.relabel ρ
  change? := v.change?.map (Change.relabel ρ)
  entry := v.entry.relabel ρ
  store := v.store.relabel ρ

def Ledger.relabel (l : Ledger) : Ledger where
  counter := ⟨ρ.revision l.counter.current⟩
  store := l.store.relabel ρ

end

/-! ## Weighing what was relabelled -/

namespace Store

variable {s : Store} {ρ : Relabelling} {item : Item} {revision : Revision} {kind : EventKind}

/-- An item fares as before where the object it belongs to is not younger than it exactly if it was
    not younger before. -/
theorem Weighing.relabel {w : Except Crash Verdict} (h : s.Weighing item revision kind w)
    (hage : ∀ key previous, s.get? key = some previous →
      (ρ.revision previous.createRevision ≤ ρ.revision revision
        ↔ previous.createRevision ≤ revision)) :
    (s.relabel ρ).Weighing (ρ.item item) (ρ.revision revision) kind
      (w.map (Verdict.relabel ρ)) := by
  have hget : ∀ {key found}, s.get? key = found →
      (s.relabel ρ).get? key = found.map (Record.relabel ρ) := by
    intro key found hfound
    rw [Store.relabel, get?_mapRecords, hfound]
  have hkeyed : ∀ {key?}, item.key? = key? → (ρ.item item).key? = key? :=
    fun hkey => (ρ.key?_item item).trans hkey
  cases h with
  | keyless hkey => exact .keyless (hkeyed hkey)
  | @added key hkey =>
    have hadded : (s.relabel ρ).Weighing (ρ.item item) (ρ.revision revision) .add _ :=
      .added (hkeyed hkey)
    have hinsert : (s.relabel ρ).insert key (.created (ρ.item item) (ρ.revision revision)) = _ :=
      insert_mapRecords s (Record.relabel ρ) key (.created item revision)
    rw [hget rfl, hinsert] at hadded
    exact hadded
  | @updated key previous hkey hfound hle =>
    have hupdated := Weighing.updated (hkeyed hkey) (hget hfound) ((hage key _ hfound).2 hle)
    have hinsert : (s.relabel ρ).insert key
        ⟨ρ.item item, (previous.relabel ρ).createRevision, ρ.revision revision⟩ = _ :=
      insert_mapRecords s (Record.relabel ρ) key ⟨item, previous.createRevision, revision⟩
    rw [hinsert] at hupdated
    exact hupdated
  | @deleted key previous hkey hfound hle =>
    have hdeleted := Weighing.deleted (hkeyed hkey) (hget hfound) ((hage key _ hfound).2 hle)
    have herase : (s.relabel ρ).erase key = _ := erase_mapRecords s (Record.relabel ρ) key
    rw [herase] at hdeleted
    exact hdeleted
  | absent hkey hkind hnone => exact .absent (hkeyed hkey) hkind (hget hnone)
  | @regressed _ key previous hkey hkind hfound hlt =>
    refine .regressed (hkeyed hkey) hkind (hget hfound) (Int.not_le.1 fun hle => ?_)
    exact absurd ((hage key _ hfound).1 hle) (Int.not_le.2 hlt)

/-- Weighing what was relabelled is relabelling what was weighed. -/
theorem weigh_relabel (s : Store) (ρ : Relabelling) (kind : EventKind) (item : Item)
    (hage : ∀ key previous, s.get? key = some previous →
      (ρ.revision previous.createRevision ≤ ρ.revision revision
        ↔ previous.createRevision ≤ revision)) :
    (s.relabel ρ).weigh kind (ρ.item item) (ρ.revision revision)
      = (s.weigh kind item revision).map (Verdict.relabel ρ) :=
  ((weighing_weigh s kind item revision).relabel hage).weigh_eq

end Store

end KeyRelay
