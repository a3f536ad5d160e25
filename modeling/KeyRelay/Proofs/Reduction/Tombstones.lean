import KeyRelay.Proofs.Reduction.Reached
import KeyRelay.Proofs.Reduction.Verdicts

set_option autoImplicit false

/-! # What a delete leaves behind

A delete that is accepted publishes a tombstone and the record that was held before it. The
tombstone keeps the creation of that record and carries the revision of the delete. What it holds is
the item that came with the delete: this is the last value of the key only if the producer has sent
the last value once more (`Ledger.tombstone_apply`). -/

namespace KeyRelay

/-- The change that the item at this place has brought, if it was applied: every item before it that
    was applied has brought one as well. -/
def Report.changeAt? (r : Report) (i : Nat) : Option Change :=
  r.changes[(r.outcomes.take i).countP (·.applied)]?

/-- The record with another revision of its last change. -/
def Record.at (r : Record) (revision : Revision) : Record := { r with modifyRevision := revision }

/-- What a list of verdicts brings stands in the place of those before it that have brought
    something. -/
theorem getElem?_filterMap_countP {α β : Type} {f : α → Option β} {xs : List α} {i : Nat} {a : α}
    {b : β} (ha : xs[i]? = some a) (hb : f a = some b) :
    (xs.filterMap f)[(xs.take i).countP fun x => (f x).isSome]? = some b := by
  induction xs generalizing i with
  | nil => simp at ha
  | cons x rest ih =>
    cases i with
    | zero =>
      obtain rfl : x = a := by simpa using ha
      simp [hb]
    | succ i =>
      have hrest := ih (by simpa using ha)
      cases hx : f x with
      | none => simpa [hx] using hrest
      | some y => simpa [hx] using hrest

namespace Ledger

/-- The change that an applied item has brought is the one of its verdict. -/
theorem changeAt?_of_getElem?_verdicts {kind : EventKind} {items : List Item} {l : Ledger} {i : Nat}
    {v : Verdict} (hv : (verdicts kind items l)[i]? = some v) {change : Change}
    (hchange : v.change? = some change) :
    (applyItems kind items l).1.changeAt? i = some change := by
  obtain ⟨houtcomes, hchanges, -⟩ := report_eq_verdicts kind items l
  have happlied : ∀ w ∈ (verdicts kind items l).take i, w.outcome.applied = w.change?.isSome := by
    intro w hw
    obtain ⟨j, hj⟩ := List.getElem?_of_mem (List.mem_of_mem_take hw)
    obtain ⟨item, key, -, hon⟩ := on_of_getElem?_verdicts hj
    exact hon.applied
  rw [Report.changeAt?, houtcomes, hchanges, ← List.map_take, List.countP_map]
  rw [List.countP_congr fun w hw => by rw [Function.comp_apply, happlied w hw]]
  exact getElem?_filterMap_countP hv hchange

/-- **What a delete tells.** Whatever the ledger has come to, and whatever items a delete comes
    with: for every one of them that is applied, the record that was held before it is published
    as the previous one, with a tombstone that keeps its creation, carries the revision of the
    delete and holds the item of the delete. So the tombstone is the last record with a new revision
    exactly if that item is the last value. -/
theorem tombstone_apply (l : Ledger) (items : List Item) {i : Nat} {outcome : Outcome}
    (houtcome : (l.apply ⟨.delete, items⟩).1.outcomes[i]? = some outcome)
    (happlied : outcome.applied = true) :
    ∃ item last, items[i]? = some item ∧ item.key? = some outcome.key
      ∧ (l.apply ⟨.delete, items.take i⟩).2.store.get? outcome.key = some last
      ∧ outcome.revision = l.counter.current + i + 1
      ∧ (l.apply ⟨.delete, items⟩).1.changeAt? i
        = some (.delete ⟨item, last.createRevision, outcome.revision⟩ last)
      ∧ ((⟨item, last.createRevision, outcome.revision⟩ : Record) = last.at outcome.revision
        ↔ item = last.item) := by
  have houtcomes := (report_eq_verdicts .delete items l).1
  obtain ⟨v, hv, rfl⟩ : ∃ v, (verdicts .delete items l)[i]? = some v ∧ v.outcome = outcome := by
    have hi : (applyItems .delete items l).1.outcomes[i]? = some outcome := houtcome
    rw [houtcomes, List.getElem?_map] at hi
    exact Option.map_eq_some_iff.1 hi
  obtain ⟨item, key, hitem, hon⟩ := on_of_getElem?_verdicts hv
  -- What is deleted was there, and the verdict tells of it.
  obtain ⟨change, hchange⟩ := Option.isSome_iff_exists.1 (hon.applied.symm.trans happlied)
  have hbrought := hon.change?.symm.trans hchange
  cases hlast : (applyItems .delete (items.take i) l).2.store.get? key with
  | none => simp [hlast, Change.broughtBy] at hbrought
  | some last =>
    have houtcome : v.outcome = ⟨true, key, l.counter.current + i + 1⟩ := by
      simpa [hlast] using hon.outcome
    have htold : v.change?
        = some (.delete ⟨item, last.createRevision, l.counter.current + i + 1⟩ last) := by
      rw [hon.change?, hlast]
      rfl
    rw [houtcome]
    refine ⟨item, last, hitem, hon.keyed, hlast, rfl, changeAt?_of_getElem?_verdicts hv htold, ?_⟩
    simp [Record.at]

/-- A delete of several keys, the first of them with the last value and the second one with another,
    and the third one in vain. -/
theorem tombstone_apply_several :
    let pair := fun key value => Item.raw ⟨key, [value]⟩
    let l := ((({} : Ledger).apply ⟨.add, [pair "a" 1, pair "b" 2]⟩).2.apply
      ⟨.update, [pair "a" 3]⟩).2
    let items := [pair "a" 3, pair "a" 4, pair "b" 5]
    (l.apply ⟨.delete, items⟩).1.outcomes[2]? = some ⟨true, "b", 6⟩
      ∧ (∃ item last, items[2]? = some item ∧ item.key? = some "b"
        ∧ (l.apply ⟨.delete, items.take 2⟩).2.store.get? "b" = some last
        ∧ (6 : Revision) = l.counter.current + (2 : Nat) + 1
        ∧ (l.apply ⟨.delete, items⟩).1.changeAt? 2
          = some (.delete ⟨item, last.createRevision, 6⟩ last)
        ∧ ((⟨item, last.createRevision, 6⟩ : Record) = last.at 6 ↔ item = last.item))
      ∧ (l.apply ⟨.delete, items⟩).1.changes
        = [.delete ⟨pair "a" 3, 1, 4⟩ ⟨pair "a" 3, 1, 3⟩,
            .delete ⟨pair "b" 5, 2, 6⟩ ⟨pair "b" 2, 2, 2⟩] := by
  intro pair l items
  have houtcome : (l.apply ⟨.delete, items⟩).1.outcomes[2]? = some ⟨true, "b", 6⟩ := by decide
  exact ⟨houtcome, tombstone_apply l items houtcome rfl, by decide⟩

/-- A tombstone need not be the last record with a new revision: a key is added with one value and
    deleted with another, and it is the second value that is told. -/
theorem tombstone_not_last :
    let added := Item.raw ⟨"/a", [1]⟩
    let deleting := Item.raw ⟨"/a", [2]⟩
    let l := (({} : Ledger).apply ⟨.add, [added]⟩).2
    l.Reached
      ∧ l.store.get? "/a" = some ⟨added, 1, 1⟩
      ∧ (l.apply ⟨.delete, [deleting]⟩).1.outcomes = [⟨true, "/a", 2⟩]
      ∧ (l.apply ⟨.delete, [deleting]⟩).1.changes
        = [.delete ⟨deleting, 1, 2⟩ ⟨added, 1, 1⟩]
      ∧ deleting ≠ added := by
  intro added deleting l
  exact ⟨Reached.start.apply _, by decide, by decide, by decide, by decide⟩

end Ledger

end KeyRelay
