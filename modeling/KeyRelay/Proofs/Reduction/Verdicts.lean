import KeyRelay.Proofs.Reduction.Weighing

set_option autoImplicit false

/-! # A verdict for each item

What a batch comes to is told three times: by outcomes, by changes and by notes. All three are read
off one list of verdicts, one for each item up to a crash (`Ledger.verdicts`). -/

namespace KeyRelay

namespace Ledger

/-! ## The verdicts on a batch -/

/-- The verdicts on some items, one after the other, up to the first crash. -/
def verdicts (kind : EventKind) : List Item → Ledger → List Verdict
  | [], _ => []
  | item :: rest, l =>
      match l.store.weigh kind item (l.counter.current + 1) with
      | .error _ => []
      | .ok v => v :: verdicts kind rest ⟨⟨l.counter.current + 1⟩, v.store⟩

variable {kind : EventKind} {item : Item} {items rest : List Item} {l : Ledger} {v : Verdict}

theorem verdicts_of_ok (h : l.store.weigh kind item (l.counter.current + 1) = .ok v) :
    verdicts kind (item :: rest) l
      = v :: verdicts kind rest ⟨⟨l.counter.current + 1⟩, v.store⟩ := by
  simp only [verdicts, h]

theorem verdicts_of_error {crash : Crash}
    (h : l.store.weigh kind item (l.counter.current + 1) = .error crash) :
    verdicts kind (item :: rest) l = [] := by
  simp only [verdicts, h]

/-- Outcomes, changes and notes are read off the verdicts. -/
theorem report_eq_verdicts (kind : EventKind) (items : List Item) (l : Ledger) :
    (applyItems kind items l).1.outcomes = (verdicts kind items l).map (·.outcome)
      ∧ (applyItems kind items l).1.changes = (verdicts kind items l).filterMap (·.change?)
      ∧ (applyItems kind items l).1.entries = (verdicts kind items l).map (·.entry) := by
  induction items generalizing l with
  | nil => exact ⟨rfl, rfl, rfl⟩
  | cons item rest ih =>
    cases hweigh : l.store.weigh kind item (l.counter.current + 1) with
    | error crash =>
      rw [applyItems_of_error hweigh, verdicts_of_error hweigh]
      exact ⟨rfl, rfl, rfl⟩
    | ok v =>
      obtain ⟨houtcomes, hchanges, hentries⟩ := ih ⟨⟨l.counter.current + 1⟩, v.store⟩
      rw [applyItems_of_ok hweigh, verdicts_of_ok hweigh]
      refine ⟨?_, ?_, ?_⟩
      · simp only [Report.after, List.map_cons, houtcomes]
      · simp only [Report.after, List.filterMap_cons, hchanges]
        cases v.change? <;> rfl
      · simp only [Report.after, List.map_cons, hentries]

/-- The verdict at a place is the one on the item there, which has come upon the store as the items
    before it have left it, and has taken the revision of its place. -/
theorem on_of_getElem?_verdicts {i : Nat} (hv : (verdicts kind items l)[i]? = some v) :
    ∃ item key, items[i]? = some item
      ∧ v.On (applyItems kind (items.take i) l).2.store kind item key
        (l.counter.current + i + 1) := by
  induction items generalizing l i with
  | nil => simp [verdicts] at hv
  | cons item rest ih =>
    cases hweigh : l.store.weigh kind item (l.counter.current + 1) with
    | error crash =>
      rw [verdicts_of_error hweigh] at hv
      simp at hv
    | ok first =>
      rw [verdicts_of_ok hweigh] at hv
      cases i with
      | zero =>
        obtain rfl : first = v := by simpa using hv
        obtain ⟨key, hon⟩ := Store.on_weigh hweigh
        exact ⟨item, key, rfl, by simpa [applyItems] using hon⟩
      | succ i =>
        obtain ⟨later, key, hitem, hon⟩ := ih (by simpa using hv)
        refine ⟨later, key, by simpa using hitem, ?_⟩
        rw [List.take_succ_cons, applyItems_of_ok hweigh]
        have hrevision : l.counter.current + 1 + i + 1 = l.counter.current + (i + 1 : Nat) + 1 := by
          unfold Revision
          omega
        exact hrevision ▸ hon

end Ledger

end KeyRelay
