import KeyRelay.Proofs.Reduction.Weighing

set_option autoImplicit false

/-! # Where a batch breaks off

A batch crashes at its first item that the store cannot weigh: one without a key, or a new version
of an object that is younger than it (`Store.Breaks`). All items before it were reduced, and it has
taken its revision; nothing else has been done, and the items behind it play no part
(`Ledger.StopsAt.report`, `Ledger.StopsAt.ledger`). -/

namespace KeyRelay

/-- Some of the first items of an event. -/
def Event.upTo (event : Event) (count : Nat) : Event :=
  { event with items := event.items.take count }

/-! ## One item -/

namespace Store

/-- Weighing an item that has taken `revision` crashes. -/
inductive Breaks (s : Store) (kind : EventKind) (item : Item) (revision : Revision) :
    Crash → Prop
  /-- The item has no key, -/
  | keyless (hkey : item.key? = none) : Breaks s kind item revision .keyless
  /-- or the object that it updates or deletes was created at a later revision. -/
  | regressed {key : Key} {previous : Record} (hkey : item.key? = some key) (hkind : kind ≠ .add)
      (hfound : s.get? key = some previous) (hlt : revision < previous.createRevision) :
      Breaks s kind item revision .revisionRegressed

variable {s : Store} {kind : EventKind} {item : Item} {revision : Revision} {crash : Crash}

theorem weigh_eq_error_iff :
    s.weigh kind item revision = .error crash ↔ s.Breaks kind item revision crash := by
  have hweigh := weighing_weigh s kind item revision
  constructor
  · intro herror
    rw [herror] at hweigh
    cases hweigh with
    | keyless hkey => exact .keyless hkey
    | regressed hkey hkind hfound hlt => exact .regressed hkey hkind hfound hlt
  · intro hbreaks
    cases hbreaks with
    | keyless hkey => exact (Weighing.keyless hkey).weigh_eq
    | regressed hkey hkind hfound hlt => exact (Weighing.regressed hkey hkind hfound hlt).weigh_eq

end Store

/-! ## Some items, and the items behind them -/

/-- What some items came to without a crash, and then what the items behind them came to. -/
def Report.andThen (first second : Report) : Report where
  outcomes := first.outcomes ++ second.outcomes
  changes := first.changes ++ second.changes
  entries := first.entries ++ second.entries
  crash? := second.crash?

namespace Ledger

variable {l : Ledger} {kind : EventKind} {early : List Item}

theorem applyItems_append (h : (applyItems kind early l).1.crash? = none) (late : List Item) :
    applyItems kind (early ++ late) l
      = ((applyItems kind early l).1.andThen (applyItems kind late (applyItems kind early l).2).1,
          (applyItems kind late (applyItems kind early l).2).2) := by
  induction early generalizing l with
  | nil => rfl
  | cons item rest ih =>
    cases hweigh : l.store.weigh kind item (l.counter.current + 1) with
    | error crash =>
      rw [applyItems_of_error hweigh] at h
      simp at h
    | ok v =>
      rw [applyItems_of_ok hweigh] at h
      rw [List.cons_append, applyItems_of_ok hweigh, applyItems_of_ok hweigh, ih h]
      simp only [Report.andThen, Report.after, List.cons_append, List.append_assoc]

/-- Items that go through take one revision each. -/
theorem current_applyItems (h : (applyItems kind early l).1.crash? = none) :
    (applyItems kind early l).2.counter.current = l.counter.current + early.length := by
  induction early generalizing l with
  | nil => simp [applyItems]
  | cons item rest ih =>
    cases hweigh : l.store.weigh kind item (l.counter.current + 1) with
    | error crash =>
      rw [applyItems_of_error hweigh] at h
      simp at h
    | ok v =>
      rw [applyItems_of_ok hweigh] at h ⊢
      rw [ih h, List.length_cons, Int.natCast_succ, Int.add_right_comm, Int.add_assoc]

/-! ## The item at which an event breaks off -/

/-- The item at this place is the first one of the event that crashes. -/
structure StopsAt (l : Ledger) (event : Event) (i : Nat) (crash : Crash) : Prop where
  clear : (l.apply (event.upTo i)).1.crash? = none
  breaks : ∃ item, event.items[i]? = some item ∧
    (l.apply (event.upTo i)).2.store.Breaks event.kind item (l.counter.current + (i + 1)) crash

variable {event other : Event} {i : Nat} {crash : Crash}

theorem StopsAt.lt_length (h : l.StopsAt event i crash) : i < event.items.length := by
  obtain ⟨item, hitem, -⟩ := h.breaks
  exact (List.getElem?_eq_some_iff.1 hitem).1

theorem StopsAt.current (h : l.StopsAt event i crash) :
    (l.apply (event.upTo i)).2.counter.current = l.counter.current + i := by
  have hcount := current_applyItems h.clear
  rw [show (l.apply (event.upTo i)).2.counter.current = _ from hcount]
  show _ + ((event.items.take i).length : Int) = _
  rw [List.length_take, Nat.min_eq_left (Nat.le_of_lt h.lt_length)]

/-- What the items before it came to, and then the crash. -/
theorem StopsAt.applyItems (h : l.StopsAt event i crash) :
    applyItems event.kind event.items l
      = ((Ledger.applyItems event.kind (event.items.take i) l).1.andThen { crash? := some crash },
          ⟨⟨l.counter.current + (i + 1)⟩, (l.apply (event.upTo i)).2.store⟩) := by
  obtain ⟨item, hitem, hbreaks⟩ := h.breaks
  obtain ⟨hi, rfl⟩ := List.getElem?_eq_some_iff.1 hitem
  have hcurrent : l.counter.current + (i + 1)
      = (l.apply (event.upTo i)).2.counter.current + 1 := by
    rw [h.current, Int.add_assoc]
  have hfirst : (l.apply (event.upTo i)).2
      = (Ledger.applyItems event.kind (event.items.take i) l).2 := rfl
  have hclear : (Ledger.applyItems event.kind (event.items.take i) l).1.crash? = none := h.clear
  rw [hcurrent, hfirst] at hbreaks ⊢
  conv_lhs => rw [← List.take_append_drop i event.items, List.drop_eq_getElem_cons hi]
  rw [applyItems_append hclear, applyItems_of_error (Store.weigh_eq_error_iff.2 hbreaks)]

/-- Its report is that of the first items, with the crash. -/
theorem StopsAt.report (h : l.StopsAt event i crash) :
    (l.apply event).1.outcomes = (l.apply (event.upTo i)).1.outcomes
      ∧ (l.apply event).1.changes = (l.apply (event.upTo i)).1.changes
      ∧ (l.apply event).1.crash? = some crash := by
  refine ⟨?_, ?_, ?_⟩
  all_goals simp only [apply, h.applyItems, Report.andThen, List.append_nil]
  · rfl
  · rfl

/-- The counter has gone on by one revision for each of them and one for the item that crashed. -/
theorem StopsAt.ledger (h : l.StopsAt event i crash) :
    (l.apply event).2
      = ⟨⟨l.counter.current + (i + 1)⟩, (l.apply (event.upTo i)).2.store⟩ := by
  simp only [apply, h.applyItems]

/-- Nothing hangs on what comes behind. -/
theorem StopsAt.of_take (h : l.StopsAt event i crash) (hkind : other.kind = event.kind)
    (hitems : other.items.take (i + 1) = event.items.take (i + 1)) :
    other.upTo i = event.upTo i ∧ l.StopsAt other i crash := by
  have htake : other.items.take i = event.items.take i := by
    have := congrArg (List.take i) hitems
    simpa [List.take_take] using this
  have hupTo : other.upTo i = event.upTo i := by
    unfold Event.upTo
    rw [hkind, htake]
  have hitem : other.items[i]? = event.items[i]? := by
    have := congrArg (·[i]?) hitems
    simpa [List.getElem?_take] using this
  refine ⟨hupTo, ?_, ?_⟩
  · rw [hupTo]
    exact h.clear
  · rw [hupTo, hkind, hitem]
    exact h.breaks

/-- An event crashes exactly when one of its items does. -/
theorem crash?_eq_some_iff :
    (l.apply event).1.crash? = some crash ↔ ∃ i, l.StopsAt event i crash := by
  refine ⟨fun hcrash => ?_, fun ⟨i, h⟩ => h.report.2.2⟩
  -- All items that go through are put in front of those that are still to come.
  have hsearch : ∀ (late early : List Item), event.items = early ++ late →
      (applyItems event.kind early l).1.crash? = none → ∃ i, l.StopsAt event i crash := by
    intro late
    induction late with
    | nil =>
      intro early hitems hclear
      rw [List.append_nil] at hitems
      have hnone : (l.apply event).1.crash? = none := by
        show (applyItems event.kind event.items l).1.crash? = none
        rw [hitems]
        exact hclear
      rw [hcrash] at hnone
      simp at hnone
    | cons item rest ih =>
      intro early hitems hclear
      have hupTo : event.upTo early.length = ⟨event.kind, early⟩ := by
        unfold Event.upTo
        rw [hitems, List.take_left]
      have hcurrent := current_applyItems hclear
      have happly := applyItems_append hclear (item :: rest)
      cases hweigh : (applyItems event.kind early l).2.store.weigh event.kind item
          ((applyItems event.kind early l).2.counter.current + 1) with
      | error crash' =>
        rw [applyItems_of_error hweigh, ← hitems] at happly
        have heq : some crash' = some crash := by
          rw [← hcrash]
          show _ = (applyItems event.kind event.items l).1.crash?
          rw [happly]
          rfl
        obtain rfl := Option.some.inj heq
        refine ⟨early.length, ?_, item, ?_, ?_⟩
        · rw [hupTo]
          exact hclear
        · rw [hitems]
          simp
        · rw [hupTo, ← Int.add_assoc, ← hcurrent]
          exact Store.weigh_eq_error_iff.1 hweigh
      | ok v =>
        refine ih (early ++ [item]) (by rw [hitems, List.append_assoc]; rfl) ?_
        rw [applyItems_append hclear, applyItems_of_ok hweigh]
        rfl
  exact hsearch event.items [] rfl rfl

end Ledger

end KeyRelay
