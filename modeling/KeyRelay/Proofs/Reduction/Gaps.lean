import Mathlib.Data.Int.Init
import Mathlib.Data.List.Forall2
import KeyRelay.Proofs.Reduction.Reached
import KeyRelay.Proofs.Reduction.Relabelling

set_option autoImplicit false

/-! # Rejected items leave gaps and nothing else

An item that is rejected has taken a revision, and that is all. When the items of some events that
were rejected are left out, all that are left are applied, and everything comes to the same under
the revisions that close the gaps (`Ledger.onlyGaps_applyAll`).

The two runs have counters that drift apart with every item that is left out. What holds them
together is a renumbering of revisions that stands still where an item was rejected and goes on by
one everywhere else (`Skips`). -/

namespace KeyRelay

/-! ## Closing gaps -/

/-- What becomes of a revision when gaps are closed: it falls by the number of gaps up to it. -/
def closeGaps (gaps : List Revision) (r : Revision) : Revision := r - (gaps.countP (· ≤ r) : Int)

/-- After `low` and up to `high`, a renumbering stands still at each gap and goes on by one at every
    other revision. -/
def Skips (f : Revision → Revision) (gaps : List Revision) (low high : Revision) : Prop :=
  ∀ r, low < r → r ≤ high → f r = f (r - 1) + if r ∈ gaps then 0 else 1

section

variable {gaps : List Revision} {r r' low high : Revision}

theorem countP_le_of_nodup (h : gaps.Nodup) (r : Revision) :
    gaps.countP (· ≤ r) = gaps.countP (· ≤ r - 1) + if r ∈ gaps then 1 else 0 := by
  induction gaps with
  | nil => rfl
  | cons g rest ih =>
    obtain ⟨hg, hrest⟩ := List.nodup_cons.1 h
    rw [List.countP_cons, List.countP_cons, ih hrest]
    by_cases heq : r = g
    · subst heq
      have hnot : ¬ r ≤ r - 1 := Int.not_le.2 (Int.sub_lt_self r (by decide))
      simp [hg, hnot]
    · have hiff : g ≤ r ↔ g ≤ r - 1 := by
        unfold Revision at *
        omega
      simp only [hiff, List.mem_cons, heq, false_or]
      omega

theorem skips_closeGaps (h : gaps.Nodup) : Skips (closeGaps gaps) gaps low high := by
  intro r _ _
  have hcount := countP_le_of_nodup h r
  unfold closeGaps Revision at *
  by_cases hr : r ∈ gaps
  · rw [if_pos hr] at hcount ⊢
    omega
  · rw [if_neg hr] at hcount ⊢
    omega

/-- Nothing falls in front of the first gap. -/
theorem closeGaps_of_lt (h : ∀ g ∈ gaps, r < g) : closeGaps gaps r = r := by
  have hnone : gaps.countP (· ≤ r) = 0 := by
    refine List.countP_eq_zero.2 fun g hg => ?_
    simpa using h g hg
  rw [closeGaps, hnone]
  exact Int.sub_zero r

theorem closeGaps_le (h : gaps.Nodup) (hle : r ≤ r') : closeGaps gaps r ≤ closeGaps gaps r' := by
  induction r', hle using Int.leInduction with
  | base => exact Int.le_refl _
  | succ r' hle ih =>
    have hnext := skips_closeGaps h (r' + 1) (Int.lt_succ r') (Int.le_refl _)
    rw [Int.add_sub_cancel] at hnext
    refine Int.le_trans ih ?_
    rw [hnext]
    split
    · exact Int.le_of_eq (Int.add_zero _).symm
    · exact Int.le_of_lt (Int.lt_succ _)

/-- Two revisions do not fall together unless the later one is a gap. -/
theorem closeGaps_lt (h : gaps.Nodup) (hlt : r < r') (hr' : r' ∉ gaps) :
    closeGaps gaps r < closeGaps gaps r' := by
  have hle : closeGaps gaps r ≤ closeGaps gaps (r' - 1) :=
    closeGaps_le h (Int.le_sub_one_of_lt hlt)
  have hnext := skips_closeGaps h r' hlt (Int.le_refl _)
  rw [if_neg hr'] at hnext
  rw [hnext]
  exact Int.lt_add_one_of_le hle

/-- Nothing is left open: each revision in between is one that has fallen there. -/
theorem exists_closeGaps_eq (h : gaps.Nodup) (hle : low ≤ high) (hlow : closeGaps gaps low < r)
    (hhigh : r ≤ closeGaps gaps high) :
    ∃ r', low < r' ∧ r' ≤ high ∧ r' ∉ gaps ∧ closeGaps gaps r' = r := by
  induction high, hle using Int.leInduction with
  | base => exact absurd hlow (Int.not_lt.2 hhigh)
  | succ high hle ih =>
    have hnext := skips_closeGaps h (high + 1) (Int.lt_succ high) (Int.le_refl _)
    rw [Int.add_sub_cancel] at hnext
    by_cases hfallen : r ≤ closeGaps gaps high
    · obtain ⟨r', hlt, hle', hnot, heq⟩ := ih hfallen
      exact ⟨r', hlt, Int.le_trans hle' (Int.le_of_lt (Int.lt_succ high)), hnot, heq⟩
    · -- Then it is the last one that has got there.
      split at hnext
      · rw [hnext, Int.add_zero] at hhigh
        exact absurd hhigh hfallen
      · next hnot =>
          refine ⟨high + 1, Int.lt_add_one_of_le hle, Int.le_refl _, hnot, ?_⟩
          unfold Revision at *
          omega

end

/-! ## Leaving out what was rejected -/

/-- The revisions of the items that were rejected. -/
def rejected (outcomes : List Outcome) : List Revision :=
  (outcomes.filter fun o => !o.applied).map (·.revision)

/-- The items without those that were rejected. Items that were not looked at are left where they
    are. -/
def sift : List Item → List Outcome → List Item
  | item :: items, o :: outcomes =>
      if o.applied then item :: sift items outcomes else sift items outcomes
  | items, _ => items

section

variable {item : Item} {items : List Item} {o : Outcome} {outcomes : List Outcome}

theorem sift_of_applied (h : o.applied = true) :
    sift (item :: items) (o :: outcomes) = item :: sift items outcomes := by
  rw [sift, if_pos h]

theorem sift_of_rejected (h : o.applied = false) :
    sift (item :: items) (o :: outcomes) = sift items outcomes := by
  rw [sift, h, if_neg (by decide)]

end

def Event.sift (event : Event) (report : Report) : Event :=
  { event with items := KeyRelay.sift event.items report.outcomes }

theorem rejected_append (early late : List Outcome) :
    rejected (early ++ late) = rejected early ++ rejected late := by
  simp [rejected]

theorem rejected_sublist (outcomes : List Outcome) :
    (rejected outcomes).Sublist (outcomes.map (·.revision)) := List.filter_sublist.map _

/-- What a renumbering skips is split where outcomes are. -/
theorem Skips.split {f : Revision → Revision} {early late : List Outcome}
    {low middle high : Revision} (h : Skips f (rejected (early ++ late)) low high)
    (hearly : Rising low middle (early.map (·.revision)))
    (hlate : Rising middle high (late.map (·.revision))) :
    Skips f (rejected early) low middle ∧ Skips f (rejected late) middle high := by
  have hwithin := fun g hg => hearly.within g ((rejected_sublist early).subset hg)
  have hafter := fun g hg => hlate.within g ((rejected_sublist late).subset hg)
  rw [rejected_append] at h
  constructor
  · intro r hlow hmiddle
    have hnot : r ∉ rejected late := fun hr => absurd (hafter r hr).1 (Int.not_lt.2 hmiddle)
    rw [h r hlow (Int.le_trans hmiddle hlate.le)]
    simp only [List.mem_append, hnot, or_false]
  · intro r hmiddle hhigh
    have hnot : r ∉ rejected early := fun hr => absurd (hwithin r hr).2 (Int.not_le.2 hmiddle)
    rw [h r (Int.lt_of_le_of_lt hearly.le hmiddle) hhigh]
    simp only [List.mem_append, hnot, false_or]

/-- At a single outcome, a renumbering goes on exactly if the item was applied. -/
theorem Skips.single {f : Revision → Revision} {o : Outcome} {low : Revision}
    (h : Skips f (rejected [o]) low (low + 1)) (hrevision : o.revision = low + 1) :
    f (low + 1) = f low + if o.applied then 1 else 0 := by
  have hnext := h (low + 1) (Int.lt_succ low) (Int.le_refl _)
  rw [Int.add_sub_cancel] at hnext
  rw [hnext]
  cases happlied : o.applied <;> simp [rejected, happlied, hrevision]

/-- A report on what is left of an event whose rejected items were left out. -/
structure Report.Thins (ρ : Relabelling) (full thin : Report) : Prop where
  outcomes : thin.outcomes = (full.outcomes.filter (·.applied)).map (Outcome.relabel ρ)
  changes : thin.changes = full.changes.map (Change.relabel ρ)
  crash? : thin.crash? = full.crash?

section

variable {ρ : Relabelling} {full thin : Report} {v : Verdict}

/-- All that is left is applied. -/
theorem Report.Thins.all {fulls thins : List Report} (h : List.Forall₂ (Thins ρ) fulls thins) :
    ∀ report ∈ thins, ∀ o ∈ report.outcomes, o.applied = true := by
  induction h with
  | nil => simp
  | cons hfirst _ ih =>
    refine List.forall_mem_cons.2 ⟨fun o ho => ?_, ih⟩
    rw [hfirst.outcomes] at ho
    obtain ⟨own, hown, rfl⟩ := List.mem_map.1 ho
    exact (List.mem_filter.1 hown).2

theorem Report.Thins.after (h : Thins ρ full thin) (happlied : v.outcome.applied = true) :
    Thins ρ (full.after v) (thin.after (v.relabel ρ)) where
  outcomes := by
    simp only [Report.after, List.filter_cons_of_pos happlied, List.map_cons, h.outcomes]
    rfl
  changes := by
    simp only [Report.after, List.map_append, h.changes, Verdict.relabel]
    cases v.change? <;> rfl
  crash? := h.crash?

theorem Report.Thins.skip (h : Thins ρ full thin) (happlied : v.outcome.applied = false)
    (hchange : v.change? = none) : Thins ρ (full.after v) thin where
  outcomes := by
    simp only [Report.after, h.outcomes]
    rw [List.filter_cons_of_neg (by simp [happlied])]
  changes := by simp only [Report.after, hchange, Option.toList_none, List.nil_append, h.changes]
  crash? := h.crash?

end

/-- An item that is rejected leaves the store as it is and brings no change. -/
theorem Store.weigh_of_rejected {s : Store} {kind : EventKind} {item : Item} {revision : Revision}
    {v : Verdict} (hv : s.weigh kind item revision = .ok v) (happlied : v.outcome.applied = false) :
    v.store = s ∧ v.change? = none := by
  have hweigh := weighing_weigh s kind item revision
  rw [hv] at hweigh
  cases hweigh with
  | added _ | updated _ _ _ | deleted _ _ _ => simp at happlied
  | absent _ _ _ => exact ⟨rfl, rfl⟩

namespace Ledger

/-- A run without what was rejected in another run comes to the same under other revisions. -/
structure Thinned (ρ : Relabelling) (full thin : Report × Ledger) : Prop where
  report : full.1.Thins ρ thin.1
  ledger : thin.2 = full.2.relabel ρ

variable {l : Ledger} {f : Revision → Revision}

/-! ## The two runs -/

theorem UpToDate.weigh_renumbering (h : l.UpToDate) (hmono : ∀ {r r'}, r ≤ r' → f r ≤ f r')
    (kind : EventKind) (item : Item) :
    (l.relabel (.renumbering f)).store.weigh kind item (f (l.counter.current + 1))
      = (l.store.weigh kind item (l.counter.current + 1)).map
        (Verdict.relabel (.renumbering f)) := by
  refine l.store.weigh_relabel (.renumbering f) kind item fun key previous hfound => ?_
  have hle := h.le_next hfound
  exact iff_of_true (hmono hle) hle

/-- The next ledger under other revisions, once the renumbering has gone on. -/
theorem relabel_next (s : Store) (hnext : f (l.counter.current + 1) = f l.counter.current + 1) :
    (⟨⟨f l.counter.current + 1⟩, s.relabel (.renumbering f)⟩ : Ledger)
      = Ledger.relabel (.renumbering f) ⟨⟨l.counter.current + 1⟩, s⟩ := by
  rw [← hnext]
  rfl

section

variable {kind : EventKind} {item : Item} {rest left : List Item} {v : Verdict}

/-- An item that crashes is in both runs, and takes a revision in both. -/
theorem thinned_of_error (h : l.UpToDate) (hmono : ∀ {r r'}, r ≤ r' → f r ≤ f r') {crash : Crash}
    (hweigh : l.store.weigh kind item (l.counter.current + 1) = .error crash)
    (hnext : f (l.counter.current + 1) = f l.counter.current + 1) :
    Thinned (.renumbering f) (applyItems kind (item :: rest) l)
      (applyItems kind (item :: rest) (l.relabel (.renumbering f))) := by
  have hrelabel := h.weigh_renumbering hmono kind item
  rw [hweigh, hnext] at hrelabel
  rw [applyItems_of_error hweigh, applyItems_of_error (l := l.relabel (.renumbering f)) hrelabel]
  exact ⟨⟨rfl, rfl, rfl⟩, relabel_next l.store hnext⟩

/-- So is an item that is applied. -/
theorem thinned_of_applied (h : l.UpToDate) (hmono : ∀ {r r'}, r ≤ r' → f r ≤ f r')
    (hweigh : l.store.weigh kind item (l.counter.current + 1) = .ok v)
    (happlied : v.outcome.applied = true)
    (hnext : f (l.counter.current + 1) = f l.counter.current + 1)
    (hrest : Thinned (.renumbering f) (applyItems kind rest ⟨⟨l.counter.current + 1⟩, v.store⟩)
      (applyItems kind left (Ledger.relabel (.renumbering f) ⟨⟨l.counter.current + 1⟩, v.store⟩))) :
    Thinned (.renumbering f) (applyItems kind (item :: rest) l)
      (applyItems kind (item :: left) (l.relabel (.renumbering f))) := by
  have hrelabel := h.weigh_renumbering hmono kind item
  rw [hweigh, hnext] at hrelabel
  rw [applyItems_of_ok hweigh, applyItems_of_ok (l := l.relabel (.renumbering f)) hrelabel]
  rw [← relabel_next v.store hnext] at hrest
  exact ⟨hrest.report.after happlied, hrest.ledger⟩

/-- Without an item that is rejected the run stays where it is, and so does the renumbering. -/
theorem thinned_of_rejected (hweigh : l.store.weigh kind item (l.counter.current + 1) = .ok v)
    (happlied : v.outcome.applied = false)
    (hnext : f (l.counter.current + 1) = f l.counter.current)
    (hrest : Thinned (.renumbering f) (applyItems kind rest ⟨⟨l.counter.current + 1⟩, v.store⟩)
      (applyItems kind left (Ledger.relabel (.renumbering f) ⟨⟨l.counter.current + 1⟩, v.store⟩))) :
    Thinned (.renumbering f) (applyItems kind (item :: rest) l)
      (applyItems kind left (l.relabel (.renumbering f))) := by
  obtain ⟨hstore, hchange⟩ := Store.weigh_of_rejected hweigh happlied
  have hsame : l.relabel (.renumbering f)
      = Ledger.relabel (.renumbering f) ⟨⟨l.counter.current + 1⟩, v.store⟩ := by
    simp only [relabel, Relabelling.renumbering, hnext, hstore]
  rw [applyItems_of_ok hweigh, hsame]
  exact ⟨hrest.report.skip happlied hchange, hrest.ledger⟩

/-- What a renumbering skips over a batch, it skips at its first item and over the rest. -/
theorem skips_of_ok (h : l.Fresh)
    (hweigh : l.store.weigh kind item (l.counter.current + 1) = .ok v)
    (hskips : Skips f (rejected (applyItems kind (item :: rest) l).1.outcomes)
      l.counter.current (applyItems kind (item :: rest) l).2.counter.current) :
    f (l.counter.current + 1) = f l.counter.current + (if v.outcome.applied then 1 else 0)
      ∧ Skips f
        (rejected (applyItems kind rest ⟨⟨l.counter.current + 1⟩, v.store⟩).1.outcomes)
        (l.counter.current + 1)
        (applyItems kind rest ⟨⟨l.counter.current + 1⟩, v.store⟩).2.counter.current := by
  have hrevision := (Store.revision_weigh hweigh).2.1
  have hone : Rising l.counter.current (l.counter.current + 1)
      ([v.outcome].map (·.revision)) := by
    rw [List.map_singleton, hrevision]
    exact .single _
  have hrising := ((h.weigh hweigh).applyItems kind rest).outcomes
  rw [applyItems_of_ok hweigh] at hskips
  have hboth : Skips f (rejected ([v.outcome] ++ _)) _ _ := hskips
  obtain ⟨hfirst, hlater⟩ := hboth.split hone hrising
  exact ⟨hfirst.single hrevision, hlater⟩

end

/-- Leaving out the rejected items of a batch. -/
theorem thinned_applyItems (hmono : ∀ {r r'}, r ≤ r' → f r ≤ f r') (kind : EventKind)
    (items : List Item) (h : l.Fresh)
    (hskips : Skips f (rejected (applyItems kind items l).1.outcomes) l.counter.current
      (applyItems kind items l).2.counter.current) :
    Thinned (.renumbering f) (applyItems kind items l)
      (applyItems kind (sift items (applyItems kind items l).1.outcomes)
        (l.relabel (.renumbering f))) := by
  induction items generalizing l with
  | nil => exact ⟨⟨rfl, rfl, rfl⟩, rfl⟩
  | cons item rest ih =>
    cases hweigh : l.store.weigh kind item (l.counter.current + 1) with
    | error crash =>
      have houtcomes : (applyItems kind (item :: rest) l).1.outcomes = [] := by
        rw [applyItems_of_error hweigh]
      have hcurrent : (applyItems kind (item :: rest) l).2.counter.current
          = l.counter.current + 1 := by
        rw [applyItems_of_error hweigh]
      rw [houtcomes, hcurrent] at hskips
      have hnext := hskips (l.counter.current + 1) (Int.lt_succ _) (Int.le_refl _)
      rw [Int.add_sub_cancel, if_neg (by simp [rejected])] at hnext
      rw [houtcomes]
      exact thinned_of_error h.upToDate hmono hweigh hnext
    | ok v =>
      obtain ⟨hnext, hlater⟩ := skips_of_ok h hweigh hskips
      have hrest := ih (h.weigh hweigh) hlater
      have houtcomes : (applyItems kind (item :: rest) l).1.outcomes = v.outcome
          :: (applyItems kind rest ⟨⟨l.counter.current + 1⟩, v.store⟩).1.outcomes := by
        rw [applyItems_of_ok hweigh]
        rfl
      rw [houtcomes]
      cases happlied : v.outcome.applied with
      | true =>
        rw [happlied, if_pos rfl] at hnext
        rw [sift_of_applied happlied]
        exact thinned_of_applied h.upToDate hmono hweigh happlied hnext hrest
      | false =>
        rw [happlied, if_neg (by decide), Int.add_zero] at hnext
        rw [sift_of_rejected happlied]
        exact thinned_of_rejected hweigh happlied hnext hrest

/-- The gaps that events leave: the revisions of the items that were rejected. -/
def gaps (events : List Event) (l : Ledger) : List Revision :=
  rejected ((applyAll events l).1.flatMap (·.outcomes))

/-- The events without the items that were rejected. -/
def sift (events : List Event) (l : Ledger) : List Event :=
  List.zipWith Event.sift events (applyAll events l).1

theorem thinned_apply (hmono : ∀ {r r'}, r ≤ r' → f r ≤ f r') (event : Event) (h : l.Fresh)
    (hskips : Skips f (rejected (l.apply event).1.outcomes) l.counter.current
      (l.apply event).2.counter.current) :
    Thinned (.renumbering f) (l.apply event)
      ((l.relabel (.renumbering f)).apply (event.sift (l.apply event).1)) := by
  obtain ⟨⟨houtcomes, hchanges, hcrash⟩, hledger⟩ :=
    thinned_applyItems hmono event.kind event.items h hskips
  exact ⟨⟨houtcomes, hchanges, hcrash⟩, hledger⟩

theorem thinned_applyAll (hmono : ∀ {r r'}, r ≤ r' → f r ≤ f r') (events : List Event)
    (h : l.Fresh)
    (hskips : Skips f (gaps events l) l.counter.current (applyAll events l).2.counter.current) :
    List.Forall₂ (Report.Thins (.renumbering f)) (applyAll events l).1
        (applyAll (sift events l) (l.relabel (.renumbering f))).1
      ∧ (applyAll (sift events l) (l.relabel (.renumbering f))).2
        = (applyAll events l).2.relabel (.renumbering f) := by
  induction events generalizing l with
  | nil => exact ⟨.nil, rfl⟩
  | cons event rest ih =>
    have hfirst := h.apply event
    obtain ⟨hskipsFirst, hskipsRest⟩ :=
      Skips.split hskips hfirst.outcomes (hfirst.fresh.applyAll rest).2
    obtain ⟨hreport, hledger⟩ := thinned_apply hmono event h hskipsFirst
    obtain ⟨hreports, hlast⟩ := ih hfirst.fresh hskipsRest
    rw [← hledger] at hreports hlast
    exact ⟨.cons hreport hreports, hlast⟩

/-! ## What is left of events -/

/-- What comes of events when the items that were rejected are left out. -/
structure OnlyGaps (events : List Event) (l : Ledger) (ρ : Relabelling) : Prop where
  /-- All items that are left are applied, up to a crash if there is one. -/
  applied : List.Forall₂
    (fun report event => (∀ o ∈ report.outcomes, o.applied = true)
      ∧ (report.crash? = none → report.outcomes.length = event.items.length))
    (applyAll (sift events l) l).1 (sift events l)
  /-- Each event comes to the same outcomes, but for the rejected ones, to the same changes and to
      the same crash if there is one, under other revisions. -/
  reports : List.Forall₂ (Report.Thins ρ) (applyAll events l).1 (applyAll (sift events l) l).1
  /-- So do the store and the counter. -/
  ledger : (applyAll (sift events l) l).2 = (applyAll events l).2.relabel ρ
  /-- No other items stand for the items that are left. -/
  item : ρ.item = id
  /-- The revisions that had been handed out are left alone, -/
  fixed : ∀ r ≤ l.counter.current, ρ.revision r = r
  /-- and so are the records. -/
  untouched : ∀ key record, l.store.get? key = some record → record.relabel ρ = record
  /-- Later revisions are later, but for the gaps, -/
  ordered : ∀ r r', r < r' → r' ∉ gaps events l → ρ.revision r < ρ.revision r'
  /-- and the gaps are closed: what is handed out are the revisions that have come for others which
      are no gaps. -/
  closed : ∀ r, l.counter.current < r ∧ r ≤ (applyAll (sift events l) l).2.counter.current
    ↔ ∃ r', l.counter.current < r' ∧ r' ≤ (applyAll events l).2.counter.current
        ∧ r' ∉ gaps events l ∧ ρ.revision r' = r

/-- Where all revisions are fixed that were handed out, nothing is relabelled. -/
theorem Fresh.relabel_eq (h : l.Fresh) (hsorted : l.store.Sorted)
    (hfixed : ∀ r ≤ l.counter.current, f r = r) :
    (∀ key record, l.store.get? key = some record → record.relabel (.renumbering f) = record)
      ∧ l.relabel (.renumbering f) = l := by
  have hrecord : ∀ key record, l.store.get? key = some record →
      record.relabel (.renumbering f) = record := by
    intro key record hfound
    obtain ⟨-, hle, hlast⟩ := h.bounds hfound
    simp only [Record.relabel, Relabelling.renumbering, id, hfixed _ hlast,
      hfixed _ (Int.le_trans hle hlast)]
  refine ⟨hrecord, ?_⟩
  have hstore : l.store.relabel (.renumbering f) = l.store := by
    refine (hsorted.mapRecords _).ext hsorted fun key => ?_
    rw [Store.get?_mapRecords]
    cases hfound : l.store.get? key with
    | none => rfl
    | some record => exact congrArg some (hrecord key record hfound)
  rw [relabel, hstore]
  exact congrArg (fun r => Ledger.mk ⟨r⟩ l.store) (hfixed _ (Int.le_refl _))

/-- **Rejected items leave only gaps.** Whatever events are applied, from a ledger that reducers can
    come to: if the items that were rejected are left out, all others are applied, and store,
    changes and outcomes are the same under the revisions that close the gaps. -/
theorem onlyGaps_applyAll (h : l.Reached) (events : List Event) :
    OnlyGaps events l (.renumbering (closeGaps (gaps events l))) := by
  have hrising := (h.fresh.applyAll events).2.sublist (rejected_sublist _)
  have hnodup : (gaps events l).Nodup := hrising.ordered.imp fun hlt => Int.ne_of_lt hlt
  have hfixed : ∀ r ≤ l.counter.current, closeGaps (gaps events l) r = r := by
    intro r hr
    exact closeGaps_of_lt fun g hg => Int.lt_of_le_of_lt hr (hrising.within g hg).1
  obtain ⟨hrecords, hsame⟩ := h.fresh.relabel_eq h.sound.sorted hfixed
  obtain ⟨hreports, hledger⟩ := thinned_applyAll (closeGaps_le hnodup) events h.fresh
    (skips_closeGaps hnodup)
  rw [hsame] at hreports hledger
  have hcurrent : (applyAll (sift events l) l).2.counter.current
      = closeGaps (gaps events l) (applyAll events l).2.counter.current := by
    rw [hledger]
    rfl
  constructor
  case applied =>
    exact (List.forall₂_and_left _ _).2
      ⟨Report.Thins.all hreports, forall₂_applyAll (sift events l) l⟩
  case reports => exact hreports
  case ledger => exact hledger
  case item => rfl
  case fixed => exact hfixed
  case untouched => exact hrecords
  case ordered => exact fun r r' hlt hr' => closeGaps_lt hnodup hlt hr'
  case closed =>
    intro r
    constructor
    · rintro ⟨hlow, hhigh⟩
      rw [hcurrent] at hhigh
      exact exists_closeGaps_eq hnodup hrising.le (by rwa [hfixed _ (Int.le_refl _)]) hhigh
    · rintro ⟨r', hlow, hhigh, hnot, rfl⟩
      have hlt := closeGaps_lt hnodup hlow hnot
      rw [hfixed _ (Int.le_refl _)] at hlt
      exact ⟨hlt, hcurrent ▸ closeGaps_le hnodup hhigh⟩

/-- Two objects are there. An update and two deletes come for objects that are not there, one of
    them for an object that was there before, and one event breaks off. -/
theorem onlyGaps_repeated :
    let pair := fun key value => Item.raw ⟨key, [value]⟩
    let start := (({} : Ledger).apply ⟨.add, [pair "a" 1, pair "b" 2]⟩).2
    let l : Ledger := ⟨start.counter.next.2, start.store⟩
    let events : List Event :=
      [⟨.update, [pair "c" 3, pair "a" 4]⟩,
        ⟨.delete, [pair "b" 5, pair "b" 6, .keyless, pair "a" 7]⟩,
        ⟨.update, [pair "a" 8, pair "b" 9]⟩, ⟨.add, [pair "c" 10]⟩]
    l.Reached ∧ OnlyGaps events l (.renumbering (closeGaps (gaps events l)))
      ∧ gaps events l = [4, 7, 10]
      ∧ sift events l
        = [⟨.update, [pair "a" 4]⟩, ⟨.delete, [pair "b" 5, .keyless, pair "a" 7]⟩,
            ⟨.update, [pair "a" 8]⟩, ⟨.add, [pair "c" 10]⟩]
      ∧ (applyAll events l).2.store.records = [⟨pair "a" 8, 1, 9⟩, ⟨pair "c" 10, 11, 11⟩]
      ∧ (applyAll (sift events l) l).2.store.records = [⟨pair "a" 8, 1, 7⟩, ⟨pair "c" 10, 8, 8⟩]
      ∧ (applyAll (sift events l) l).1.map (·.crash?) = [none, some .keyless, none, none] := by
  intro pair start l events
  have hreached : l.Reached := (Reached.start.apply _).next
  exact ⟨hreached, onlyGaps_applyAll hreached events, by decide, by decide, by decide, by decide,
    by decide⟩

end Ledger

end KeyRelay
