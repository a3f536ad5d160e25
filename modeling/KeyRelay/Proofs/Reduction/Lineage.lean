import Mathlib.Data.List.Chain
import KeyRelay.Proofs.Reduction.Freshness
import KeyRelay.Proofs.Reduction.Replay

set_option autoImplicit false

/-! # The changes of a key hang together

Whoever keeps the changes of one key in order has its whole history: every change names the record
that the change before it left, and what the last one left is what the store holds (`Lineage`). A
change is built in another way for each kind of event, but always around what the store held under
its key, so one more change carries a history on (`Lineage.snoc`), and all changes that reduction
reports make up such histories, one for every key (`Ledger.Recounts`). -/

namespace KeyRelay

/-! ## What is told of changes -/

/-- A change that was told of, with what the event had said that brought it. -/
structure Told where
  cause : Option EventKind
  change : Change
  deriving DecidableEq

/-- What a change looks like that comes of an event of this kind. An update and a delete carry on
    the object that was there, which is older than they are; an add starts a new one. -/
inductive Change.Brought : Option EventKind → Change → Prop
  | added {record : Record} {previous : Option Record}
      (hcreated : record.createRevision = record.modifyRevision) :
      Brought (some .add) (.put record previous)
  | updated {record previous : Record} (hcreated : record.createRevision = previous.createRevision)
      (hlt : previous.createRevision < record.modifyRevision) :
      Brought (some .update) (.put record (some previous))
  | deleted {tombstone previous : Record}
      (hcreated : tombstone.createRevision = previous.createRevision)
      (hlt : previous.createRevision < tombstone.modifyRevision) :
      Brought (some .delete) (.delete tombstone previous)

/-- The changes that were told of a key. -/
def toldOf (key : Key) (told : List Told) : List Told :=
  told.filter fun t => t.change.key? = some key

/-- What was told of one key, in order, and the record that is held under it after that. -/
structure Lineage (told : List Told) (held : Option Record) : Prop where
  /-- At first a record is put where there was none. -/
  first : ∀ t, told.head? = some t → t.change.kind = .put ∧ t.change.previous = none
  /-- Every change names the record that the one before it left, and there is no delete after a
      delete. -/
  linked : told.IsChain fun t u => u.change.previous = t.change.leaves?
    ∧ ¬ (t.change.kind = .delete ∧ u.change.kind = .delete)
  /-- Every change looks as its event says. -/
  brought : ∀ t ∈ told, t.change.Brought t.cause
  /-- What the last change left is held. -/
  held : held = told.getLast?.bind (·.change.leaves?)

/-! ## One more change -/

/-- Where there was no record, one is put. -/
theorem Change.Brought.kind_of_previous {cause : Option EventKind} {c : Change}
    (h : c.Brought cause) (hnone : c.previous = none) : c.kind = .put := by
  cases h with
  | added _ => rfl
  | updated _ _ => rfl
  | deleted _ _ => simp [Change.delete] at hnone

theorem Change.leaves?_of_delete {c : Change} (h : c.kind = .delete) : c.leaves? = none := by
  rw [leaves?, h]

theorem Lineage.nil : Lineage [] none := ⟨by simp, List.isChain_nil, by simp, rfl⟩

/-- A change that names the record which is held carries the history on. -/
theorem Lineage.snoc {told : List Told} {held : Option Record} (h : Lineage told held) {t : Told}
    (hprevious : t.change.previous = held) (hbrought : t.change.Brought t.cause) :
    Lineage (told ++ [t]) t.change.leaves? := by
  constructor
  case first =>
    intro u hu
    cases told with
    | nil =>
      obtain rfl : t = u := by simpa using hu
      have hnone : t.change.previous = none := hprevious.trans h.held
      exact ⟨hbrought.kind_of_previous hnone, hnone⟩
    | cons first rest => exact h.first u (by simpa using hu)
  case linked =>
    refine List.isChain_append.2 ⟨h.linked, List.isChain_singleton t, fun u hu v hv => ?_⟩
    obtain rfl : t = v := by simpa using hv
    have hleft : t.change.previous = u.change.leaves? := by
      rw [hprevious, h.held, Option.mem_def.1 hu]
      rfl
    -- After a delete nothing is left, and a delete needs something to delete.
    refine ⟨hleft, fun ⟨hdeleted, hdelete⟩ => ?_⟩
    rw [Change.leaves?_of_delete hdeleted] at hleft
    rw [hbrought.kind_of_previous hleft] at hdelete
    simp at hdelete
  case brought =>
    intro u hu
    rcases List.mem_append.1 hu with hu | hu
    · exact h.brought u hu
    · obtain rfl := List.mem_singleton.1 hu
      exact hbrought
  case held => simp

namespace Ledger

/-! ## The histories of all keys -/

/-- What was told is, for every key, the history of what is held under it. -/
structure Recounts (l : Ledger) (told : List Told) : Prop where
  fresh : l.Fresh
  lineage : ∀ key, Lineage (toldOf key told) (l.store.get? key)

theorem recounts_empty : Recounts {} [] := ⟨fresh_empty, fun _ => .nil⟩

variable {l : Ledger} {told : List Told}

/-- A change that names what is held under its key, and is then done to the store, carries on the
    history of its key and no other one. -/
theorem Recounts.lineage_snoc (h : l.Recounts told) {s : Store} {key : Key} {t : Told}
    (hkey : t.change.key? = some key) (hprevious : t.change.previous = l.store.get? key)
    (hbrought : t.change.Brought t.cause)
    (hget : ∀ k, s.get? k = if key = k then t.change.leaves? else l.store.get? k) (k : Key) :
    Lineage (toldOf k (told ++ [t])) (s.get? k) := by
  rw [hget, toldOf, List.filter_append]
  by_cases hk : key = k
  · subst hk
    rw [if_pos rfl, List.filter_cons_of_pos (by simpa using hkey)]
    exact (h.lineage key).snoc hprevious hbrought
  · rw [if_neg hk, List.filter_cons_of_neg (by simpa [hkey] using hk), List.filter_nil,
      List.append_nil]
    exact h.lineage k

/-- One item: it is told of as it is done to the store. -/
theorem Recounts.weigh (h : l.Recounts told) {kind : EventKind} {item : Item} {v : Verdict}
    (hv : l.store.weigh kind item (l.counter.current + 1) = .ok v) :
    Recounts ⟨l.counter.next.2, v.store⟩ (told ++ v.change?.toList.map (Told.mk (some kind))) := by
  refine ⟨h.fresh.weigh hv, ?_⟩
  -- What is held under a key was created before the item that is weighed against it.
  have holder : ∀ {key previous}, l.store.get? key = some previous →
      previous.createRevision < l.counter.current + 1 := fun hfound =>
    Int.lt_add_one_of_le (h.fresh.upToDate _ _ hfound)
  have hweigh := Store.weighing_weigh l.store kind item (l.counter.current + 1)
  rw [hv] at hweigh
  cases hweigh with
  | @added key hkey =>
    exact h.lineage_snoc hkey rfl (.added rfl) fun k => Store.get?_insert _ key k _
  | @updated key previous hkey hfound _ =>
    exact h.lineage_snoc hkey hfound.symm (.updated rfl (holder hfound)) fun k =>
      Store.get?_insert _ key k _
  | @deleted key previous hkey hfound _ =>
    exact h.lineage_snoc hkey hfound.symm (.deleted rfl (holder hfound)) fun k =>
      Store.get?_erase _ key k
  | absent _ _ _ =>
    show ∀ key, Lineage (toldOf key (told ++ [])) _
    rw [List.append_nil]
    exact h.lineage

theorem Recounts.next (h : l.Recounts told) : Recounts ⟨l.counter.next.2, l.store⟩ told :=
  ⟨h.fresh.next, h.lineage⟩

theorem Recounts.applyItems (h : l.Recounts told) (kind : EventKind) (items : List Item) :
    (applyItems kind items l).2.Recounts
      (told ++ (applyItems kind items l).1.changes.map (Told.mk (some kind))) := by
  induction items generalizing l told with
  | nil => simpa [Ledger.applyItems] using h
  | cons item rest ih =>
    cases hweigh : l.store.weigh kind item (l.counter.current + 1) with
    | error crash =>
      rw [applyItems_of_error hweigh, List.map_nil, List.append_nil]
      exact h.next
    | ok v =>
      rw [applyItems_of_ok hweigh]
      have hrest := ih (h.weigh hweigh)
      rw [List.append_assoc, ← List.map_append] at hrest
      exact hrest

theorem Recounts.apply (h : l.Recounts told) (event : Event) :
    (l.apply event).2.Recounts
      (told ++ (l.apply event).1.changes.map (Told.mk (some event.kind))) :=
  h.applyItems event.kind event.items

end Ledger

end KeyRelay
