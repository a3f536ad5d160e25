import KeyRelay.Proofs.Reduction.Weighing

set_option autoImplicit false

/-! # Changes can be replayed

The changes that reduction reports say everything that it did to the store: replayed in order on
the store from before, they give the store from after (`Ledger.evolves_applyAll`). What concerns
some keys only can be replayed on the part of the store that holds these keys (`Evolves.only`), and
the records of a store, read as changes, give the store back (`Sound.ofRecords_records`). So a
reader who has the records of some keys, and learns of the changes to them, is never out of date. -/

namespace KeyRelay

/-- What is found under the key of a change after it. -/
def Change.leaves? (c : Change) : Option Record :=
  match c.kind with
  | .put => some c.record
  | .delete => none

/-- A change to one of the wanted keys. -/
def Change.concerns (wanted : Key → Bool) (c : Change) : Bool := c.key?.any wanted

namespace Store

/-! ## Replaying a change -/

/-- Does to a store what a change says: the record is stored under its key, or the key is
    removed. -/
def replay (s : Store) (c : Change) : Store :=
  match c.key?, c.kind with
  | none, _ => s
  | some key, .put => s.insert key c.record
  | some key, .delete => s.erase key

theorem get?_replay {c : Change} {key : Key} (hkey : c.key? = some key) (s : Store) (k : Key) :
    (s.replay c).get? k = if key = k then c.leaves? else s.get? k := by
  unfold replay Change.leaves?
  rw [hkey]
  cases c.kind with
  | put => exact get?_insert s key k c.record
  | delete => exact get?_erase s key k

theorem Sorted.replay {s : Store} (h : s.Sorted) (c : Change) : (s.replay c).Sorted := by
  unfold Store.replay
  split
  · exact h
  · exact h.insert _ _
  · exact h.erase _

/-- Replaying a change on a part of the store does what it does to the whole, or nothing at all if
    it is none of the wanted keys that changes. -/
theorem Sorted.only_replay {s : Store} (h : s.Sorted) (c : Change) (wanted : Key → Bool) :
    (s.replay c).only wanted
      = if c.concerns wanted then (s.only wanted).replay c else s.only wanted := by
  unfold Change.concerns
  cases hkey : c.key? with
  | none => simp [Store.replay, hkey]
  | some key =>
    by_cases hwanted : wanted key = true
    · rw [Option.any_some, if_pos hwanted]
      refine ((h.replay c).only wanted).ext ((h.only wanted).replay c) fun k => ?_
      rw [get?_only, get?_replay hkey, get?_replay hkey, get?_only]
      by_cases hk : key = k
      · rw [if_pos hk, if_pos hk, if_pos (hk ▸ hwanted)]
      · rw [if_neg hk, if_neg hk]
    · rw [Option.any_some, if_neg hwanted]
      refine ((h.replay c).only wanted).ext (h.only wanted) fun k => ?_
      rw [get?_only, get?_replay hkey, get?_only]
      by_cases hk : key = k
      · rw [if_neg (hk ▸ hwanted), if_neg (hk ▸ hwanted)]
      · rw [if_neg hk]

/-! ## Records as a store -/

/-- Every record stands under its own key, and the keys stand in order. -/
structure Sound (s : Store) : Prop where
  sorted : s.Sorted
  own : ∀ {key record}, s.get? key = some record → record.key? = some key

theorem sound_empty : Sound {} := ⟨sorted_empty, by simp⟩

theorem Sound.replay {s : Store} (h : s.Sound) (c : Change) : (s.replay c).Sound := by
  refine ⟨h.sorted.replay c, fun {k record} hfound => ?_⟩
  cases hkey : c.key? with
  | none =>
    rw [Store.replay, hkey] at hfound
    exact h.own hfound
  | some key =>
    rw [get?_replay hkey] at hfound
    split at hfound
    · next hk =>
        rw [Change.leaves?] at hfound
        split at hfound
        · obtain rfl := Option.some.inj hfound
          exact hk ▸ hkey
        · simp at hfound
    · exact h.own hfound

theorem Sound.only {s : Store} (h : s.Sound) (wanted : Key → Bool) : (s.only wanted).Sound := by
  refine ⟨h.sorted.only wanted, fun {k record} hfound => ?_⟩
  rw [get?_only] at hfound
  split at hfound
  · exact h.own hfound
  · simp at hfound

/-- The store that holds these records, each under its own key. -/
def ofRecords (records : List Record) : Store :=
  records.foldl (fun s record => s.replay (.put record none)) {}

theorem insertEntry_eq_append {key : Key} (record : Record) {entries : List (Key × Record)}
    (h : ∀ e ∈ entries, Key.Before e.1 key) :
    insertEntry key record entries = entries ++ [(key, record)] := by
  induction entries with
  | nil => rfl
  | cons entry rest ih =>
    have hlt : Key.Before entry.1 key := h entry List.mem_cons_self
    have hge : ¬ Key.Before key entry.1 := List.lt_asymm hlt
    simp only [insertEntry, if_neg hlt.ne.symm, if_neg hge, List.cons_append]
    rw [ih fun e he => h e (List.mem_cons_of_mem _ he)]

/-- Records in key order are stored one behind the other. -/
theorem foldl_put_records {early late : List (Key × Record)}
    (hsorted : (early ++ late).Pairwise fun a b => Key.Before a.1 b.1)
    (hown : ∀ e ∈ late, e.2.key? = some e.1) :
    (late.map (·.2)).foldl (fun s record => s.replay (.put record none)) (mk early)
      = mk (early ++ late) := by
  induction late generalizing early with
  | nil => simp
  | cons entry rest ih =>
    have hkey : (Change.put entry.2 none).key? = some entry.1 := hown entry List.mem_cons_self
    have hlast : ∀ e ∈ early, Key.Before e.1 entry.1 := fun e he =>
      (List.pairwise_append.1 hsorted).2.2 e he entry List.mem_cons_self
    have hput : replay (mk early) (.put entry.2 none) = mk (early ++ [entry]) := by
      rw [replay, hkey]
      exact congrArg Store.mk (insertEntry_eq_append entry.2 hlast)
    have hsplit : early ++ entry :: rest = early ++ [entry] ++ rest := by simp
    rw [List.map_cons, List.foldl_cons, hput, hsplit]
    exact ih (hsplit ▸ hsorted) fun e he => hown e (List.mem_cons_of_mem _ he)

/-- The records of a store say everything about it. -/
theorem Sound.ofRecords_records {s : Store} (h : s.Sound) : ofRecords s.records = s := by
  have hown : ∀ e ∈ s.entries, e.2.key? = some e.1 := fun e he =>
    h.own ((h.sorted.mem_entries_iff e.1 e.2).1 he)
  exact foldl_put_records (show ([] ++ s.entries).Pairwise _ from h.sorted) hown

/-! ## One store from another -/

/-- A store comes from another one by these changes, all of them to known keys. -/
structure Evolves (s : Store) (changes : List Change) (t : Store) : Prop where
  keyed : ∀ c ∈ changes, c.key?.isSome = true
  eq_foldl : t = changes.foldl replay s

variable {s t u : Store} {changes more : List Change}

theorem Evolves.refl (s : Store) : Evolves s [] s := ⟨by simp, rfl⟩

theorem Evolves.trans (h : Evolves s changes t) (hmore : Evolves t more u) :
    Evolves s (changes ++ more) u where
  keyed := by
    intro c hc
    rcases List.mem_append.1 hc with hc | hc
    · exact h.keyed c hc
    · exact hmore.keyed c hc
  eq_foldl := by rw [List.foldl_append, ← h.eq_foldl, ← hmore.eq_foldl]

theorem Evolves.sound (h : Evolves s changes t) (hs : s.Sound) : t.Sound := by
  obtain ⟨-, rfl⟩ := h
  induction changes generalizing s with
  | nil => exact hs
  | cons c rest ih => exact ih (hs.replay c)

theorem evolves_put (s : Store) (record : Record) {key : Key} (hkey : record.key? = some key)
    (previous : Option Record) : s.Evolves [.put record previous] (s.insert key record) := by
  have hc : (Change.put record previous).key? = some key := hkey
  refine ⟨by simp [hc], ?_⟩
  rw [List.foldl_cons, List.foldl_nil, replay, hc]
  rfl

theorem evolves_delete (s : Store) (tombstone : Record) {key : Key}
    (hkey : tombstone.key? = some key) (previous : Record) :
    s.Evolves [.delete tombstone previous] (s.erase key) := by
  have hc : (Change.delete tombstone previous).key? = some key := hkey
  refine ⟨by simp [hc], ?_⟩
  rw [List.foldl_cons, List.foldl_nil, replay, hc]
  rfl

/-- The changes that concern the wanted keys make the same of the part of the store that holds
    these keys. -/
theorem Evolves.only (h : Evolves s changes t) (hs : s.Sorted) (wanted : Key → Bool) :
    t.only wanted = (changes.filter (·.concerns wanted)).foldl replay (s.only wanted) := by
  obtain ⟨-, rfl⟩ := h
  induction changes generalizing s with
  | nil => rfl
  | cons c rest ih =>
    rw [List.foldl_cons, ih (hs.replay c), hs.only_replay, List.filter_cons]
    split <;> rfl

end Store

/-! ## Reduction -/

/-- What is done to the store for an item is what its change says, and nothing if there is none. -/
theorem Store.evolves_weigh {s : Store} {kind : EventKind} {item : Item} {revision : Revision}
    {v : Verdict} (hv : s.weigh kind item revision = .ok v) :
    s.Evolves v.change?.toList v.store := by
  have hweigh := weighing_weigh s kind item revision
  generalize s.weigh kind item revision = r at hweigh hv
  cases hweigh with
  | keyless _ => simp at hv
  | added hkey =>
    obtain rfl := Except.ok.inj hv
    exact evolves_put s (.created item revision) hkey _
  | @updated _ previous hkey _ _ =>
    obtain rfl := Except.ok.inj hv
    exact evolves_put s ⟨item, previous.createRevision, revision⟩ hkey _
  | @deleted _ previous hkey _ _ =>
    obtain rfl := Except.ok.inj hv
    exact evolves_delete s ⟨item, previous.createRevision, revision⟩ hkey _
  | absent _ _ _ =>
    obtain rfl := Except.ok.inj hv
    exact .refl s
  | regressed _ _ _ _ => simp at hv

namespace Ledger

/-- What is done to the store for some items is what the reported changes say, up to a crash if
    there is one. -/
theorem evolves_applyItems (kind : EventKind) (items : List Item) (l : Ledger) :
    l.store.Evolves (applyItems kind items l).1.changes (applyItems kind items l).2.store := by
  induction items generalizing l with
  | nil => exact .refl l.store
  | cons item rest ih =>
    cases hweigh : l.store.weigh kind item (l.counter.current + 1) with
    | error crash =>
      rw [applyItems_of_error hweigh]
      exact .refl l.store
    | ok v =>
      rw [applyItems_of_ok hweigh]
      exact (Store.evolves_weigh hweigh).trans (ih ⟨⟨l.counter.current + 1⟩, v.store⟩)

theorem evolves_apply (l : Ledger) (event : Event) :
    l.store.Evolves (l.apply event).1.changes (l.apply event).2.store :=
  evolves_applyItems event.kind event.items l

theorem evolves_applyAll (events : List Event) (l : Ledger) :
    l.store.Evolves ((applyAll events l).1.flatMap (·.changes)) (applyAll events l).2.store := by
  induction events generalizing l with
  | nil => exact .refl l.store
  | cons event rest ih => exact (evolves_apply l event).trans (ih _)

end Ledger

end KeyRelay
