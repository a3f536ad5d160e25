import Mathlib.Data.List.Induction
import KeyRelay.Proofs.Reduction.Replay

set_option autoImplicit false

/-! # A store as a finite map

A store that was empty at first and has seen any puts and deletes since answers what the list of
these edits says (`Store.answers_editAll`): under a key stands the record that was put last, unless
something was deleted under that key afterwards. This determines what is found (`get?_edit`). The
order of the keys makes a range read exact: what it lists are the records of all keys that are the
stem with something behind it, and no others. -/

namespace KeyRelay

/-- The first record has the lower key. -/
def Record.Precedes (a b : Record) : Prop :=
  ∃ ka kb, a.key? = some ka ∧ b.key? = some kb ∧ Key.Before ka kb

namespace Store

/-! ## Edits -/

/-- What can be done to a store. -/
inductive Edit where
  | put (record : Record)
  /-- Removes the key of this record. -/
  | delete (record : Record)
  deriving Repr, DecidableEq

namespace Edit

/-- The key that is written to. -/
def key? : Edit → Option Key
  | .put record | .delete record => record.key?

/-- What stands under the key afterwards. -/
def leaves? : Edit → Option Record
  | .put record => some record
  | .delete _ => none

end Edit

/-- Carries out an edit. One whose record cannot tell its key breaks off before it has done
    anything. -/
def edit (s : Store) : Edit → Store
  | .put record =>
      match s.put record with
      | .ok t => t
      | .error _ => s
  | .delete record =>
      match s.delete record with
      | .ok (_, t) => t
      | .error _ => s

/-- Carries out edits one after the other. -/
def editAll (s : Store) (edits : List Edit) : Store := edits.foldl edit s

/-- The record was put under this key, and no edit after that was under this key. -/
def Lasts (edits : List Edit) (key : Key) (record : Record) : Prop :=
  ∃ before after, edits = before ++ .put record :: after ∧ record.key? = some key
    ∧ ∀ e ∈ after, e.key? ≠ some key

theorem not_lasts_nil (key : Key) (record : Record) : ¬ Lasts [] key record := by
  rintro ⟨before, after, hedits, -⟩
  simp at hedits

/-- Of the edits under a key only the last one counts. -/
theorem lasts_snoc (edits : List Edit) (e : Edit) (key : Key) (record : Record) :
    Lasts (edits ++ [e]) key record
      ↔ if e.key? = some key then e.leaves? = some record else Lasts edits key record := by
  constructor
  · rintro ⟨before, after, hedits, hkey, hafter⟩
    rcases List.eq_nil_or_concat after with rfl | ⟨early, last, rfl⟩
    · obtain rfl := List.singleton_inj.1 (List.append_inj' hedits rfl).2
      rw [if_pos (show (Edit.put record).key? = some key from hkey)]
      rfl
    · -- The last edit is one of those after the put, so it was under another key.
      rw [List.concat_eq_append, ← List.cons_append, ← List.append_assoc] at hedits
      obtain ⟨rfl, hlast⟩ := List.append_inj' hedits rfl
      obtain rfl := List.singleton_inj.1 hlast
      rw [if_neg (hafter e (by simp))]
      exact ⟨before, early, rfl, hkey, fun d hd => hafter d (by simp [hd])⟩
  · intro h
    split at h
    · next hkey =>
        cases e with
        | put put =>
          obtain rfl := Option.some.inj h
          exact ⟨edits, [], rfl, hkey, by simp⟩
        | delete _ => simp [Edit.leaves?] at h
    · next hkey =>
        obtain ⟨before, after, rfl, hrecord, hafter⟩ := h
        refine ⟨before, after ++ [e], by simp, hrecord, fun d hd => ?_⟩
        rcases List.mem_append.1 hd with hd | hd
        · exact hafter d hd
        · obtain rfl := List.mem_singleton.1 hd
          exact hkey

/-! ## What an edit does -/

variable {s : Store} {record : Record} {key : Key}

theorem put_of_key? (hkey : record.key? = some key) (s : Store) :
    s.put record = .ok (s.insert key record) := by
  rw [put, hkey]

theorem delete_of_key? (hkey : record.key? = some key) (s : Store) :
    s.delete record = .ok (s.get? key, s.erase key) := by
  rw [delete, hkey]

theorem edit_of_keyless {e : Edit} (hkey : e.key? = none) (s : Store) : s.edit e = s := by
  cases e with
  | put record => rw [edit, put, show record.key? = none from hkey]
  | delete record => rw [edit, delete, show record.key? = none from hkey]

/-- An edit decides what stands under its own key, and leaves the others alone. -/
theorem get?_edit (s : Store) (e : Edit) (k : Key) :
    (s.edit e).get? k = if e.key? = some k then e.leaves? else s.get? k := by
  cases hkey : e.key? with
  | none => rw [edit_of_keyless hkey, if_neg (by simp)]
  | some key =>
    simp only [Option.some.injEq]
    cases e with
    | put record =>
      rw [edit, put_of_key? hkey]
      exact get?_insert s key k record
    | delete record =>
      rw [edit, delete_of_key? hkey]
      exact get?_erase s key k

theorem Sound.edit (h : s.Sound) (e : Edit) : (s.edit e).Sound := by
  constructor
  case sorted =>
    cases hkey : e.key? with
    | none =>
      rw [edit_of_keyless hkey]
      exact h.sorted
    | some key =>
      cases e with
      | put record =>
        rw [Store.edit, put_of_key? hkey]
        exact h.sorted.insert key record
      | delete record =>
        rw [Store.edit, delete_of_key? hkey]
        exact h.sorted.erase key
  case own =>
    intro key record hfound
    rw [get?_edit] at hfound
    split at hfound
    · next hkey =>
        cases e with
        | put put =>
          obtain rfl := Option.some.inj hfound
          exact hkey
        | delete _ => simp [Edit.leaves?] at hfound
    · exact h.own hfound

theorem Sound.editAll (h : s.Sound) (edits : List Edit) : (s.editAll edits).Sound := by
  induction edits generalizing s with
  | nil => exact h
  | cons e rest ih => exact ih (h.edit e)

/-- What is found after the edits is what was put last. -/
theorem get?_editAll_iff (edits : List Edit) (key : Key) (record : Record) :
    (editAll {} edits).get? key = some record ↔ Lasts edits key record := by
  induction edits using List.reverseRecOn with
  | nil => simpa [editAll] using not_lasts_nil key record
  | append_singleton edits e ih =>
    rw [editAll, List.foldl_append, List.foldl_cons, List.foldl_nil, get?_edit, lasts_snoc]
    split
    · rfl
    · exact ih

/-! ## Keys and ranges -/

theorem keys_erase (s : Store) (key : Key) : (s.erase key).keys = s.keys.filter (· ≠ key) := by
  simp [keys, erase, List.filter_map, Function.comp_def]

theorem Sorted.mem_keys_iff (h : s.Sorted) (key : Key) :
    key ∈ s.keys ↔ (s.get? key).isSome = true := by
  rw [keys, List.mem_map, Option.isSome_iff_exists]
  constructor
  · rintro ⟨⟨k, record⟩, hin, rfl⟩
    exact ⟨record, (h.mem_entries_iff k record).1 hin⟩
  · rintro ⟨record, hfound⟩
    exact ⟨(key, record), (h.mem_entries_iff key record).2 hfound, rfl⟩

/-- The records stand in the order of their keys. -/
theorem Sorted.map_some_records (h : s.Sorted) : s.records.map some = s.keys.map s.get? := by
  rw [records, keys, List.map_map, List.map_map]
  refine List.map_congr_left fun e he => ?_
  exact ((h.mem_entries_iff e.1 e.2).1 he).symm

theorem Sorted.mem_range_iff (h : s.Sorted) (stem : Key) (record : Record) :
    record ∈ s.range stem
      ↔ ∃ key, s.get? key = some record ∧ ∃ rest : Key, key = stem ++ rest := by
  rw [h.range_eq, records, List.mem_map]
  constructor
  · rintro ⟨⟨key, record⟩, hin, rfl⟩
    obtain ⟨hin, hbegins⟩ := List.mem_filter.1 hin
    exact ⟨key, (h.mem_entries_iff key record).1 hin, Key.beginsWith_iff_exists.1 hbegins⟩
  · rintro ⟨key, hfound, hbegins⟩
    refine ⟨(key, record), List.mem_filter.2 ⟨?_, Key.beginsWith_iff_exists.2 hbegins⟩, rfl⟩
    exact (h.mem_entries_iff key record).2 hfound

theorem Sound.pairwise_records (h : s.Sound) : s.records.Pairwise Record.Precedes := by
  rw [records, List.pairwise_map]
  refine h.sorted.imp_of_mem fun {a b} ha hb hlt => ?_
  have hown : ∀ e ∈ s.entries, e.2.key? = some e.1 := fun e he =>
    h.own ((h.sorted.mem_entries_iff e.1 e.2).1 he)
  exact ⟨a.1, b.1, hown a ha, hown b hb, hlt⟩

theorem Sound.pairwise_range (h : s.Sound) (stem : Key) :
    (s.range stem).Pairwise Record.Precedes := by
  rw [h.sorted.range_eq]
  exact (h.only _).pairwise_records

theorem Sorted.range_empty (h : s.Sorted) : s.range "" = s.records := by
  have hall : s.only (Key.beginsWith · "") = s := by
    refine (h.only _).ext h fun key => ?_
    rw [get?_only, if_pos (Key.beginsWith_iff_exists.2 ⟨key, by simp⟩)]
  rw [h.range_eq, hall]

/-! ## The store as a map -/

/-- The store answers as these edits say, when it was empty before them. -/
structure Answers (edits : List Edit) (s : Store) : Prop where
  /-- The keys stand in strictly ascending order of the bytes of their encodings. -/
  ascending : s.keys.Pairwise fun a b => a.toByteArray.data.toList < b.toByteArray.data.toList
  size : s.size = s.keys.length
  isEmpty : s.isEmpty = true ↔ s.keys = []
  mem_keys : ∀ key, key ∈ s.keys ↔ (s.get? key).isSome = true
  /-- Under a key stands the record that was put last, if nothing was deleted there since. -/
  get : ∀ key record, s.get? key = some record ↔ Lasts edits key record
  own : ∀ key record, s.get? key = some record → record.key? = some key
  /-- A record that can tell its key can be put. -/
  put : ∀ record key, record.key? = some key → ∃ t, s.put record = .ok t
    ∧ ∀ k, t.get? k = if k = key then some record else s.get? k
  /-- A delete answers what stood under the key, and removes this key only. -/
  delete : ∀ record key, record.key? = some key → ∃ t, s.delete record = .ok (s.get? key, t)
    ∧ t.keys = s.keys.filter (· ≠ key) ∧ ∀ k, t.get? k = if k = key then none else s.get? k
  /-- Only the key of the record matters for that. -/
  delete_congr : ∀ record other, record.key? = other.key? → s.delete record = s.delete other
  /-- A range read lists the records of all keys that are the stem with something behind it, -/
  range : ∀ stem record, record ∈ s.range stem
    ↔ ∃ key, s.get? key = some record ∧ ∃ rest : Key, key = stem ++ rest
  /-- each once, in the order of the keys. -/
  ordered : ∀ stem, (s.range stem).Pairwise Record.Precedes
  /-- The empty stem stands for the whole store, which is what is found under all its keys. -/
  whole : (s.range "").map some = s.keys.map s.get?

theorem Sound.answers {edits : List Edit} (h : s.Sound)
    (hget : ∀ key record, s.get? key = some record ↔ Lasts edits key record) :
    Answers edits s where
  ascending := List.pairwise_map.2 h.sorted
  size := (List.length_map _).symm
  isEmpty := by rw [Store.isEmpty, List.isEmpty_iff, keys, List.map_eq_nil_iff]
  mem_keys := h.sorted.mem_keys_iff
  get := hget
  own := fun _ _ => h.own
  put := by
    intro record key hkey
    refine ⟨_, put_of_key? hkey s, fun k => ?_⟩
    rw [get?_insert]
    exact if_congr eq_comm rfl rfl
  delete := by
    intro record key hkey
    refine ⟨_, delete_of_key? hkey s, keys_erase s key, fun k => ?_⟩
    rw [get?_erase]
    exact if_congr eq_comm rfl rfl
  delete_congr := by
    intro record other hkey
    rw [Store.delete, Store.delete, hkey]
  range := h.sorted.mem_range_iff
  ordered := h.pairwise_range
  whole := by rw [h.sorted.range_empty, h.sorted.map_some_records]

/-- **The store is a finite map.** Whatever was put and deleted, in whatever order, and whatever
    the keys are, an originally empty store answers accordingly. -/
theorem answers_editAll (edits : List Edit) : Answers edits (editAll {} edits) :=
  (sound_empty.editAll edits).answers (get?_editAll_iff edits)

end Store

end KeyRelay
