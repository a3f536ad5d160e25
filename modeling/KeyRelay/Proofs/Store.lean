import Mathlib.Tactic.Common
import KeyRelay.Store

set_option autoImplicit false

/-! # What a store holds

A store is known by two views: `get?`, which asks for one key, and its list of entries, which is
sorted by the bytes of the keys. Every operation that writes is described by what it does to the
first view, and keeps the order of the second one.

A range read looks at the entries between the first key that is not below its stem and the first
one after it that does not begin with the stem. In a sorted store these are all entries whose keys
begin with the stem (`Sorted.range_eq`): no such key is below the stem, and every key that is above
the stem without beginning with it is above all the keys that do. -/

namespace KeyRelay

/-! ## The order of keys -/

/-- What begins with `stem` is not below it. -/
theorem not_lt_of_prefix {stem l : List UInt8} (h : stem <+: l) : ¬ l < stem := by
  obtain ⟨rest, rfl⟩ := h
  induction stem with
  | nil => simp
  | cons b stem ih => simpa [List.cons_lt_cons_iff] using ih

/-- What is above `stem` without beginning with it is above everything that begins with it. -/
theorem append_lt_of_not_prefix {stem l : List UInt8} (h : stem < l) (hp : ¬ stem <+: l)
    (rest : List UInt8) : stem ++ rest < l := by
  induction stem generalizing l with
  | nil => exact absurd List.nil_prefix hp
  | cons b stem ih =>
    cases l with
    | nil => exact absurd h (by simp)
    | cons c l =>
      rw [List.cons_append, List.cons_lt_cons_iff]
      rcases List.cons_lt_cons_iff.1 h with hlt | ⟨rfl, hlt⟩
      · -- The first bytes differ, so what comes behind `stem` is never looked at.
        exact Or.inl hlt
      · refine Or.inr ⟨rfl, ih hlt fun hpre => hp ?_⟩
        exact List.cons_prefix_cons.2 ⟨rfl, hpre⟩

namespace Key

theorem not_before_self (a : Key) : ¬ Before a a := List.lt_irrefl a.bytes

theorem Before.trans {a b c : Key} (hab : Before a b) (hbc : Before b c) : Before a c :=
  List.lt_trans hab hbc

theorem Before.ne {a b : Key} (h : Before a b) : a ≠ b := by
  rintro rfl
  exact not_before_self a h

theorem before_of_not_before {a b : Key} (hne : a ≠ b) (h : ¬ Before a b) : Before b a := by
  by_contra hba
  exact hne (eq_of_bytes_eq (List.le_antisymm (List.not_lt.1 hba) (List.not_lt.1 h)))

theorem beginsWith_iff {key stem : Key} : beginsWith key stem = true ↔ stem.bytes <+: key.bytes :=
  List.isPrefixOf_iff_prefix

theorem not_before_of_beginsWith {key stem : Key} (h : beginsWith key stem = true) :
    ¬ Before key stem :=
  not_lt_of_prefix (beginsWith_iff.1 h)

/-- Behind the keys that begin with a stem comes no further one. -/
theorem not_beginsWith_of_before {stem a b : Key} (hstem : ¬ Before a stem)
    (ha : beginsWith a stem = false) (hab : Before a b) : beginsWith b stem = false := by
  rw [← Bool.not_eq_true, beginsWith_iff] at ha ⊢
  rintro ⟨rest, hrest⟩
  have hne : stem ≠ a := fun h => ha (h ▸ List.prefix_refl _)
  have hlt : stem.bytes < a.bytes := before_of_not_before hne.symm hstem
  have hba : b.bytes < a.bytes := hrest ▸ append_lt_of_not_prefix hlt ha rest
  exact List.lt_asymm hab hba

theorem bytes_append (stem rest : Key) : bytes (stem ++ rest) = stem.bytes ++ rest.bytes := by
  simp [bytes]

theorem length_bytes (key : Key) : key.bytes.length = key.utf8ByteSize := by
  simp [bytes]

/-- What begins with the bytes of a stem is the stem with a text behind it: after the encoding of a
    text comes the beginning of a character. -/
theorem beginsWith_iff_exists {key stem : Key} :
    beginsWith key stem = true ↔ ∃ rest : Key, key = stem ++ rest := by
  rw [beginsWith_iff]
  constructor
  · intro hprefix
    have hfront : key.toByteArray.extract 0 stem.utf8ByteSize = stem.toByteArray := by
      obtain ⟨rest, hrest⟩ := hprefix
      apply ByteArray.ext
      apply Array.toList_inj.1
      rw [ByteArray.data_extract, Array.toList_extract]
      simp only [bytes] at hrest
      rw [← hrest]
      simp [List.extract]
    have hcut : String.Pos.Raw.IsValid key ⟨stem.utf8ByteSize⟩ := by
      refine String.Pos.Raw.isValid_iff_isValidUTF8_extract_zero.2 ⟨?_, ?_⟩
      · have hle := hprefix.length_le
        rw [length_bytes, length_bytes] at hle
        exact hle
      · rw [hfront]
        exact stem.isValidUTF8
    obtain ⟨front, rest, rfl, hend⟩ := String.Pos.Raw.isValid_iff_exists_append.1 hcut
    have hlength : stem.bytes.length = (bytes front).length := by
      rw [length_bytes, length_bytes]
      exact congrArg String.Pos.Raw.byteIdx hend
    rw [bytes_append] at hprefix
    have hpart : stem.bytes <+: bytes front :=
      List.prefix_of_prefix_length_le hprefix (List.prefix_append _ _) (Nat.le_of_eq hlength)
    exact ⟨rest, by rw [eq_of_bytes_eq (hpart.eq_of_length hlength)]⟩
  · rintro ⟨rest, rfl⟩
    rw [bytes_append]
    exact List.prefix_append _ _

end Key

namespace Store

/-! ## Looking up after writing -/

theorem find?_insertEntry (key k : Key) (record : Record) (entries : List (Key × Record)) :
    (insertEntry key record entries).find? (fun e => e.1 = k)
      = if key = k then some (key, record) else entries.find? (fun e => e.1 = k) := by
  induction entries with
  | nil => by_cases h : key = k <;> simp [insertEntry, h]
  | cons entry rest ih =>
    obtain ⟨k', r⟩ := entry
    simp only [insertEntry]
    split
    · next heq =>
        subst heq
        by_cases h : key = k <;> simp [h]
    · next hne =>
        split
        · by_cases h : key = k <;> simp [h]
        · by_cases h : key = k
          · subst h
            simp [Ne.symm hne, ih]
          · by_cases hk : k' = k <;> simp [hk, ih, h]

/-- Storing a record changes what is found under its key and nothing else. -/
theorem get?_insert (s : Store) (key k : Key) (record : Record) :
    (s.insert key record).get? k = if key = k then some record else s.get? k := by
  simp only [get?, insert, find?_insertEntry]
  split <;> rfl

/-- Removing a key leaves all others alone. -/
theorem get?_erase (s : Store) (key k : Key) :
    (s.erase key).get? k = if key = k then none else s.get? k := by
  simp only [get?, erase, List.find?_filter]
  by_cases h : key = k
  · subst h
    simp
  · simp only [if_neg h]
    congr 2
    funext e
    by_cases hk : e.1 = k
    · simp [hk, Ne.symm h]
    · simp [hk]

@[simp]
theorem get?_empty (k : Key) : ({} : Store).get? k = none := rfl

/-! ## The order of the entries -/

/-- The keys stand in strictly ascending order. -/
def Sorted (s : Store) : Prop := s.entries.Pairwise fun a b => Key.Before a.1 b.1

theorem mem_insertEntry {key : Key} {record : Record} {e : Key × Record}
    {entries : List (Key × Record)} (h : e ∈ insertEntry key record entries) :
    e = (key, record) ∨ e ∈ entries := by
  induction entries with
  | nil => simpa [insertEntry] using h
  | cons entry rest ih =>
    obtain ⟨k', r⟩ := entry
    simp only [insertEntry] at h
    split at h
    · rcases List.mem_cons.1 h with rfl | h
      · exact Or.inl rfl
      · exact Or.inr (List.mem_cons_of_mem _ h)
    · split at h
      · exact List.mem_cons.1 h
      · rcases List.mem_cons.1 h with rfl | h
        · exact Or.inr List.mem_cons_self
        · exact (ih h).imp id (List.mem_cons_of_mem _)

theorem pairwise_insertEntry (key : Key) (record : Record) {entries : List (Key × Record)}
    (h : entries.Pairwise fun a b => Key.Before a.1 b.1) :
    (insertEntry key record entries).Pairwise fun a b => Key.Before a.1 b.1 := by
  induction entries with
  | nil => simp [insertEntry]
  | cons entry rest ih =>
    obtain ⟨k', r⟩ := entry
    obtain ⟨hhead, htail⟩ := List.pairwise_cons.1 h
    simp only [insertEntry]
    split
    · next heq => exact List.pairwise_cons.2 ⟨fun e he => heq ▸ hhead e he, htail⟩
    · next hne =>
        split
        · next hlt =>
            refine List.pairwise_cons.2 ⟨fun e he => ?_, h⟩
            rcases List.mem_cons.1 he with rfl | he
            · exact hlt
            · exact hlt.trans (hhead e he)
        · next hge =>
            refine List.pairwise_cons.2 ⟨fun e he => ?_, ih htail⟩
            rcases mem_insertEntry he with rfl | he
            · exact Key.before_of_not_before hne hge
            · exact hhead e he

theorem sorted_empty : Sorted {} := List.Pairwise.nil

theorem Sorted.insert {s : Store} (h : s.Sorted) (key : Key) (record : Record) :
    (s.insert key record).Sorted := pairwise_insertEntry key record h

theorem Sorted.erase {s : Store} (h : s.Sorted) (key : Key) : (s.erase key).Sorted :=
  List.Pairwise.filter _ h

/-- In a sorted store the entries are what `get?` finds. -/
theorem Sorted.mem_entries_iff {s : Store} (h : s.Sorted) (key : Key) (record : Record) :
    (key, record) ∈ s.entries ↔ s.get? key = some record := by
  obtain ⟨entries⟩ := s
  simp only [Sorted, get?, Option.map_eq_some_iff] at h ⊢
  induction entries with
  | nil => simp
  | cons entry rest ih =>
    obtain ⟨k', r⟩ := entry
    obtain ⟨hhead, htail⟩ := List.pairwise_cons.1 h
    by_cases hk : k' = key
    · subst hk
      have hnot : (k', record) ∉ rest := fun hmem => Key.not_before_self k' (hhead _ hmem)
      simp [hnot, eq_comm]
    · simp [hk, Ne.symm hk, ih htail]

/-- Sorted stores in which the same is seen under each key show the same entries in the same
    order. -/
theorem Sorted.map_entries_eq {β : Type} {s t : Store} (hs : s.Sorted) (ht : t.Sorted)
    (f : Record → β) (h : ∀ key, (s.get? key).map f = (t.get? key).map f) :
    s.entries.map (fun e => (e.1, f e.2)) = t.entries.map fun e => (e.1, f e.2) := by
  have hmem : ∀ {u : Store}, u.Sorted → ∀ e : Key × β,
      e ∈ u.entries.map (fun e => (e.1, f e.2)) ↔ (u.get? e.1).map f = some e.2 := by
    intro u hu e
    rw [List.mem_map, Option.map_eq_some_iff]
    constructor
    · rintro ⟨⟨key, record⟩, hin, rfl⟩
      exact ⟨record, (hu.mem_entries_iff key record).1 hin, rfl⟩
    · rintro ⟨record, hfound, heq⟩
      exact ⟨(e.1, record), (hu.mem_entries_iff e.1 record).2 hfound, Prod.ext rfl heq⟩
  have hsorted : ∀ {u : Store}, u.Sorted →
      (u.entries.map fun e => (e.1, f e.2)).Pairwise fun a b => Key.Before a.1 b.1 :=
    fun hu => List.pairwise_map.2 hu
  have hnodup : ∀ {u : Store}, u.Sorted → (u.entries.map fun e => (e.1, f e.2)).Nodup :=
    fun hu => (hsorted hu).imp fun hab heq => Key.Before.ne hab (congrArg Prod.fst heq)
  -- The same entries in the same order: a list that is sorted has only one arrangement.
  have hperm : (s.entries.map fun e => (e.1, f e.2)).Perm (t.entries.map fun e => (e.1, f e.2)) :=
    (List.perm_ext_iff_of_nodup (hnodup hs) (hnodup ht)).2 fun e => by
      rw [hmem hs, hmem ht, h]
  exact hperm.eq_of_pairwise
    (fun a b _ _ hab hba => absurd hba (List.lt_asymm hab)) (hsorted hs) (hsorted ht)

/-- Sorted stores in which the same records are found are the same. -/
theorem Sorted.ext {s t : Store} (hs : s.Sorted) (ht : t.Sorted)
    (h : ∀ key, s.get? key = t.get? key) : s = t := by
  have heq := hs.map_entries_eq ht id fun key => by rw [h]
  obtain ⟨es⟩ := s
  obtain ⟨et⟩ := t
  exact congrArg Store.mk (by simpa using heq)

/-! ## A part of a store -/

/-- The entries whose keys are wanted. -/
def only (s : Store) (wanted : Key → Bool) : Store := ⟨s.entries.filter fun e => wanted e.1⟩

theorem Sorted.only {s : Store} (h : s.Sorted) (wanted : Key → Bool) : (s.only wanted).Sorted :=
  List.Pairwise.filter _ h

theorem get?_only (s : Store) (wanted : Key → Bool) (key : Key) :
    (s.only wanted).get? key = if wanted key = true then s.get? key else none := by
  simp only [get?, Store.only, List.find?_filter]
  by_cases h : wanted key = true
  · rw [if_pos h]
    congr 2
    funext e
    by_cases hk : e.1 = key <;> simp [hk, h]
  · rw [if_neg h, Option.map_eq_none_iff, List.find?_eq_none]
    intro e _
    by_cases hk : e.1 = key <;> simp [hk, h]

/-- What is found under one key is the part of the store that wants this key. -/
theorem Sorted.toList_get? {s : Store} (h : s.Sorted) (key : Key) :
    (s.get? key).toList = (s.only (· = key)).records := by
  cases hfound : s.get? key with
  | none =>
    have hnone : s.only (· = key) = {} := by
      refine (h.only _).ext sorted_empty fun k => ?_
      rw [get?_only, get?_empty]
      by_cases hk : k = key
      · rw [if_pos (by simpa using hk), hk, hfound]
      · rw [if_neg (by simpa using hk)]
    rw [hnone]
    rfl
  | some record =>
    have hone : s.only (· = key) = ({} : Store).insert key record := by
      refine (h.only _).ext (sorted_empty.insert key record) fun k => ?_
      rw [get?_only, get?_insert, get?_empty]
      by_cases hk : k = key
      · rw [if_pos (by simpa using hk), if_pos hk.symm, hk, hfound]
      · rw [if_neg (by simpa using hk), if_neg (Ne.symm hk)]
    rw [hone]
    rfl

/-! ## Other records under the same keys -/

/-- The store with another record in place of every record. -/
def mapRecords (s : Store) (f : Record → Record) : Store :=
  ⟨s.entries.map fun e => (e.1, f e.2)⟩

theorem get?_mapRecords (s : Store) (f : Record → Record) (key : Key) :
    (s.mapRecords f).get? key = (s.get? key).map f := by
  simp [get?, mapRecords, List.find?_map, Function.comp_def]

theorem insert_mapRecords (s : Store) (f : Record → Record) (key : Key) (record : Record) :
    (s.mapRecords f).insert key (f record) = (s.insert key record).mapRecords f := by
  obtain ⟨entries⟩ := s
  simp only [insert, mapRecords, Store.mk.injEq]
  induction entries with
  | nil => rfl
  | cons entry rest ih =>
    simp only [List.map_cons, insertEntry, ih]
    split
    · rfl
    · split <;> rfl

theorem erase_mapRecords (s : Store) (f : Record → Record) (key : Key) :
    (s.mapRecords f).erase key = (s.erase key).mapRecords f := by
  simp [erase, mapRecords, List.filter_map, Function.comp_def]

theorem Sorted.mapRecords {s : Store} (h : s.Sorted) (f : Record → Record) :
    (s.mapRecords f).Sorted := List.pairwise_map.2 h

/-! ## Range reads -/

/-- Where the keys are not below the stem any more, those that begin with it come first. -/
theorem takeWhile_eq_filter_of_not_before (stem : Key) {entries : List (Key × Record)}
    (h : entries.Pairwise fun a b => Key.Before a.1 b.1)
    (hge : ∀ e ∈ entries, ¬ Key.Before e.1 stem) :
    entries.takeWhile (fun e => Key.beginsWith e.1 stem)
      = entries.filter fun e => Key.beginsWith e.1 stem := by
  induction entries with
  | nil => rfl
  | cons entry rest ih =>
    obtain ⟨hhead, htail⟩ := List.pairwise_cons.1 h
    have hrest : ∀ e ∈ rest, ¬ Key.Before e.1 stem := fun e he => hge e (List.mem_cons_of_mem _ he)
    by_cases hb : Key.beginsWith entry.1 stem = true
    · simp [hb, ih htail hrest]
    · -- From the first key on that does not begin with the stem, none does.
      have hnone : ∀ e ∈ rest, ¬ Key.beginsWith e.1 stem = true := fun e he => by
        simpa using Key.not_beginsWith_of_before (hge entry List.mem_cons_self)
          (by simpa using hb) (hhead e he)
      simp only [List.takeWhile_cons, List.filter_cons, if_neg hb]
      exact (List.filter_eq_nil_iff.2 hnone).symm

theorem dropWhile_takeWhile_eq_filter (stem : Key) {entries : List (Key × Record)}
    (h : entries.Pairwise fun a b => Key.Before a.1 b.1) :
    (entries.dropWhile fun e => Key.Before e.1 stem).takeWhile (fun e => Key.beginsWith e.1 stem)
      = entries.filter fun e => Key.beginsWith e.1 stem := by
  induction entries with
  | nil => rfl
  | cons entry rest ih =>
    obtain ⟨hhead, htail⟩ := List.pairwise_cons.1 h
    by_cases hlt : Key.Before entry.1 stem
    · -- What is dropped does not begin with the stem, so the filter drops it as well.
      have hnot : Key.beginsWith entry.1 stem = false := by
        rw [← Bool.not_eq_true]
        exact fun hb => Key.not_before_of_beginsWith hb hlt
      simp [hlt, hnot, ih htail]
    · rw [List.dropWhile_cons_of_neg (by simpa using hlt)]
      refine takeWhile_eq_filter_of_not_before stem h fun e he => ?_
      rcases List.mem_cons.1 he with rfl | he
      · exact hlt
      · exact fun hb => hlt ((hhead e he).trans hb)

/-- A range read finds all records whose keys begin with the stem, in key order. -/
theorem Sorted.range_eq {s : Store} (h : s.Sorted) (stem : Key) :
    s.range stem = (s.only (Key.beginsWith · stem)).records := by
  simp only [range, records, Store.only]
  rw [dropWhile_takeWhile_eq_filter stem h]

end Store

end KeyRelay
