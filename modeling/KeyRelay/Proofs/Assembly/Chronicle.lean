import KeyRelay.Proofs.Assembly.Sharing
import KeyRelay.Proofs.Reduction.Lineage
import KeyRelay.Proofs.Reduction.Reached

set_option autoImplicit false

/-! # What is told of the work of reducers

Some reducers share a counter and a store that was empty at first, and nobody writes past them.
Then their revisions never repeat: what they list and what they publish carries rising revisions,
and no two keys share one (`Chronicle.freshRevisions_follow`). If all of them publish what they do,
the published changes of a key are its history (`Chronicle.lineage_follow`). Both are invariants of
the shared ledger, which a command moves on in three ways only (`Assembly.turn_step`); so it is
always one that reducers can come to (`Chronicle.reached_follow`). -/

namespace KeyRelay

namespace Assembly

/-- The kind of the event that a command has for a reducer. -/
def cause? (a : Assembly) (command : Command) : Option EventKind :=
  (a.eventsOf command).head?.map (·.kind)

/-- An assembly, the outcomes that its reducers have listed, and the changes that they have
    published. -/
structure Chronicle where
  assembly : Assembly
  outcomes : List Outcome := []
  told : List Told := []

namespace Chronicle

/-- A command is carried out, and what is told of it is noted. -/
def step (w : Chronicle) (command : Command) : Chronicle where
  assembly := (w.assembly.step command).after
  outcomes := w.outcomes ++ (w.assembly.step command).reply.listed
  told := w.told
    ++ (w.assembly.step command).changes.map (Told.mk (w.assembly.cause? command))

/-- Commands are carried out one after the other. -/
def follow (w : Chronicle) (commands : List Command) : Chronicle := commands.foldl step w

variable {w : Chronicle} {k : Nat}

/-- What every command keeps that makes no record past the reducers, all of them keep. -/
theorem follow_preserves {P : Chronicle → Prop}
    (hstep : ∀ {w command}, command.isDraft = false → P w → P (w.step command))
    {commands : List Command} (hdraft : ∀ c ∈ commands, c.isDraft = false) (h : P w) :
    P (w.follow commands) := by
  induction commands generalizing w with
  | nil => exact h
  | cons command rest ih =>
    exact ih (fun c hc => hdraft c (List.mem_cons_of_mem _ hc))
      (hstep (hdraft command List.mem_cons_self) h)

/-! ## The start -/

theorem shares_create {counters capacity : Nat} {reducers : List Reducer} {start : Assembly}
    (h : create counters reducers capacity = .ok start) (hk : k < counters)
    (hshared : ∀ reducer ∈ reducers, reducer.counter = k) :
    start.Shares k ∧ start.shared k = {} := by
  have hreducers := fun r hr => hshared r (employs_create h hr)
  obtain ⟨feed, -, rfl⟩ := exists_of_create h
  exact ⟨⟨by simpa using hk, hreducers⟩, by simp [shared, counter, hk]⟩

/-- A command moves the shared ledger on as reducers do. -/
theorem reached_step (hshares : w.assembly.Shares k) (h : (w.assembly.shared k).Reached)
    {command : Command} (hdraft : command.isDraft = false) :
    (w.step command).assembly.Shares k ∧ ((w.step command).assembly.shared k).Reached := by
  obtain ⟨hretains, hturn⟩ := turn_step hshares hdraft
  refine ⟨hshares.of_retains hretains, ?_⟩
  show ((w.assembly.step command).after.shared k).Reached
  cases hturn with
  | rests hledger _ _ _ => exact hledger ▸ h
  | counts hledger _ _ _ => exact hledger ▸ h.next
  | applies _ _ hledger _ _ _ => exact hledger ▸ h.apply _

/-- Whatever is done as long as no records are made past them, reducers that share a counter and a
    store that is empty at first work on a ledger that they can come to. -/
theorem reached_follow {counters capacity : Nat} {reducers : List Reducer} {start : Assembly}
    (hcreate : create counters reducers capacity = .ok start) (hk : k < counters)
    (hshared : ∀ reducer ∈ reducers, reducer.counter = k)
    {commands : List Command} (hdraft : ∀ c ∈ commands, c.isDraft = false) :
    ((follow { assembly := start } commands).assembly.shared k).Reached := by
  obtain ⟨hshares, hempty⟩ := shares_create hcreate hk hshared
  have hstart : start.Shares k ∧ (start.shared k).Reached := ⟨hshares, hempty ▸ .start⟩
  exact (follow_preserves
    (P := fun w => w.assembly.Shares k ∧ (w.assembly.shared k).Reached)
    (fun hd hw => reached_step hw.1 hw.2 hd) hdraft hstart).2

/-! ## Revisions -/

/-- The shared ledger is fresh, and what was listed and published rises up to its counter. -/
structure Sound (k : Nat) (w : Chronicle) : Prop where
  shares : w.assembly.Shares k
  fresh : (w.assembly.shared k).Fresh
  outcomes : Rising 0 (w.assembly.shared k).counter.current (w.outcomes.map (·.revision))
  changes : Rising 0 (w.assembly.shared k).counter.current (w.told.map (·.change.revision))

/-- What comes in between rises as well. -/
theorem Sound.extend (h : w.Sound k) {command : Command} {l : Ledger}
    (hshares : (w.assembly.step command).after.Shares k)
    (hledger : (w.assembly.step command).after.shared k = l) (hfresh : l.Fresh)
    (houtcomes : Rising (w.assembly.shared k).counter.current l.counter.current
      ((w.assembly.step command).reply.listed.map (·.revision)))
    (hchanges : Rising (w.assembly.shared k).counter.current l.counter.current
      ((w.assembly.step command).changes.map Change.revision)) :
    (w.step command).Sound k := by
  subst hledger
  constructor
  case shares => exact hshares
  case fresh => exact hfresh
  case outcomes =>
    simp only [step, List.map_append]
    exact h.outcomes.append houtcomes
  case changes =>
    simp only [step, List.map_append, List.map_map]
    exact h.changes.append hchanges

theorem Sound.step (h : w.Sound k) {command : Command} (hdraft : command.isDraft = false) :
    (w.step command).Sound k := by
  obtain ⟨hretains, hturn⟩ := turn_step h.shares hdraft
  have hshares := h.shares.of_retains hretains
  cases hturn with
  | rests hledger houtcomes hchanges _ =>
    refine h.extend hshares hledger h.fresh ?_ ?_
    · rw [houtcomes]
      exact .nil (Int.le_refl _)
    · rw [hchanges]
      exact .nil (Int.le_refl _)
  | counts hledger houtcomes hchanges _ =>
    have hnext := (Rising.single (w.assembly.shared k).counter.current).le
    refine h.extend hshares hledger h.fresh.next ?_ ?_
    · rw [houtcomes]
      exact .nil hnext
    · rw [hchanges]
      exact .nil hnext
  | @applies reducer event _ _ hledger houtcomes hchanges _ =>
    have happly := h.fresh.apply event
    refine h.extend hshares hledger happly.fresh ?_ ?_
    · rcases houtcomes with hnone | hlisted
      · rw [hnone]
        exact .nil happly.outcomes.le
      · rw [hlisted]
        exact happly.outcomes
    · rw [hchanges]
      have hsub := (sublist_reported reducer ((w.assembly.shared k).apply event).1.changes).map
        Change.revision
      exact happly.outcomes.sublist (hsub.trans happly.changes)

/-- A command for a reducer crashes only over an item without a key in the event it has for it. -/
theorem Sound.keyless_of_crashed (h : w.Sound k) {command : Command}
    (hreduces : command.reduces = true) {crash : Crash}
    (hcrashed : (w.assembly.step command).reply = .crashed crash) :
    crash = .keyless
      ∧ ∃ event ∈ w.assembly.eventsOf command, ∃ item ∈ event.items, item.key? = none := by
  have hdraft : command.isDraft = false := by
    cases command <;> simp [Command.reduces] at hreduces <;> rfl
  obtain ⟨-, hturn⟩ := turn_step h.shares hdraft
  cases hturn with
  | rests _ _ _ hcrash => exact absurd hcrashed (hcrash hreduces crash)
  | counts _ _ _ hnot => simp [hreduces] at hnot
  | @applies _ event _ hevents _ _ _ hcrash =>
    obtain ⟨hkeyless, hitem⟩ := (h.fresh.apply event).crash crash (hcrash crash hcrashed)
    exact ⟨hkeyless, event, by simp [hevents], hitem⟩

/-- An event whose items have keys is applied to its end. -/
theorem Sound.listed_in_full (h : w.Sound k) {number : Nat} {reducer : Reducer}
    (hreducer : w.assembly.reducers[number]? = some (some reducer)) {event : Event}
    (hkeyed : ∀ item ∈ event.items, item.key?.isSome = true) :
    ∃ outcomes, (w.assembly.step (.apply number event)).reply = .outcomes outcomes
      ∧ outcomes.length = event.items.length := by
  have hledger := h.shares.ledger_eq (Or.inl (List.mem_of_getElem? hreducer))
  have hnone : ((w.assembly.ledger reducer).apply event).1.crash? = none := by
    rw [hledger]
    exact (h.fresh.upToDate.applyItems event.kind hkeyed).1
  exact ⟨_, reply_applyEvent_of_none hreducer hnone, Ledger.length_outcomes_applyItems hnone⟩

/-- The revisions of a counter that reducers share. -/
structure FreshRevisions (k : Nat) (w : Chronicle) : Prop where
  /-- No reducer finds an object that is younger than the item at hand. It crashes only if it comes
      upon an item without a key. -/
  crashed : ∀ command crash, command.reduces = true →
    (w.assembly.step command).reply = .crashed crash →
    crash = .keyless
      ∧ ∃ event ∈ w.assembly.eventsOf command, ∃ item ∈ event.items, item.key? = none
  /-- Where all items have keys, a reducer that is there tells what became of each. -/
  complete : ∀ number reducer event,
    w.assembly.reducers[number]? = some (some reducer) →
    (∀ item ∈ event.items, item.key?.isSome = true) →
    ∃ outcomes, (w.assembly.step (.apply number event)).reply = .outcomes outcomes
      ∧ outcomes.length = event.items.length
  /-- Records carry revisions that were handed out. -/
  bounds : ∀ key record, w.assembly.store.get? key = some record →
    1 ≤ record.createRevision ∧ record.createRevision ≤ record.modifyRevision
      ∧ record.modifyRevision ≤ (w.assembly.counter k).current
  /-- Records of different keys have no revision in common. -/
  apart : ∀ key other record record', key ≠ other →
    w.assembly.store.get? key = some record → w.assembly.store.get? other = some record' →
    record.createRevision ≠ record'.createRevision
      ∧ record.modifyRevision ≠ record'.modifyRevision
  /-- Every outcome is listed with a later revision than the one before it, -/
  outcomes : (w.outcomes.map (·.revision)).Pairwise (· < ·)
  /-- and so is every change published. -/
  changes : (w.told.map (·.change.revision)).Pairwise (· < ·)

/-- **Fresh revisions.** However many reducers share a counter and a store that is empty at first,
    and whatever is done in between, as long as no records are made past them: their revisions are
    fresh. -/
theorem freshRevisions_follow {counters capacity : Nat} {reducers : List Reducer}
    {start : Assembly} (hcreate : create counters reducers capacity = .ok start)
    (hk : k < counters) (hshared : ∀ reducer ∈ reducers, reducer.counter = k)
    {commands : List Command} (hdraft : ∀ c ∈ commands, c.isDraft = false) :
    FreshRevisions k (follow { assembly := start } commands) := by
  obtain ⟨hshares, hempty⟩ := shares_create hcreate hk hshared
  have hstart : Sound k { assembly := start } := by
    refine ⟨hshares, ?_, ?_, ?_⟩
    all_goals simp only [hempty]
    · exact Ledger.fresh_empty
    · exact .nil (Int.le_refl 0)
    · exact .nil (Int.le_refl 0)
  have h := follow_preserves (fun hd hw => hw.step hd) hdraft hstart
  constructor
  case crashed => exact fun _ _ hreduces hcrashed => h.keyless_of_crashed hreduces hcrashed
  case complete => exact fun _ _ _ hreducer hkeyed => h.listed_in_full hreducer hkeyed
  case bounds => exact fun _ _ hfound => h.fresh.bounds hfound
  case apart => exact fun _ _ _ _ hne hfound hother => h.fresh.apart hne hfound hother
  case outcomes => exact h.outcomes.ordered
  case changes => exact h.changes.ordered

/-- An observed reducer and an unobserved one work on the same keys, revisions are taken in between,
    and the last event reaches the observed one through the conduit. -/
theorem freshRevisions_interleaved :
    let pair := fun key value => Item.raw ⟨key, [value]⟩
    let reducers : List Reducer := [{}, { observed := false }]
    let start : Assembly :=
      { counters := [{}], reducers := reducers.map some, feed := { width := 2 }
        senders := [firstSender] }
    let commands : List Command :=
      [.apply 0 ⟨.add, [pair "a" 1, pair "b" 2]⟩, .next 0,
        .apply 1 ⟨.update, [.unencodable "a" "", pair "c" 3]⟩, .next 0,
        .apply 1 ⟨.add, [pair "b" 4]⟩, .send "s" firstSender ⟨.delete, [pair "a" 5]⟩, .run 0]
    let w := follow { assembly := start } commands
    create 1 reducers 2 = .ok start
      ∧ (∀ reducer ∈ reducers, reducer.counter = 0)
      ∧ (∀ c ∈ commands, c.isDraft = false)
      ∧ FreshRevisions 0 w
      ∧ w.outcomes.map (·.revision) = [1, 2, 4, 5, 7]
      ∧ w.told.map (·.change.revision) = [1, 2, 8]
      ∧ w.assembly.store.records = [⟨pair "b" 4, 7, 7⟩] := by
  intro pair reducers start commands w
  have hcreate : create 1 reducers 2 = .ok start := by decide
  have hshared : ∀ reducer ∈ reducers, reducer.counter = 0 := by decide
  have hdraft : ∀ c ∈ commands, c.isDraft = false := by decide
  have hfresh : FreshRevisions 0 w :=
    freshRevisions_follow hcreate (by decide) hshared hdraft
  exact ⟨hcreate, hshared, hdraft, hfresh, by decide, by decide, by decide⟩

/-! ## Histories of keys -/

/-- All reducers publish what they do, and that is the history of every key. -/
structure Recounts (k : Nat) (w : Chronicle) : Prop where
  shares : w.assembly.Shares k
  observed : w.assembly.Observed
  ledger : (w.assembly.shared k).Recounts w.told

theorem Recounts.step (h : w.Recounts k) {command : Command} (hdraft : command.isDraft = false) :
    (w.step command).Recounts k := by
  obtain ⟨hretains, hturn⟩ := turn_step h.shares hdraft
  refine ⟨h.shares.of_retains hretains, h.observed.of_retains hretains, ?_⟩
  show ((w.assembly.step command).after.shared k).Recounts (w.told
    ++ (w.assembly.step command).changes.map (Told.mk (w.assembly.cause? command)))
  cases hturn with
  | rests hledger _ hchanges _ =>
    rw [hledger, hchanges, List.map_nil, List.append_nil]
    exact h.ledger
  | counts hledger _ hchanges _ =>
    rw [hledger, hchanges, List.map_nil, List.append_nil]
    exact h.ledger.next
  | @applies reducer event hemployed hevents hledger _ hchanges _ =>
    -- What the reducer reports is all that it has done, and it did it for this event.
    have hcause : w.assembly.cause? command = some event.kind := by
      rw [cause?, hevents]
      rfl
    rw [hledger, hchanges, hcause, reported, if_pos (h.observed.of_employs hemployed)]
    exact h.ledger.apply event

/-- **The history of a key.** Where all reducers publish what they do, and share a counter and a
    store that is empty at first, the changes published of a key hang together, from the first one
    to the record that the store holds, whatever is done as long as no records are made past the
    reducers. -/
theorem lineage_follow {counters capacity : Nat} {reducers : List Reducer} {start : Assembly}
    (hcreate : create counters reducers capacity = .ok start) (hk : k < counters)
    (hshared : ∀ reducer ∈ reducers, reducer.counter = k)
    (hobserved : ∀ reducer ∈ reducers, reducer.observed = true)
    {commands : List Command} (hdraft : ∀ c ∈ commands, c.isDraft = false) (key : Key) :
    let w := follow { assembly := start } commands
    Lineage (toldOf key w.told) (w.assembly.store.get? key) := by
  intro w
  obtain ⟨hshares, hempty⟩ := shares_create hcreate hk hshared
  have hstart : Recounts k { assembly := start } :=
    ⟨hshares, observed_create hcreate hobserved, hempty ▸ Ledger.recounts_empty⟩
  have h := follow_preserves (fun hd hw => hw.step hd) hdraft hstart
  exact h.ledger.lineage key

/-- A key is added, added over, updated, deleted, updated in vain and added again, by two reducers
    in turn, while another key is written. -/
theorem lineage_readded :
    let pair := fun key value => Item.raw ⟨key, [value]⟩
    let reducers : List Reducer := [{}, {}]
    let start : Assembly :=
      { counters := [{}], reducers := reducers.map some, feed := { width := 2 }
        senders := [firstSender] }
    let commands : List Command :=
      [.apply 0 ⟨.add, [pair "a" 1, pair "b" 2, pair "a" 3]⟩, .apply 1 ⟨.update, [pair "a" 4]⟩,
        .next 0, .send "s" firstSender ⟨.delete, [pair "a" 5, pair "a" 6]⟩, .run 0,
        .apply 1 ⟨.update, [pair "a" 7, pair "b" 8]⟩, .apply 1 ⟨.add, [pair "a" 9]⟩]
    let w := follow { assembly := start } commands
    create 1 reducers 2 = .ok start
      ∧ (∀ reducer ∈ reducers, reducer.counter = 0 ∧ reducer.observed = true)
      ∧ (∀ c ∈ commands, c.isDraft = false)
      ∧ Lineage (toldOf "a" w.told) (w.assembly.store.get? "a")
      ∧ toldOf "a" w.told
        = [⟨some .add, .put ⟨pair "a" 1, 1, 1⟩ none⟩,
            ⟨some .add, .put ⟨pair "a" 3, 3, 3⟩ (some ⟨pair "a" 1, 1, 1⟩)⟩,
            ⟨some .update, .put ⟨pair "a" 4, 3, 4⟩ (some ⟨pair "a" 3, 3, 3⟩)⟩,
            ⟨some .delete, .delete ⟨pair "a" 5, 3, 6⟩ ⟨pair "a" 4, 3, 4⟩⟩,
            ⟨some .add, .put ⟨pair "a" 9, 10, 10⟩ none⟩]
      ∧ w.assembly.store.get? "a" = some ⟨pair "a" 9, 10, 10⟩ := by
  intro pair reducers start commands w
  have hcreate : create 1 reducers 2 = .ok start := by decide
  have hreducers : ∀ reducer ∈ reducers, reducer.counter = 0 ∧ reducer.observed = true := by
    decide
  have hdraft : ∀ c ∈ commands, c.isDraft = false := by decide
  have hlineage : Lineage (toldOf "a" w.told) (w.assembly.store.get? "a") :=
    lineage_follow hcreate (by decide) (fun r hr => (hreducers r hr).1)
      (fun r hr => (hreducers r hr).2) hdraft "a"
  exact ⟨hcreate, hreducers, hdraft, hlineage, by decide, by decide⟩

end Chronicle

end Assembly

end KeyRelay
