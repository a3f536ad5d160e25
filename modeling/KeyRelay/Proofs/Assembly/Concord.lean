import KeyRelay.Proofs.Assembly.Interruption

set_option autoImplicit false

/-! # Outcomes, changes and the log agree

An event is told of three times: to who asked for it, by outcomes; to watchers, by changes; and in
the log. Outcomes and notes are made of the key of an item and of the revision that it has taken,
and changes are made of records. The three are in concord item by item (`Concord`): an item that is
applied has an outcome, a change and a note that agree on its key and on its revisions, and one that
is rejected has an outcome and a warning, and no change. -/

namespace KeyRelay

/-! ## What is told of one item -/

/-- The change tells of an item of such an event that has this outcome. -/
structure Change.TellsOf (c : Change) (kind : EventKind) (item : Item) (o : Outcome) : Prop where
  kind : c.kind = kind.brings
  item : c.record.item = item
  key : c.key? = some o.key
  revision : c.revision = o.revision

/-- The entry notes that an item of such an event was applied under this key and has become this
    record. What the record holds is noted unless it was deleted. -/
structure LogEntry.NotesApplied (e : LogEntry) (kind : EventKind) (key : Key) (record : Record) :
    Prop where
  head : e.head = .message .debug (kind.verb ++ " event received")
  fields : e.fields
    = [("key", .string key), numberField "create_revision" record.createRevision,
        numberField "modify_revision" record.modifyRevision]
      ++ if kind = .delete then [] else [("value", .string record.item.logValue)]

/-- The entry warns that an item of such an event was rejected with this outcome. -/
structure LogEntry.NotesRejected (e : LogEntry) (kind : EventKind) (o : Outcome) : Prop where
  head : e.head
    = .message .warn ("ignore " ++ kind.verb ++ " event as object is not found from the cache")
  fields : e.fields = [("key", .string o.key), numberField "revision" o.revision]

/-- The note on an item that has brought a change is on the record of this change. -/
theorem LogEntry.NotesApplied.on (kind : EventKind) (key : Key) (revision : Revision) (c : Change) :
    (LogEntry.on kind key revision (some c)).NotesApplied kind key c.record where
  head := rfl
  fields := by cases kind <;> rfl

/-- The outcomes of items, the changes and the notes on them are in concord. -/
inductive Concord (kind : EventKind) :
    List Item → List Outcome → List Change → List LogEntry → Prop
  | nil : Concord kind [] [] [] []
  | applied {item : Item} {o : Outcome} {c : Change} {e : LogEntry} {items : List Item}
      {outcomes : List Outcome} {changes : List Change} {notes : List LogEntry}
      (hkey : item.key? = some o.key) (happlied : o.applied = true)
      (hchange : c.TellsOf kind item o) (hnote : e.NotesApplied kind o.key c.record)
      (rest : Concord kind items outcomes changes notes) :
      Concord kind (item :: items) (o :: outcomes) (c :: changes) (e :: notes)
  | rejected {item : Item} {o : Outcome} {e : LogEntry} {items : List Item}
      {outcomes : List Outcome} {changes : List Change} {notes : List LogEntry}
      (hkey : item.key? = some o.key) (happlied : o.applied = false)
      (hnote : e.NotesRejected kind o) (rest : Concord kind items outcomes changes notes) :
      Concord kind (item :: items) (o :: outcomes) changes (e :: notes)

section

variable {kind : EventKind} {items : List Item} {outcomes : List Outcome} {changes : List Change}
  {notes : List LogEntry}

/-- The changes are those of the items that are applied, one for one and in order. -/
theorem Concord.published (h : Concord kind items outcomes changes notes) :
    changes.map (fun c => (c.kind, c.key?, c.revision))
      = (outcomes.filter (·.applied)).map fun o => (kind.brings, some o.key, o.revision) := by
  induction h with
  | nil => rfl
  | applied _ happlied hchange _ _ ih =>
    rw [List.filter_cons_of_pos happlied, List.map_cons, List.map_cons, ih]
    rw [hchange.kind, hchange.key, hchange.revision]
  | rejected _ happlied _ _ ih => rw [List.filter_cons_of_neg (by simp [happlied]), ih]

/-- There is one outcome and one note for each item. -/
theorem Concord.length (h : Concord kind items outcomes changes notes) :
    outcomes.length = items.length ∧ notes.length = items.length := by
  induction h with
  | nil => exact ⟨rfl, rfl⟩
  | applied _ _ _ _ _ ih | rejected _ _ _ _ ih =>
    simp only [List.length_cons, ih, and_self]

end

/-- The changes and the log entries of an event agree with the outcomes of its items. -/
structure Concordant (event : Event) (outcomes : List Outcome) (changes : List Change)
    (entries : List LogEntry) : Prop where
  published : changes.map (fun c => (c.kind, c.key?, c.revision))
    = (outcomes.filter (·.applied)).map fun o => (event.kind.brings, some o.key, o.revision)
  logged : ∃ span notes, entries = span :: notes ∧ span.head = .span "apply_event"
    ∧ span.fields = [("event_type", .string event.kind.name),
        LogEntry.numberField "items" event.items.length]
    ∧ notes.length = event.items.length
    ∧ Concord event.kind event.items outcomes changes notes

/-! ## What reduction tells -/

/-- What a verdict tells of an item is in concord. -/
theorem Verdict.On.concord {v : Verdict} {s : Store} {kind : EventKind} {item : Item} {key : Key}
    {revision : Revision} (h : v.On s kind item key revision) {items : List Item}
    {outcomes : List Outcome} {changes : List Change} {notes : List LogEntry}
    (rest : Concord kind items outcomes changes notes) :
    Concord kind (item :: items) (v.outcome :: outcomes) (v.change?.toList ++ changes)
      (v.entry :: notes) := by
  have hkey : item.key? = some v.outcome.key := by rw [h.keyed, h.outcome]
  have happlied := h.applied
  have hentry := h.entry
  cases hchange : v.change? with
  | none =>
    rw [hchange] at happlied hentry
    refine .rejected hkey happlied ?_ rest
    rw [hentry, h.outcome]
    exact ⟨rfl, rfl⟩
  | some c =>
    rw [hchange] at happlied hentry
    obtain ⟨hkind, hitem, hrevision, -⟩ := Change.of_broughtBy (h.change?.symm.trans hchange)
    refine .applied hkey happlied ⟨hkind, hitem, ?_, ?_⟩ ?_ rest
    · rw [Change.key?, Record.key?, hitem, hkey]
    · rw [hrevision, h.outcome]
    · rw [hentry, h.outcome]
      exact .on kind key revision c

namespace Ledger

variable {l : Ledger}

theorem concord_applyItems (kind : EventKind) (items : List Item)
    (h : (applyItems kind items l).1.crash? = none) :
    Concord kind items (applyItems kind items l).1.outcomes (applyItems kind items l).1.changes
      (applyItems kind items l).1.entries := by
  induction items generalizing l with
  | nil => exact .nil
  | cons item rest ih =>
    cases hweigh : l.store.weigh kind item (l.counter.current + 1) with
    | error crash =>
      rw [applyItems_of_error hweigh] at h
      simp at h
    | ok v =>
      obtain ⟨key, hon⟩ := Store.on_weigh hweigh
      rw [applyItems_of_ok hweigh] at h ⊢
      exact hon.concord (ih h)

/-- Unless an event crashes, what is told of it agrees. -/
theorem concordant_apply {event : Event} (h : (l.apply event).1.crash? = none) :
    Concordant event (l.apply event).1.outcomes (l.apply event).1.changes
      (l.apply event).1.entries := by
  have hconcord := concord_applyItems event.kind event.items h
  exact ⟨hconcord.published, _, _, rfl, rfl, rfl, hconcord.length.2, hconcord⟩

end Ledger

/-! ## What an assembly tells -/

namespace Assembly

/-- **The reports of one event agree.** Whatever the assembly has come to: when an observed reducer
    has an event to apply, because it is asked to or in a run, and does not crash, then the outcomes
    of the items, the changes that it reports and the entries that it makes in the log agree. The
    changes are published to the feed in this order. To who has asked the outcomes are the answer,
    and the log has nothing else. -/
theorem concordant_step {a : Assembly} {command : Command} {reducer : Reducer} {event : Event}
    (hworker : a.worker? command = some reducer) (hobserved : reducer.observed = true)
    (hevents : a.eventsOf command = [event])
    (hreply : ∀ crash, (a.step command).reply ≠ .crashed crash) :
    let report := ((a.ledger reducer).apply event).1
    Concordant event report.outcomes (a.step command).changes report.entries
      ∧ report.entries <:+: (a.step command).entries
      ∧ (a.step command).after.feed = a.feed.publishAll (a.step command).changes
      ∧ ∀ number own, command = .apply number own →
        (a.step command).reply = .outcomes report.outcomes
          ∧ (a.step command).entries = report.entries := by
  intro report
  have henacts := enacts_step hworker hevents
  have hnone : report.crash? = none := by
    cases hcrash : report.crash? with
    | none => rfl
    | some crash => exact absurd (henacts.crash crash hcrash) (hreply crash)
  refine ⟨?_, henacts.entries, henacts.feed, ?_⟩
  · rw [henacts.changes, reported, if_pos hobserved]
    exact Ledger.concordant_apply hnone
  · rintro number own rfl
    obtain rfl : own = event := List.singleton_inj.1 hevents
    have hreducer := Option.join_eq_some_iff.1 hworker
    refine ⟨reply_applyEvent_of_none hreducer hnone, ?_⟩
    simp only [step, applyEvent, hreducer]
    rfl

/-- A batch of updates: one that is applied twice, one that is rejected, and one that cannot be
    encoded. -/
theorem concordant_mixed :
    let pair := fun key value => Item.raw ⟨key, [value]⟩
    let start : Assembly :=
      { counters := [{}], reducers := [some {}], feed := { width := 4 }, senders := [firstSender] }
    let a := start.follow [.apply 0 ⟨.add, [pair "a" 1, pair "b" 2]⟩]
    let event : Event :=
      ⟨.update, [pair "b" 3, pair "c" 4, .unencodable "a" "no bytes", pair "b" 5]⟩
    let command := Command.apply 0 event
    let report := ((a.ledger {}).apply event).1
    a.worker? command = some {} ∧ a.eventsOf command = [event]
      ∧ (∀ crash, (a.step command).reply ≠ .crashed crash)
      ∧ Concordant event report.outcomes (a.step command).changes (a.step command).entries
      ∧ (a.step command).changes.map (·.revision) = [3, 5, 6]
      ∧ (a.step command).entries.map (·.head)
        = [.span "apply_event", .message .debug "update event received",
            .message .warn "ignore update event as object is not found from the cache",
            .message .debug "update event received", .message .debug "update event received"]
      ∧ (a.step command).entries[3]?.map (·.fields)
        = some [("key", .string "a"), LogEntry.numberField "create_revision" 1,
            LogEntry.numberField "modify_revision" 5,
            ("value", .string "<unencodable: no bytes>")] := by
  intro pair start a event command report
  have hworker : a.worker? command = some {} := by decide
  have hevents : a.eventsOf command = [event] := rfl
  have hreply : ∀ crash, (a.step command).reply ≠ .crashed crash := by
    intro crash hcrash
    have houtcomes : (a.step command).reply = .outcomes report.outcomes := rfl
    exact Reply.noConfusion (houtcomes.symm.trans hcrash)
  obtain ⟨hconcordant, -, -, hanswer⟩ := concordant_step hworker rfl hevents hreply
  rw [← (hanswer 0 event rfl).2] at hconcordant
  exact ⟨hworker, hevents, hreply, hconcordant, by decide, by decide, by decide⟩

end Assembly

end KeyRelay
