import KeyRelay.Proofs.Assembly.Deeds
import KeyRelay.Proofs.Assembly.Interruption
import KeyRelay.Proofs.Feed.Contents

set_option autoImplicit false

/-! # The records of an assembly

Reducers may have counters of their own, records be put and deleted and changes be sent by anybody,
and revisions go backwards. And yet no record is ever about that was created after it was modified:
not in the store, not before or behind a stream, and not in an answer (`Assembly.ordered_perform`).
Records are made in two ways only, and an assembly tells of nothing but the records it holds
(`Assembly.holds_of_told`). A step that would make another record breaks off before it has stored
or published anything. -/

namespace KeyRelay

namespace Assembly

/-- The records that an answer tells of. -/
def Reply.mentions : Reply → List Record
  | .record found => found.toList
  | .records found => found
  | .change answer => answer.heard.flatMap Change.records
  | .changes answers => answers.flatMap fun answer => answer.heard.flatMap Change.records
  | _ => []

/-- The record is in the store, or the feed keeps a change that tells of it. -/
def Holds (a : Assembly) (record : Record) : Prop :=
  record ∈ a.store.records ∨ ∃ c ∈ a.feed.kept, record ∈ c.records

/-- All records that an assembly holds were made, and those in the store stand under their own
    keys. -/
structure Made (a : Assembly) : Prop where
  store : a.store.Made
  feed : ∀ c ∈ a.feed.kept, c.Made

variable {a : Assembly} {command : Command}

theorem Made.of_holds (h : a.Made) {record : Record} (hholds : a.Holds record) : record.Made := by
  rcases hholds with hstored | ⟨c, hc, hrecord⟩
  · obtain ⟨e, he, rfl⟩ := List.mem_map.1 hstored
    exact (h.store e he).1
  · exact h.feed c hc record hrecord

/-! ## What is told -/

theorem holds_of_get? {key : Key} {record : Record} (h : a.store.get? key = some record) :
    a.Holds record :=
  Or.inl (List.mem_map_of_mem (f := (·.2)) (Store.mem_entries_of_get? h))

theorem holds_of_range {stem : Key} {record : Record} (h : record ∈ a.store.range stem) :
    a.Holds record := by
  obtain ⟨e, he, rfl⟩ := List.mem_map.1 h
  have hmem := (List.dropWhile_sublist _).subset ((List.takeWhile_sublist _).subset he)
  exact Or.inl (List.mem_map_of_mem hmem)

theorem holds_of_tells {answers : List Stream.Answer} (h : Feed.Tells a.feed.kept (.ok answers))
    {record : Record}
    (hrecord : record ∈ answers.flatMap fun answer => answer.heard.flatMap Change.records) :
    a.Holds record := by
  obtain ⟨answer, hanswer, hheard⟩ := List.mem_flatMap.1 hrecord
  obtain ⟨c, hc, hmem⟩ := List.mem_flatMap.1 hheard
  exact Or.inr ⟨c, h answer hanswer c hc, hmem⟩

/-- A poll of a stream tells of changes that the feed keeps, or breaks off at one without a key. -/
theorem reply_pollStream (a : Assembly) (name : String) :
    (∀ record ∈ (a.pollStream name).reply.mentions, a.Holds record)
      ∧ ∀ crash, (a.pollStream name).reply = .crashed crash → crash = .keyless := by
  have htells := @Feed.tells_poll a.feed name
  simp only [pollStream]
  cases hanswer : (a.feed.poll name).1 with
  | none => exact ⟨by simp [Reply.mentions], by simp⟩
  | some answer =>
    have := htells hanswer
    cases answer with
    | ok answer =>
      refine ⟨fun record hrecord => holds_of_tells this ?_, by simp⟩
      simpa [Reply.mentions] using hrecord
    | error crash =>
      refine ⟨by simp [Reply.mentions], fun crash' hcrash => ?_⟩
      obtain rfl := Reply.crashed.inj hcrash
      exact this

theorem reply_drainStream (a : Assembly) (name : String) :
    (∀ record ∈ (a.drainStream name).reply.mentions, a.Holds record)
      ∧ ∀ crash, (a.drainStream name).reply = .crashed crash → crash = .keyless := by
  have htells := @Feed.tells_drainFor a.feed (a.feed.kept.length + 1) name
  simp only [drainStream, Feed.drain]
  cases hanswers : (a.feed.drainFor (a.feed.kept.length + 1) name).1 with
  | none => exact ⟨by simp [Reply.mentions], by simp⟩
  | some answers =>
    have := htells hanswers
    cases answers with
    | ok answers => exact ⟨fun record hrecord => holds_of_tells this hrecord, by simp⟩
    | error crash =>
      refine ⟨by simp [Reply.mentions], fun crash' hcrash => ?_⟩
      obtain rfl := Reply.crashed.inj hcrash
      exact this

/-- An answer that tells of no record, and is a crash only for want of a key. -/
structure Plain (reply : Reply) : Prop where
  mentions : reply.mentions = []
  crashed : ∀ crash, reply = .crashed crash → crash = .keyless

theorem plain_pollSend (a : Assembly) (name : String) : Plain (a.pollSend name).reply := by
  unfold pollSend
  split
  · exact ⟨rfl, by simp⟩
  · split <;> exact ⟨rfl, by simp⟩

theorem plain_startSend (a : Assembly) (name via : String) (event : Event) :
    Plain (a.startSend name via event).reply := by
  unfold startSend
  split
  · exact plain_pollSend _ name
  · exact ⟨rfl, by simp⟩

theorem plain_replyTo (receipt : Conduit.Receipt) : Plain (replyTo receipt) := by
  unfold replyTo
  split
  · split
    · exact ⟨rfl, by simp⟩
    · exact ⟨rfl, by simp [eq_comm]⟩
  · exact ⟨rfl, by simp⟩

/-- The answers of reducers and runs tell of no records. -/
theorem mentions_pollRun (a : Assembly) : a.pollRun.reply.mentions = [] := by
  unfold pollRun
  split
  · rfl
  · simp only
    split <;> rfl

theorem mentions_of_reduces (hreduces : command.reduces = true) :
    (a.step command).reply.mentions = [] := by
  cases command with
  | apply number event =>
    simp only [step, applyEvent]
    split
    · simp only
      split <;> rfl
    · rfl
  | run number =>
    simp only [step, startRun]
    split
    · exact mentions_pollRun _
    · rfl
  | pollRun => exact mentions_pollRun a
  | _ => simp [Command.reduces] at hreduces

/-- Any other command that makes no record tells of records that were there, and never crashes but
    for want of a key. -/
theorem reply_step (hreduces : command.reduces = false) (hdraft : command.isDraft = false) :
    (∀ record ∈ (a.step command).reply.mentions, a.Holds record)
      ∧ ∀ crash, (a.step command).reply = .crashed crash → crash = .keyless := by
  have hplain : ∀ {reply : Reply}, Plain reply →
      (∀ record ∈ reply.mentions, a.Holds record) ∧ ∀ crash, reply = .crashed crash →
        crash = .keyless := fun h => ⟨by simp [h.mentions], h.crashed⟩
  cases command with
  | apply _ _ | run _ | pollRun => simp [Command.reduces] at hreduces
  | put _ | delete _ | emit _ _ => simp [Command.isDraft] at hdraft
  | get key =>
    refine ⟨fun record hrecord => ?_, by simp [step]⟩
    exact holds_of_get? (Option.mem_toList.1 hrecord)
  | range stem => exact ⟨fun record hrecord => holds_of_range hrecord, by simp [step]⟩
  | poll name => exact reply_pollStream a name
  | drain name => exact reply_drainStream a name
  | send name via event => exact hplain (plain_startSend a name via event)
  | pollSend name => exact hplain (plain_pollSend a name)
  | recv =>
    simp only [step, pollReceiver]
    split
    · exact hplain (plain_replyTo _)
    · exact hplain ⟨rfl, by simp⟩
  | subscribe name pattern =>
    simp only [step, subscribe]
    split <;> exact hplain ⟨rfl, by simp⟩
  | cloneSender via name =>
    simp only [step, cloneSender]
    split <;> exact hplain ⟨rfl, by simp⟩
  | next _ | current _ | keys | isEmpty | logValue _ | unsubscribe _ | countStreams | closeFeed
  | dropSend _ | dropSender _ | isClosed _ | dropReceiver | dropRun | cancel =>
    exact hplain ⟨rfl, by simp [step, takeRevision, unsubscribe]⟩

/-- An assembly tells of nothing but the records it holds. -/
theorem holds_of_told (hdraft : command.isDraft = false) {record : Record}
    (hrecord : record ∈ (a.step command).reply.mentions) : a.Holds record := by
  cases hreduces : command.reduces with
  | true => simp [mentions_of_reduces hreduces] at hrecord
  | false => exact (reply_step hreduces hdraft).1 record hrecord

/-! ## What is left and reported -/

/-- What an effect leaves, reports and tells of was made. -/
structure Brings (e : Effect) : Prop where
  after : e.after.Made
  changes : ∀ c ∈ e.changes, c.Made
  told : ∀ record ∈ e.reply.mentions, record.Made

theorem brings_meddle (h : a.Made) (m : Meddling) : Brings (a.meddle m) := by
  cases m with
  | put record made =>
    simp only [meddle, Store.put]
    cases hkey : record.key? with
    | none => exact ⟨h, by simp, by simp [Reply.mentions]⟩
    | some key => exact ⟨⟨h.store.insert made hkey, h.feed⟩, by simp, by simp [Reply.mentions]⟩
  | delete record made =>
    simp only [meddle, Store.delete]
    cases hkey : record.key? with
    | none => exact ⟨h, by simp, by simp [Reply.mentions]⟩
    | some key =>
      refine ⟨⟨h.store.erase key, h.feed⟩, by simp, fun removed hremoved => ?_⟩
      exact h.store.get? (Option.mem_toList.1 hremoved)
  | send change made =>
    refine ⟨⟨h.store, fun c hc => ?_⟩, by simp [meddle], by simp [meddle, Reply.mentions]⟩
    rcases Feed.mem_kept_publish hc with hkept | rfl
    · exact h.feed c hkept
    · exact made

/-- Streams do not touch what the feed keeps. -/
theorem kept_step (hfeed : command.isFeed = true) (hdraft : command.isDraft = false) :
    (a.step command).after.feed.kept = a.feed.kept := by
  have hasks : command.asksFeed = true := by
    cases command <;> simp [Command.isFeed, Command.isDraft] at hfeed hdraft <;> rfl
  obtain ⟨streams, closed, hafter⟩ := exists_streams_step a hasks
  rw [hafter]

theorem brings_step (h : a.Made) (hdraft : command.isDraft = false) : Brings (a.step command) := by
  have htold : ∀ record ∈ (a.step command).reply.mentions, record.Made :=
    fun record hrecord => h.of_holds (holds_of_told hdraft hrecord)
  cases (doing_step a hdraft).2 with
  | rests _ hstore hsame _ hchanges _ =>
    have hkept : (a.step command).after.feed.kept = a.feed.kept := by
      cases hfeed : command.isFeed with
      | true => exact kept_step hfeed hdraft
      | false => rw [hsame hfeed]
    refine ⟨⟨by rw [hstore]; exact h.store, by rw [hkept]; exact h.feed⟩, ?_, htold⟩
    rw [hchanges]
    simp
  | counts _ hstore hfeed _ hchanges _ =>
    refine ⟨⟨by rw [hstore]; exact h.store, by rw [hfeed]; exact h.feed⟩, ?_, htold⟩
    rw [hchanges]
    simp
  | @applies reducer event _ _ _ hstore hfeed _ hchanges _ =>
    obtain ⟨hleft, hreported⟩ := Ledger.made_apply (l := a.ledger reducer) h.store event
    have hnew : ∀ c ∈ (a.step command).changes, c.Made := fun c hc =>
      hreported c ((sublist_reported _ _).subset (hchanges ▸ hc))
    refine ⟨⟨by rw [hstore]; exact hleft, fun c hc => ?_⟩, hnew, htold⟩
    rw [hfeed] at hc
    rcases Feed.mem_kept_publishAll hc with hkept | hc
    · exact h.feed c hkept
    · exact hnew c hc

/-- Every deed brings records only that were made. -/
theorem brings_act (h : a.Made) (deed : Deed) : Brings (a.act deed) := by
  cases deed with
  | meddle m => exact brings_meddle h m
  | command command =>
    cases hdraft : command.isDraft with
    | false => exact brings_step h hdraft
    | true =>
      rcases draft_cases h.store hdraft with ⟨crash, hcrash⟩ | ⟨m, hm⟩
      · rw [act, hcrash]
        exact ⟨h, by simp, by simp [Reply.mentions]⟩
      · rw [act, hm]
        exact brings_meddle h m

theorem made_create {counters capacity : Nat} {reducers : List Reducer} {start : Assembly}
    (h : create counters reducers capacity = .ok start) : start.Made := by
  obtain ⟨feed, hfeed, rfl⟩ := exists_of_create h
  have hkept : feed.kept = [] := by
    rw [(Feed.carries_create hfeed).1.kept, List.drop_nil]
  exact ⟨Store.made_empty, by simp [hkept]⟩

/-! ## Order of revisions -/

/-- A deed whose assertion on the revisions has failed has left everything as it was, or it is a
    reducer that has broken off in front of the item at which it did. -/
theorem stopped_of_regressed (h : a.Made) {deed : Deed}
    (hreply : (a.act deed).reply = .crashed .revisionRegressed) :
    (a.act deed).after = a ∧ (a.act deed).changes = []
      ∨ ∃ command reducer event i, deed = .command command ∧ a.Employs reducer
        ∧ a.eventsOf command = [event] ∧ (a.ledger reducer).StopsAt event i .revisionRegressed
        ∧ LeavesOff a reducer event i .revisionRegressed (a.act deed) := by
  cases deed with
  | meddle m =>
    have hm := meddled_meddle a m
    exact Or.inl ⟨hm.crashed _ hreply, hm.changes⟩
  | command command =>
    cases hdraft : command.isDraft with
    | true =>
      rcases draft_cases h.store hdraft with ⟨crash, hcrash⟩ | ⟨m, hm⟩
      · exact Or.inl (by simp [act, hcrash])
      · have hmeddled := meddled_meddle a m
        rw [act, hm] at hreply ⊢
        exact Or.inl ⟨hmeddled.crashed _ hreply, hmeddled.changes⟩
    | false =>
      cases hreduces : command.reduces with
      | false => exact absurd ((reply_step hreduces hdraft).2 _ hreply) (by decide)
      | true =>
        have hdoing := (doing_step a hdraft).2
        rw [hreduces] at hdoing
        obtain ⟨reducer, event, i, hemployed, hevents, hstops, hleaves⟩ := hdoing.leavesOff hreply
        exact Or.inr ⟨command, reducer, event, i, rfl, hemployed, hevents, hstops, hleaves⟩

/-- What holds of the records of an assembly, and of what it does next. -/
structure Ordered (a : Assembly) : Prop where
  /-- Every record in the store was created before it was modified, or then, and stands under its
      own key. -/
  stored : ∀ e ∈ a.store.entries,
    e.2.createRevision ≤ e.2.modifyRevision ∧ e.2.key? = some e.1
  /-- So was every record, also as the previous one, of a change that is before a stream, -/
  unread : ∀ name s, a.feed.stream? name = some s → ∀ c ∈ a.feed.unread s, ∀ r ∈ c.records,
    r.createRevision ≤ r.modifyRevision
  /-- that a stream delivers, or that is returned, for one when its key is deleted, -/
  told : ∀ deed, ∀ r ∈ (a.act deed).reply.mentions, r.createRevision ≤ r.modifyRevision
  /-- and that a reducer reports. -/
  reported : ∀ deed, ∀ c ∈ (a.act deed).changes, ∀ r ∈ c.records,
    r.createRevision ≤ r.modifyRevision
  /-- A deed that is refused by a crash because it would make another one leaves everything as it
      was, or as the items before the one at which it has crashed have left it. -/
  crashed : ∀ deed, (a.act deed).reply = .crashed .revisionRegressed →
    (a.act deed).after = a ∧ (a.act deed).changes = []
      ∨ ∃ command reducer event i, deed = .command command ∧ a.Employs reducer
        ∧ a.eventsOf command = [event] ∧ (a.ledger reducer).StopsAt event i .revisionRegressed
        ∧ LeavesOff a reducer event i .revisionRegressed (a.act deed)

/-- **Revisions of a record are in order in every world.** Whatever was done to an assembly, by
    reducers with any counters, by runs and streams, and by those who put and delete records and
    send changes past all of them, with deeds that crash in between. -/
theorem ordered_perform {counters capacity : Nat} {reducers : List Reducer} {start : Assembly}
    (hcreate : create counters reducers capacity = .ok start) (deeds : List Deed) :
    (start.perform deeds).Ordered := by
  have h : (start.perform deeds).Made :=
    perform_preserves (P := Made) (fun deed h => (brings_act h deed).after) (made_create hcreate)
      deeds
  constructor
  case stored => exact fun e he => ⟨Record.made_iff.1 (h.store e he).1, (h.store e he).2⟩
  case unread =>
    intro name s _ c hc r hr
    exact Record.made_iff.1 (h.feed c (Feed.mem_unread hc) r hr)
  case told => exact fun deed r hr => Record.made_iff.1 ((brings_act h deed).told r hr)
  case reported =>
    exact fun deed c hc r hr => Record.made_iff.1 ((brings_act h deed).changes c hc r hr)
  case crashed => exact fun deed hreply => stopped_of_regressed h hreply

/-- A record from far ahead is put, a record of the store is put again at another revision, a reducer
    that is behind modifies it, and somebody sends a change of a key that never was. Then an event
    comes to the record from far ahead. -/
theorem ordered_backwards :
    let pair := fun key value => Item.raw ⟨key, [value]⟩
    let reducers : List Reducer := [{}, { counter := 1 }]
    let start : Assembly :=
      { counters := [{}, {}], reducers := reducers.map some, feed := { width := 4 }
        senders := [firstSender] }
    let deeds : List Deed :=
      [.meddle (.put ⟨pair "a" 1, 9, 9⟩ (by decide)), .command (.subscribe "s" "b"),
        .command (.apply 0 ⟨.add, [pair "b" 2]⟩), .command (.put ⟨pair "b" 3, 7, some "b"⟩),
        .command (.apply 1 ⟨.update, [pair "b" 4]⟩),
        .meddle (.send (.delete ⟨pair "c" 5, 2, 6⟩ ⟨pair "c" 6, 2, 2⟩) (by decide))]
    let late : Deed := .command (.apply 0 ⟨.update, [pair "b" 7, pair "a" 8]⟩)
    let a := start.perform deeds
    create 2 reducers 4 = .ok start ∧ a.Ordered ∧ (a.perform [late]).Ordered
      ∧ a.store.records = [⟨pair "a" 1, 9, 9⟩, ⟨pair "b" 4, 1, 1⟩]
      ∧ (a.act late).reply = .crashed .revisionRegressed
      ∧ (a.act late).changes = [.put ⟨pair "b" 7, 1, 2⟩ (some ⟨pair "b" 4, 1, 1⟩)]
      ∧ (a.act late).after.store.records = [⟨pair "a" 1, 9, 9⟩, ⟨pair "b" 7, 1, 2⟩] := by
  intro pair reducers start deeds late a
  have hcreate : create 2 reducers 4 = .ok start := by decide
  have hordered : a.Ordered := ordered_perform hcreate deeds
  have hlate : (a.perform [late]).Ordered := by
    have h := ordered_perform hcreate (deeds ++ [late])
    rw [perform, List.foldl_append] at h
    exact h
  exact ⟨hcreate, hordered, hlate, by decide, rfl, by decide, by decide⟩

end Assembly

end KeyRelay
