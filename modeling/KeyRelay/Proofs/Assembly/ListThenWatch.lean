import Mathlib.Data.List.Infix
import KeyRelay.Proofs.Assembly.Steps

set_option autoImplicit false

/-! # List, then watch

A client reads the records of a range and subscribes to it in the same state. From then on the
changes it hears on its stream, replayed on the records it has read, give what a read of the range
gives, whenever nothing more is before the stream (`Assembly.listThenWatch`). What makes this work
is that the store and the feed go by the same changes, that the stream divides these changes into
those behind it and those before it, and that pattern and range mean the same keys. -/

namespace KeyRelay

namespace Assembly

/-! ## A client -/

/-- An assembly and the changes that a client has heard on its stream. -/
structure Client where
  assembly : Assembly
  heard : List Change := []

/-- The changes that a reply delivers on the stream of this name. -/
def Command.delivers (name : String) : Command → Reply → List Change
  | .poll n, .change answer => if n = name then answer.heard else []
  | .drain n, .changes answers => if n = name then answers.flatMap (·.heard) else []
  | _, _ => []

/-- The client learns what a command delivers on its stream. -/
def Client.step (name : String) (w : Client) (command : Command) : Client where
  assembly := (w.assembly.step command).after
  heard := w.heard ++ command.delivers name (w.assembly.step command).reply

/-- The client and the assembly after some commands. -/
def Client.follow (name : String) (w : Client) (commands : List Command) : Client :=
  commands.foldl (Client.step name) w

/-- The command does not write past the reducers, and leaves the feed open. -/
def Command.isOrderly (command : Command) : Bool :=
  !command.isWrite && command ≠ .closeFeed

/-- The command publishes nothing past the reducers, and neither replaces nor ends the stream of
    this name. -/
def Command.spares (name : String) : Command → Bool
  | .emit _ _ => false
  | .subscribe n _ | .unsubscribe n => n ≠ name
  | _ => true

/-- No more changes are before the stream of this name than the feed keeps. -/
def keepsPace (a : Assembly) (name : String) : Bool :=
  (a.feed.stream? name).all fun s => a.feed.published ≤ s.position + a.feed.width

/-! ## Before the subscription -/

/-- Everything was written through observed reducers, and the feed is open. -/
structure InOrder (a : Assembly) : Prop where
  store : a.store.Sound
  observed : a.Observed
  isOpen : a.feed.closed = false
  carries : ∃ all, a.feed.Carries all

variable {a : Assembly}

theorem inOrder_create {counters capacity : Nat} {reducers : List Reducer}
    (h : create counters reducers capacity = .ok a)
    (hobserved : ∀ reducer ∈ reducers, reducer.observed = true) : a.InOrder := by
  have hreducers := observed_create h hobserved
  obtain ⟨feed, hfeed, rfl⟩ := exists_of_create h
  obtain ⟨hcarries, hopen⟩ := Feed.carries_create hfeed
  exact ⟨Store.sound_empty, hreducers, hopen, [], hcarries⟩

/-- Whatever is done to the streams, the feed carries the same changes. -/
theorem InOrder.of_feed (h : a.InOrder) {feed : Feed} (hopen : feed.closed = false)
    (hcarries : ∃ all, feed.Carries all) : InOrder { a with feed } :=
  ⟨h.store, ⟨h.observed.idle, h.observed.running⟩, hopen, hcarries⟩

/-- Store and feed go by the same changes. -/
theorem InOrder.of_works (h : a.InOrder) {changes : List Change} {b : Assembly}
    (hworks : Works a changes b) : b.InOrder := by
  obtain ⟨all, hcarries⟩ := h.carries
  constructor
  case store => exact hworks.store.sound h.store
  case observed => exact hworks.observed
  case isOpen =>
    rw [hworks.feed]
    exact (Feed.publishAll_of_open h.isOpen changes).1
  case carries =>
    rw [hworks.feed]
    exact ⟨_, hcarries.publishAll h.isOpen changes⟩

/-- An orderly command is no write past the reducers and does not close the feed. -/
theorem Command.isOrderly_iff {command : Command} :
    command.isOrderly = true ↔ command.isWrite = false ∧ command ≠ .closeFeed := by
  rw [isOrderly, Bool.and_eq_true, Bool.not_eq_true', decide_eq_true_iff]

theorem InOrder.step (h : a.InOrder) {command : Command} (horderly : command.isOrderly = true) :
    (a.step command).after.InOrder := by
  obtain ⟨hwrite, hclose⟩ := Command.isOrderly_iff.1 horderly
  obtain ⟨all, hcarries⟩ := h.carries
  have hmoved : ∀ (n : String) (f : Feed) (position : Nat),
      f.Carries all ∧ f.closed = false → (f.move n position).Carries all
        ∧ (f.move n position).closed = false :=
    fun _ _ _ hf => ⟨⟨hf.1.published, hf.1.kept⟩, hf.2⟩
  cases hfeed : command.isFeed with
  | false =>
    obtain ⟨changes, hworks⟩ := works_step h.observed hwrite hfeed
    exact h.of_works hworks
  | true =>
    cases command with
    | emit draft delete =>
      show (a.emitChange draft delete).after.InOrder
      unfold emitChange
      split
      · refine h.of_feed ?_ ⟨_, hcarries.publish h.isOpen _⟩
        rw [Feed.publish_of_open h.isOpen]
        exact h.isOpen
      · exact h
    | subscribe name pattern =>
      show (a.subscribe name pattern).after.InOrder
      unfold subscribe
      split
      · exact h
      · exact h.of_feed h.isOpen ⟨all, hcarries.published, hcarries.kept⟩
    | poll name =>
      obtain ⟨hall, hopen⟩ := Feed.poll_preserves (hmoved name) ⟨hcarries, h.isOpen⟩
      exact h.of_feed hopen ⟨all, hall⟩
    | drain name =>
      obtain ⟨hall, hopen⟩ := Feed.drainFor_preserves (hmoved name) ⟨hcarries, h.isOpen⟩
        (a.feed.kept.length + 1)
      exact h.of_feed hopen ⟨all, hall⟩
    | unsubscribe name => exact h.of_feed h.isOpen ⟨all, hcarries.published, hcarries.kept⟩
    | closeFeed => exact absurd rfl hclose
    | _ => simp [Command.isFeed] at hfeed

theorem InOrder.follow (h : a.InOrder) {commands : List Command}
    (horderly : ∀ command ∈ commands, command.isOrderly = true) :
    (a.follow commands).InOrder := by
  induction commands generalizing a with
  | nil => exact h
  | cons command rest ih =>
    exact ih (h.step (horderly command List.mem_cons_self)) fun c hc =>
      horderly c (List.mem_cons_of_mem _ hc)

/-! ## After the subscription -/

/-- A client that has subscribed when the store was `origin`: since then the store has come by the
    changes in `read` and `late`, of which the stream has the former behind it and the latter
    before it, and the client has heard what its pattern accepts of the former. -/
structure Client.Following (name : String) (pattern : Pattern) (origin : Store)
    (early read late : List Change) (w : Client) : Prop where
  observed : w.assembly.Observed
  feed : w.assembly.feed.Follows name pattern (early ++ read) late
  store : origin.Evolves (read ++ late) w.assembly.store
  heard : w.heard = read.filter (·.concerns pattern.accepts)

namespace Client

variable {name : String} {pattern : Pattern} {origin : Store} {early read late : List Change}
  {w : Client}

/-- No more than the feed keeps is before a stream that keeps pace. -/
theorem Following.length_le (h : w.Following name pattern origin early read late)
    (hpace : w.assembly.keepsPace name = true) :
    late.length ≤ w.assembly.feed.width := by
  rw [keepsPace, h.feed.stream, Option.all_some, decide_eq_true_iff] at hpace
  rw [h.feed.carries.published, List.length_append] at hpace
  exact Nat.le_of_add_le_add_left hpace

/-- Commands that are not addressed to the feed put changes before the stream. -/
theorem Following.works (h : w.Following name pattern origin early read late)
    {changes : List Change} {b : Assembly} (hworks : Works w.assembly changes b) :
    Following name pattern origin early read (late ++ changes) ⟨b, w.heard⟩ where
  observed := hworks.observed
  feed := by
    rw [hworks.feed]
    exact h.feed.publishAll hworks.store.keyed
  store := by
    rw [← List.append_assoc]
    exact h.store.trans hworks.store
  heard := h.heard

/-- What is done to other streams is of no concern. -/
theorem Following.of_feed (h : w.Following name pattern origin early read late) {feed : Feed}
    (hfeed : feed.Follows name pattern (early ++ read) late) :
    Following name pattern origin early read late ⟨{ w.assembly with feed }, w.heard⟩ :=
  ⟨⟨h.observed.idle, h.observed.running⟩, hfeed, h.store, h.heard⟩

/-- The stream moves over some of the changes before it, and the client hears what its pattern
    accepts of them. -/
theorem Following.advance {first rest : List Change}
    (h : w.Following name pattern origin early read (first ++ rest)) {feed : Feed}
    (hfeed : feed.Follows name pattern (early ++ read ++ first) rest) :
    Following name pattern origin early (read ++ first) rest
      ⟨{ w.assembly with feed }, w.heard ++ first.filter (·.concerns pattern.accepts)⟩ where
  observed := ⟨h.observed.idle, h.observed.running⟩
  feed := by rwa [← List.append_assoc]
  store := by
    rw [List.append_assoc]
    exact h.store
  heard := by rw [List.filter_append, h.heard]

theorem step_eq (w : Client) (name : String) (command : Command) :
    w.step name command = ⟨(w.assembly.step command).after,
      w.heard ++ command.delivers name (w.assembly.step command).reply⟩ := rfl

/-- Polling the stream. -/
theorem Following.poll (h : w.Following name pattern origin early read late)
    (hpace : w.assembly.keepsPace name = true) :
    ∃ first rest answer, late = first ++ rest
      ∧ (w.assembly.step (.poll name)).reply = .change answer
      ∧ (answer = .pending → rest = [] ∧ first.filter (·.concerns pattern.accepts) = [])
      ∧ (w.step name (.poll name)).Following name pattern origin early (read ++ first) rest := by
  obtain ⟨first, rest, answer, rfl, hanswer, hmoved, hheard, hlast⟩ :=
    h.feed.poll (h.length_le hpace)
  have hreply : (w.assembly.step (.poll name)).reply = .change answer := by
    simp only [Assembly.step, pollStream, hanswer]
  refine ⟨first, rest, answer, rfl, hreply, ?_, ?_⟩
  · rintro rfl
    rcases hlast with ⟨-, rfl⟩ | ⟨c, hc⟩
    · exact ⟨rfl, hheard.symm⟩
    · simp at hc
  · rw [step_eq, hreply]
    have hdelivers : Command.delivers name (.poll name) (.change answer)
        = first.filter (·.concerns pattern.accepts) := by
      rw [← hheard]
      exact if_pos rfl
    have hnext := h.feed.move
    rw [← hmoved] at hnext
    rw [hdelivers]
    exact h.advance hnext

/-- Draining the stream. -/
theorem Following.drain (h : w.Following name pattern origin early read late)
    (hpace : w.assembly.keepsPace name = true) :
    (w.assembly.step (.drain name)).reply
        = .changes ((late.filter (·.concerns pattern.accepts)).map .change ++ [.pending])
      ∧ (w.step name (.drain name)).Following name pattern origin early (read ++ late) [] := by
  obtain ⟨hanswers, hdrained⟩ := h.feed.drain (h.length_le hpace)
  have hreply : (w.assembly.step (.drain name)).reply
      = .changes ((late.filter (·.concerns pattern.accepts)).map .change ++ [.pending]) := by
    simp only [Assembly.step, drainStream, hanswers]
  refine ⟨hreply, ?_⟩
  have hdelivers : ∀ changes : List Change,
      Command.delivers name (.drain name) (.changes (changes.map .change ++ [.pending]))
        = changes := by
    intro changes
    simp [Command.delivers, List.flatMap_map, Stream.Answer.heard]
  have hall : w.Following name pattern origin early read (late ++ []) := by
    rwa [List.append_nil]
  rw [step_eq, hreply, hdelivers]
  exact hall.advance hdrained

/-- A command that delivers nothing on the stream leaves the client as it is. -/
theorem Following.silent {command : Command}
    (hnone : command.delivers name (w.assembly.step command).reply = [])
    (h : Following name pattern origin early read late ⟨(w.assembly.step command).after, w.heard⟩) :
    (w.step name command).Following name pattern origin early read late := by
  rwa [step_eq, hnone, List.append_nil]

theorem delivers_poll_of_ne {n : String} (hne : n ≠ name) (reply : Reply) :
    Command.delivers name (.poll n) reply = [] := by
  cases reply <;> simp [Command.delivers, hne]

theorem delivers_drain_of_ne {n : String} (hne : n ≠ name) (reply : Reply) :
    Command.delivers name (.drain n) reply = [] := by
  cases reply <;> simp [Command.delivers, hne]

theorem delivers_of_not_isFeed {command : Command} (hfeed : command.isFeed = false)
    (reply : Reply) : command.delivers name reply = [] := by
  cases command with
  | poll _ => simp [Command.isFeed] at hfeed
  | drain _ => simp [Command.isFeed] at hfeed
  | _ => rfl

/-- Polling another stream. -/
theorem Following.poll_of_ne (h : w.Following name pattern origin early read late) {n : String}
    (hne : n ≠ name) :
    (w.step name (.poll n)).Following name pattern origin early read late := by
  have hfeed : (w.assembly.feed.poll n).2.2.Follows name pattern (early ++ read) late :=
    Feed.poll_preserves (P := fun f => f.Follows name pattern (early ++ read) late)
      (fun _ position hf => hf.move_of_ne hne position) h.feed
  exact .silent (delivers_poll_of_ne hne _) (h.of_feed hfeed)

/-- Draining another stream. -/
theorem Following.drain_of_ne (h : w.Following name pattern origin early read late) {n : String}
    (hne : n ≠ name) :
    (w.step name (.drain n)).Following name pattern origin early read late := by
  have hfeed : (w.assembly.feed.drain n).2.2.Follows name pattern (early ++ read) late :=
    Feed.drainFor_preserves (P := fun f => f.Follows name pattern (early ++ read) late)
      (fun _ position hf => hf.move_of_ne hne position) h.feed _
  exact .silent (delivers_drain_of_ne hne _) (h.of_feed hfeed)

/-- Whatever orderly command is carried out, the client keeps following. -/
theorem Following.step (h : w.Following name pattern origin early read late)
    (hpace : w.assembly.keepsPace name = true) {command : Command}
    (horderly : command.isOrderly = true) (hspares : command.spares name = true) :
    ∃ read late, (w.step name command).Following name pattern origin early read late := by
  obtain ⟨hwrite, hclose⟩ := Command.isOrderly_iff.1 horderly
  cases hfeed : command.isFeed with
  | false =>
    obtain ⟨changes, hworks⟩ := works_step h.observed hwrite hfeed
    exact ⟨_, _, .silent (delivers_of_not_isFeed hfeed _) (h.works hworks)⟩
  | true =>
    -- Unless the stream itself is read, it is another one that is started, ended or read.
    cases command with
    | emit _ _ => simp [Command.spares] at hspares
    | closeFeed => exact absurd rfl hclose
    | subscribe n pattern' =>
      have hne : n ≠ name := by simpa [Command.spares] using hspares
      refine ⟨read, late, .silent rfl ?_⟩
      show Following _ _ _ _ _ _ ⟨(w.assembly.subscribe n pattern').after, w.heard⟩
      unfold Assembly.subscribe
      rw [h.feed.isOpen]
      exact h.of_feed (h.feed.of_streams (Feed.stream?_subscribe_of_ne hne _ pattern'))
    | unsubscribe n =>
      have hne : n ≠ name := by simpa [Command.spares] using hspares
      refine ⟨read, late, .silent rfl (h.of_feed ?_)⟩
      exact h.feed.of_streams (Feed.stream?_unsubscribe hne w.assembly.feed)
    | poll n =>
      by_cases hn : n = name
      · subst hn
        obtain ⟨first, rest, -, -, -, -, hnext⟩ := h.poll hpace
        exact ⟨_, _, hnext⟩
      · exact ⟨_, _, h.poll_of_ne hn⟩
    | drain n =>
      by_cases hn : n = name
      · subst hn
        exact ⟨_, _, (h.drain hpace).2⟩
      · exact ⟨_, _, h.drain_of_ne hn⟩
    | _ => simp [Command.isFeed] at hfeed

theorem Following.follow {commands : List Command}
    (h : w.Following name pattern origin early read late)
    (horderly : ∀ c ∈ commands, c.isOrderly = true ∧ c.spares name = true)
    (hpace : ∀ done, done <+: commands → (w.follow name done).assembly.keepsPace name = true) :
    ∃ read late, (w.follow name commands).Following name pattern origin early read late := by
  induction commands generalizing w read late with
  | nil => exact ⟨read, late, h⟩
  | cons command rest ih =>
    obtain ⟨hcommand, hspares⟩ := horderly command List.mem_cons_self
    obtain ⟨read', late', hnext⟩ := h.step (hpace [] List.nil_prefix) hcommand hspares
    -- What the rest has done by some point, all commands have done by the point after it.
    refine ih hnext (fun c hc => horderly c (List.mem_cons_of_mem _ hc)) fun done hdone => ?_
    exact hpace (command :: done) (List.cons_prefix_cons.2 ⟨rfl, hdone⟩)

/-- A client with nothing before its stream holds the part of the store that its pattern stands
    for. -/
theorem Following.only_eq (h : w.Following name pattern origin early read late)
    (horigin : origin.Sound) :
    w.assembly.store.only pattern.accepts
      = ((w.heard ++ late.filter (·.concerns pattern.accepts)).foldl Store.replay
          (.ofRecords (origin.only pattern.accepts).records)) := by
  rw [(horigin.only _).ofRecords_records, h.store.only horigin.sorted, List.filter_append, h.heard]

end Client

/-! ## List, then watch -/

variable {a : Assembly}

/-- The client that subscribes to a pattern. -/
def subscribed (a : Assembly) (name : String) (pattern : Pattern) : Client :=
  { assembly := (a.step (.subscribe name pattern)).after }

theorem InOrder.following_subscribed (h : a.InOrder) (name : String) (pattern : Pattern) :
    ∃ early, (a.subscribed name pattern).Following name pattern a.store early [] [] := by
  obtain ⟨all, hcarries⟩ := h.carries
  refine ⟨all, ?_⟩
  show Client.Following _ _ _ _ _ _ ⟨(a.subscribe name pattern).after, []⟩
  unfold Assembly.subscribe
  rw [h.isOpen]
  constructor
  case observed => exact ⟨h.observed.idle, h.observed.running⟩
  case feed =>
    rw [List.append_nil]
    exact hcarries.follows_subscribe h.isOpen name pattern
  case store => exact .refl a.store
  case heard => rfl

/-- The records of a `view` that a client has read in the state `a`, with what it hears from then
    on by a pattern, are the records of the view whenever the stream has nothing more for it.
    Commands may be carried out in any order, as long as they leave the stream in place and write
    through the reducers, and the stream keeps pace. -/
def Watches (a : Assembly) (name : String) (pattern : Pattern) (view : Store → List Record) :
    Prop :=
  ∀ later : List Command,
    (∀ c ∈ later, c.isOrderly = true ∧ c.spares name = true) →
    (∀ done, done <+: later →
      ((a.subscribed name pattern).follow name done).assembly.keepsPace name = true) →
    let w := (a.subscribed name pattern).follow name later
    let snapshot := Store.ofRecords (view a.store)
    ((w.assembly.step (.poll name)).reply = .change .pending →
        (w.heard.foldl Store.replay snapshot).records = view w.assembly.store)
      ∧ ∃ changes : List Change,
          (w.assembly.step (.drain name)).reply = .changes (changes.map .change ++ [.pending])
            ∧ ((w.heard ++ changes).foldl Store.replay snapshot).records
                = view (w.assembly.step (.drain name)).after.store

theorem InOrder.watches (h : a.InOrder) (name : String) {pattern : Pattern}
    {view : Store → List Record}
    (hview : ∀ s : Store, s.Sorted → view s = (s.only pattern.accepts).records) :
    a.Watches name pattern view := by
  intro later horderly hpace w snapshot
  obtain ⟨early, hstart⟩ := h.following_subscribed name pattern
  obtain ⟨read, late, hw⟩ := hstart.follow horderly hpace
  have hlast : w.assembly.keepsPace name = true := hpace later (List.prefix_refl later)
  have hsorted : w.assembly.store.Sorted := (hw.store.sound h.store).sorted
  have honly := hw.only_eq h.store
  rw [← hview a.store h.store.sorted] at honly
  constructor
  · -- A poll that waits has consumed everything, and none of it was for this client.
    intro hpending
    obtain ⟨first, rest, answer, rfl, hreply, hnone, -⟩ := hw.poll hlast
    obtain ⟨rfl, hfilter⟩ := hnone (Reply.change.inj (hreply.symm.trans hpending))
    rw [List.append_nil, hfilter, List.append_nil] at honly
    rw [hview _ hsorted, honly]
  · obtain ⟨hreply, -⟩ := hw.drain hlast
    refine ⟨late.filter (·.concerns pattern.accepts), hreply, ?_⟩
    show _ = view w.assembly.store
    rw [hview _ hsorted, honly]

/-- **List, then watch.** In every state that was reached by writing through observed reducers
    only, a client that reads a range and subscribes to it stays up to date with it, and so does
    one that reads a single key and subscribes to this key. -/
theorem listThenWatch {counters capacity : Nat} {reducers : List Reducer} {start : Assembly}
    (hcreate : create counters reducers capacity = .ok start)
    (hobserved : ∀ reducer ∈ reducers, reducer.observed = true) {before : List Command}
    (hbefore : ∀ command ∈ before, command.isOrderly = true) (name : String) :
    (∀ stem : Key, (start.follow before).Watches name (stem ++ "*") (·.range stem))
      ∧ ∀ key : Key, key.toList.getLast? ≠ some '*' →
          (start.follow before).Watches name key fun s => (s.get? key).toList := by
  have horder := (inOrder_create hcreate hobserved).follow hbefore
  constructor
  · intro stem
    refine horder.watches name fun s hs => ?_
    rw [hs.range_eq]
    congr 2
    funext key
    rw [Pattern.accepts_append_star]
  · intro key hkey
    refine horder.watches name fun s hs => ?_
    rw [hs.toList_get?]
    congr 2
    funext k
    rw [Pattern.accepts_of_getLast? hkey]

/-- Two changes are before the stream before one of them is polled, and a third one comes then. -/
theorem listThenWatch_interleaved :
    let pair := fun key value => Item.raw ⟨key, [value]⟩
    let start : Assembly :=
      { counters := [{}], reducers := [some {}], feed := { width := 2 }, senders := [firstSender] }
    let before : List Command := [.apply 0 ⟨.add, [pair "a" 1, pair "b" 2, pair "ab" 3]⟩]
    let later : List Command :=
      [.apply 0 ⟨.update, [pair "a" 4, pair "b" 5]⟩, .poll "w", .apply 0 ⟨.delete, [pair "ab" 6]⟩]
    create 1 [{}] 2 = .ok start
      ∧ (∀ command ∈ before, command.isOrderly = true)
      ∧ (start.follow before).Watches "w" ("a" ++ "*") (·.range "a")
      ∧ (start.follow before).Watches "w" "b" (fun s => (s.get? "b").toList)
      ∧ (∀ c ∈ later, c.isOrderly = true ∧ c.spares "w" = true)
      ∧ (∀ done, done <+: later → (((start.follow before).subscribed "w" ("a" ++ "*")).follow "w"
          done).assembly.keepsPace "w" = true)
      ∧ (((start.follow before).subscribed "w" ("a" ++ "*")).follow "w"
          (later ++ [.drain "w"])).heard
        = [.put ⟨pair "a" 4, 1, 4⟩ (some ⟨pair "a" 1, 1, 1⟩),
            .delete ⟨pair "ab" 6, 3, 6⟩ ⟨pair "ab" 3, 3, 3⟩] := by
  intro pair start before later
  have hcreate : create 1 [{}] 2 = .ok start := by decide
  have hbefore : ∀ command ∈ before, command.isOrderly = true := by decide
  have hwatch := listThenWatch hcreate (by decide) hbefore "w"
  have hinits : ∀ done ∈ later.inits, (((start.follow before).subscribed "w" ("a" ++ "*")).follow
      "w" done).assembly.keepsPace "w" = true := by decide
  exact ⟨hcreate, hbefore, hwatch.1 "a", hwatch.2 "b" (by decide), by decide,
    fun done hdone => hinits done ((List.mem_inits _ _).2 hdone), by decide⟩

end Assembly

end KeyRelay
