import Mathlib.Algebra.GroupWithZero.Nat
import KeyRelay.Proofs.Feed.Reading

set_option autoImplicit false

/-! # The accounts of a stream

Senders come and go and publish changes, and streams are started, polled and ended, in any order.
At every moment in the life of a stream, the changes that were sent since it was started are
divided into those it has consumed and those it has not (`Audience.Heeds`). The former are in its
books; of the latter, a poll skips what exceeds the width of the feed, and no more
(`Audience.accounts_run`). -/

namespace KeyRelay.Feed

/-! ## The width of a feed -/

/-- A power of two that is not below `n`, and no smaller one is. -/
theorem powerOfTwo_spec (n : Nat) :
    ∃ k, powerOfTwo n = 2 ^ k ∧ n ≤ 2 ^ k ∧ ∀ j, n ≤ 2 ^ j → k ≤ j := by
  unfold powerOfTwo
  split
  · next hone => exact ⟨0, rfl, hone, fun j _ => Nat.zero_le j⟩
  · next hmore =>
      refine ⟨(n - 1).log2 + 1, rfl, ?_, fun j hj => ?_⟩
      · have := Nat.lt_log2_self (n := n - 1)
        omega
      · exact (Nat.log2_lt (by omega)).2 (by omega)

theorem width_of_create {capacity : Nat} {f : Feed} (h : create capacity = .ok f) :
    f.width = powerOfTwo capacity := by
  rw [eq_of_create h]

/-! ## An audience -/

/-- What senders, streams and their owners do to a feed. -/
inductive Act where
  /-- A sender is cloned. -/
  | addSender
  | dropSender
  /-- One of the senders sends a change. -/
  | publish (change : Change)
  | subscribe (name : String) (pattern : Pattern)
  | unsubscribe (name : String)
  | poll (name : String)
  deriving Repr, DecidableEq

/-- What a poll of the stream of this name has come to. -/
structure Hearing where
  name : String
  answer : Except Crash Stream.Answer
  entries : List LogEntry
  deriving Repr, DecidableEq

/-- How many changes the entries say were skipped. -/
def Hearing.skipped (h : Hearing) : Nat :=
  (h.entries.map fun
    | .lagged _ skipped => skipped
    | _ => 0).sum

/-- A feed and its senders, with what was seen of them so far. -/
structure Audience where
  feed : Feed
  senders : Nat := 1
  /-- The changes that were sent, oldest first. -/
  sent : List Change := []
  hearings : List Hearing := []
  deriving Repr, DecidableEq

namespace Audience

/-- The feed is closed when its last sender is dropped, and nothing is sent without a sender. -/
def step (w : Audience) : Act → Audience
  | .addSender => if w.senders = 0 then w else { w with senders := w.senders + 1 }
  | .dropSender =>
      { w with
        senders := w.senders - 1
        feed := if w.senders ≤ 1 then w.feed.close else w.feed }
  | .publish change =>
      if w.senders = 0 then w
      else { w with feed := w.feed.publish change, sent := w.sent ++ [change] }
  | .subscribe name pattern => { w with feed := w.feed.subscribe name pattern }
  | .unsubscribe name => { w with feed := w.feed.unsubscribe name }
  | .poll name =>
      { w with
        feed := (w.feed.poll name).2.2
        hearings := w.hearings
          ++ (w.feed.poll name).1.toList.map fun answer => ⟨name, answer, (w.feed.poll name).2.1⟩ }

/-- Carries out acts one after the other. -/
def follow (w : Audience) (acts : List Act) : Audience := acts.foldl step w

/-- What acts make of a new feed. -/
def run (feed : Feed) (acts : List Act) : Audience := follow { feed } acts

theorem run_append (feed : Feed) (acts more : List Act) :
    run feed (acts ++ more) = (run feed acts).follow more := List.foldl_append

/-! ## What holds of every audience -/

/-- The feed carries what was sent, and is closed once no sender is left. -/
structure Sound (width : Nat) (w : Audience) : Prop where
  carries : w.feed.Carries w.sent
  width : w.feed.width = width
  closed_iff : w.feed.closed = true ↔ w.senders = 0

theorem sound_new {capacity : Nat} {f : Feed} (h : create capacity = .ok f) :
    Sound (powerOfTwo capacity) { feed := f } where
  carries := (carries_create h).1
  width := width_of_create h
  closed_iff := by simp [(carries_create h).2]

variable {width : Nat} {w : Audience}

/-- The streams are no concern of the senders. -/
theorem Sound.of_streams (h : Sound width w) (streams : List (String × Stream))
    (hearings : List Hearing) :
    Sound width { w with feed := { w.feed with streams }, hearings } :=
  ⟨⟨h.carries.published, h.carries.kept⟩, h.width, h.closed_iff⟩

theorem Sound.isOpen (h : Sound width w) (hsenders : w.senders ≠ 0) : w.feed.closed = false := by
  cases hclosed : w.feed.closed with
  | false => rfl
  | true => exact absurd (h.closed_iff.1 hclosed) hsenders

theorem Sound.step (h : Sound width w) (act : Act) : Sound width (w.step act) := by
  cases act with
  | addSender =>
    simp only [Audience.step]
    split
    · exact h
    · next hsenders => exact ⟨h.carries, h.width, by simp [h.isOpen hsenders]⟩
  | dropSender =>
    simp only [Audience.step]
    split
    · next hlast =>
        exact ⟨⟨h.carries.published, h.carries.kept⟩, h.width, by simp [close]; omega⟩
    · next hmore =>
        refine ⟨h.carries, h.width, ?_⟩
        rw [h.isOpen (by omega)]
        simp
        omega
  | publish change =>
    simp only [Audience.step]
    split
    · exact h
    · next hsenders =>
        have hopen := h.isOpen hsenders
        refine ⟨h.carries.publish hopen change, ?_, ?_⟩
        · rw [publish_of_open hopen]
          exact h.width
        · rw [publish_of_open hopen]
          exact h.closed_iff
  | subscribe name pattern => exact h.of_streams _ _
  | unsubscribe name => exact h.of_streams _ _
  | poll name =>
    have hpoll : Sound width { w with feed := (w.feed.poll name).2.2 } :=
      poll_preserves (P := fun feed => Sound width { w with feed })
        (fun _ _ h => h.of_streams _ w.hearings) h
    exact ⟨hpoll.carries, hpoll.width, hpoll.closed_iff⟩

/-! ## The life of a stream -/

end Audience

/-- The act neither ends the stream of this name nor starts another one in its place. -/
def Act.spares (name : String) : Act → Bool
  | .subscribe other _ | .unsubscribe other => other ≠ name
  | .addSender | .dropSender | .publish _ | .poll _ => true

/-- The polls of a stream agree with the changes it has consumed: what they have delivered, what
    they say was skipped, and how many have broken off. -/
def Kept (pattern : Pattern) (consumed : List Change) (hearings : List Hearing) : Prop :=
  ∃ filtered, Stream.Books pattern consumed (hearings.flatMap fun h => Stream.heard h.answer)
    filtered (hearings.map (·.skipped)).sum (hearings.map fun h => Stream.breaks h.answer).sum

theorem Kept.append {pattern : Pattern} {consumed more : List Change}
    {hearings further : List Hearing} (h : Kept pattern consumed hearings)
    (hmore : Kept pattern more further) :
    Kept pattern (consumed ++ more) (hearings ++ further) := by
  obtain ⟨filtered, hbooks⟩ := h
  obtain ⟨filtered', hbooks'⟩ := hmore
  refine ⟨filtered + filtered', ?_⟩
  rw [List.flatMap_append, List.map_append, List.sum_append, List.map_append, List.sum_append]
  exact hbooks.append hbooks'

namespace Audience

variable {width : Nat} {start w : Audience} {name : String} {pattern : Pattern}
  {consumed late : List Change} {heard : List Hearing}

/-- The stream that was started at `start` has consumed some of the changes that were sent since,
    and has the others before it; `heard` are its polls. -/
structure Heeds (start : Audience) (name : String) (pattern : Pattern) (w : Audience)
    (consumed late : List Change) (heard : List Hearing) : Prop where
  sent : w.sent = start.sent ++ (consumed ++ late)
  stream : w.feed.stream? name = some ⟨pattern, start.sent.length + consumed.length⟩
  hearings : ∃ more, w.hearings = start.hearings ++ more ∧ more.filter (·.name = name) = heard
  kept : Kept pattern consumed heard

theorem Sound.heeds_subscribe (h : Sound width start) (name : String) (pattern : Pattern) :
    Heeds start name pattern (start.step (.subscribe name pattern)) [] [] [] where
  sent := (List.append_nil _).symm
  stream := by
    show (start.feed.subscribe name pattern).stream? name = _
    rw [stream?_subscribe, h.carries.published]
    rfl
  hearings := ⟨[], (List.append_nil _).symm, rfl⟩
  kept := ⟨0, .nil⟩

/-- What leaves the stream and what was sent alone. -/
theorem Heeds.aside (h : Heeds start name pattern w consumed late heard) {v : Audience}
    (hsent : v.sent = w.sent) (hstream : v.feed.stream? name = w.feed.stream? name)
    (hhearings : v.hearings = w.hearings) : Heeds start name pattern v consumed late heard where
  sent := hsent.trans h.sent
  stream := hstream.trans h.stream
  hearings := hhearings ▸ h.hearings
  kept := h.kept

theorem Heeds.publish (h : Heeds start name pattern w consumed late heard)
    (hopen : w.feed.closed = false) (change : Change) :
    Heeds start name pattern
      { w with feed := w.feed.publish change, sent := w.sent ++ [change] } consumed
      (late ++ [change]) heard where
  sent := by simp [h.sent]
  stream := by
    rw [publish_of_open hopen]
    exact h.stream
  hearings := h.hearings
  kept := h.kept

/-- Another stream is polled. -/
theorem Heeds.poll_of_ne (h : Heeds start name pattern w consumed late heard) {other : String}
    (hne : other ≠ name) :
    Heeds start name pattern (w.step (.poll other)) consumed late heard where
  sent := h.sent
  stream := by
    refine poll_preserves (P := fun f => f.stream? name = some ⟨pattern, _⟩) ?_ h.stream
    intro f position hstream
    rw [stream?_move, hstream]
    simp [hne.symm]
  hearings := by
    obtain ⟨more, hmore, hheard⟩ := h.hearings
    refine ⟨more ++ (w.feed.poll other).1.toList.map fun answer =>
      ⟨other, answer, (w.feed.poll other).2.1⟩, ?_, ?_⟩
    · rw [← List.append_assoc, ← hmore]
      rfl
    · -- None of the new hearings has the name of this stream.
      rw [List.filter_append, hheard, List.filter_map]
      simp [Function.comp_def, hne]
  kept := h.kept

/-- How many changes a stream has lost that has these before it. -/
theorem Heeds.lost (h : Heeds start name pattern w consumed late heard)
    (hsound : Sound width w) :
    w.feed.lost ⟨pattern, start.sent.length + consumed.length⟩ = late.length - width := by
  show w.feed.published - (start.sent.length + consumed.length) - w.feed.width = _
  rw [hsound.carries.published, hsound.width, h.sent, List.length_append, List.length_append]
  omega

/-- One poll of the stream: what it skips, what it answers, and where the stream stands then. -/
theorem Heeds.poll (h : Heeds start name pattern w consumed late heard)
    (hsound : Sound width w) :
    ∃ answer k, Stream.Hears pattern (if w.senders = 0 then .ended else .pending)
        (late.drop (late.length - width)) answer k
      ∧ w.feed.poll name = (some answer,
          if late.length - width = 0 then [] else [.lagged pattern (late.length - width)],
          w.feed.move name
            (start.sent.length + (consumed.length + (late.length - width + k)))) := by
  have hle : (⟨pattern, start.sent.length + consumed.length⟩ : Stream).position
      ≤ w.sent.length := by
    rw [h.sent, List.length_append, List.length_append]
    show start.sent.length + consumed.length ≤ _
    omega
  obtain ⟨answer, k, hhears, hpoll⟩ := hsound.carries.poll h.stream hle
  rw [h.lost hsound] at hhears hpoll
  refine ⟨answer, k, ?_, ?_⟩
  · -- What comes after the position of the stream is what it has before it.
    have hdrop : w.sent.drop (start.sent.length + consumed.length + (late.length - width))
        = late.drop (late.length - width) := by
      rw [h.sent, ← List.append_assoc, ← List.length_append, List.drop_length_add_append]
    have hclosed : (if w.feed.closed then Stream.Answer.ended else .pending)
        = if w.senders = 0 then .ended else .pending :=
      if_congr hsound.closed_iff rfl rfl
    rwa [hdrop, hclosed] at hhears
  · rw [hpoll]
    simp only [Nat.add_assoc]

/-- The books are kept by a poll. -/
theorem kept_poll (name : String) {silence : Stream.Answer}
    {answer : Except Crash Stream.Answer} {k lost : Nat}
    (hlost : lost ≤ late.length) (hsilence : silence.heard = [])
    (hhears : Stream.Hears pattern silence (late.drop lost) answer k) :
    Kept pattern (late.take (lost + k))
      [⟨name, answer, if lost = 0 then [] else [.lagged pattern lost]⟩] := by
  obtain ⟨filtered, hbooks⟩ := hhears.books hsilence
  have hskipped := Stream.books_skipped pattern (late.take lost)
  rw [List.length_take, Nat.min_eq_left hlost] at hskipped
  have hsum : Hearing.skipped ⟨name, answer, if lost = 0 then [] else [.lagged pattern lost]⟩
      = lost := by
    by_cases hzero : lost = 0
    · simp [Hearing.skipped, hzero]
    · simp [Hearing.skipped, hzero]
  refine ⟨0 + filtered, ?_⟩
  rw [List.take_add]
  simpa [hsum] using hskipped.append hbooks

theorem Heeds.step_poll (h : Heeds start name pattern w consumed late heard)
    (hsound : Sound width w) : ∃ consumed late heard,
      Heeds start name pattern (w.step (.poll name)) consumed late heard := by
  obtain ⟨answer, k, hhears, hpoll⟩ := h.poll hsound
  have hle : late.length - width + k ≤ late.length := by
    have := hhears.le_length
    rw [List.length_drop] at this
    omega
  have hread : (late.take (late.length - width + k)).length = late.length - width + k := by
    rw [List.length_take, Nat.min_eq_left hle]
  have hkept := h.kept.append (kept_poll name (by omega) (by split <;> rfl) hhears)
  generalize (if late.length - width = 0 then []
    else [LogEntry.lagged pattern (late.length - width)]) = entries at hpoll hkept
  obtain ⟨more, hmore, hheard⟩ := h.hearings
  refine ⟨consumed ++ late.take (late.length - width + k), late.drop (late.length - width + k),
    heard ++ [⟨name, answer, entries⟩], ?_⟩
  simp only [Audience.step, hpoll]
  constructor
  case sent => rw [List.append_assoc, List.take_append_drop]; exact h.sent
  case stream =>
    show (w.feed.move name _).stream? name = _
    rw [stream?_move, h.stream, Option.map_some, if_pos rfl, List.length_append, hread]
  case hearings =>
    refine ⟨more ++ [⟨name, answer, entries⟩], ?_, ?_⟩
    · rw [← List.append_assoc, ← hmore]
      rfl
    · rw [List.filter_append, hheard]
      simp
  case kept => exact hkept

theorem Heeds.step (h : Heeds start name pattern w consumed late heard) (hsound : Sound width w)
    {act : Act} (hspares : act.spares name = true) :
    ∃ consumed late heard, Heeds start name pattern (w.step act) consumed late heard := by
  cases act with
  | addSender =>
    refine ⟨_, _, _, h.aside ?_ ?_ ?_⟩ <;> simp only [Audience.step] <;> split <;> rfl
  | dropSender =>
    refine ⟨_, _, _, h.aside rfl ?_ rfl⟩
    simp only [Audience.step]
    split <;> rfl
  | publish change =>
    simp only [Audience.step]
    split
    · exact ⟨_, _, _, h⟩
    · next hsenders => exact ⟨_, _, _, h.publish (hsound.isOpen hsenders) change⟩
  | subscribe other pattern' =>
    have hne : other ≠ name := by simpa [Act.spares] using hspares
    exact ⟨_, _, _, h.aside rfl (stream?_subscribe_of_ne hne _ _) rfl⟩
  | unsubscribe other =>
    have hne : other ≠ name := by simpa [Act.spares] using hspares
    exact ⟨_, _, _, h.aside rfl (stream?_unsubscribe hne _) rfl⟩
  | poll other =>
    by_cases hname : other = name
    · subst hname
      exact h.step_poll hsound
    · exact ⟨_, _, _, h.poll_of_ne hname⟩

theorem Heeds.follow (h : Heeds start name pattern w consumed late heard) (hsound : Sound width w)
    {acts : List Act} (hspares : ∀ act ∈ acts, act.spares name = true) :
    ∃ consumed late heard, Heeds start name pattern (w.follow acts) consumed late heard := by
  induction acts generalizing w consumed late heard with
  | nil => exact ⟨_, _, _, h⟩
  | cons act rest ih =>
    obtain ⟨_, _, _, hnext⟩ := h.step hsound (hspares act List.mem_cons_self)
    exact ih hnext (hsound.step act) fun a ha => hspares a (List.mem_cons_of_mem _ ha)

theorem Sound.follow (h : Sound width w) (acts : List Act) : Sound width (w.follow acts) := by
  induction acts generalizing w with
  | nil => exact h
  | cons act rest ih => exact ih (h.step act)

theorem sound_run {capacity : Nat} {feed : Feed} (h : create capacity = .ok feed)
    (acts : List Act) : Sound (powerOfTwo capacity) (run feed acts) := (sound_new h).follow acts

/-! ## The accounts -/

/-- The changes that were sent between two moments. -/
def sentSince (start now : Audience) : List Change := now.sent.drop start.sent.length

/-- The polls of the stream of this name between two moments. -/
def heardSince (start now : Audience) (name : String) : List Hearing :=
  (now.hearings.drop start.hearings.length).filter (·.name = name)

/-- What holds `now` of the stream of this name that was started at `start`, if it has consumed `c`
    changes since, and the feed was made for this capacity. -/
structure Accounts (capacity : Nat) (start now : Audience) (name : String) (pattern : Pattern)
    (c : Nat) : Prop where
  /-- The width of the feed is the capacity, rounded up to a power of two. -/
  width : ∃ k, now.feed.width = 2 ^ k ∧ capacity ≤ 2 ^ k ∧ ∀ j, capacity ≤ 2 ^ j → k ≤ j
  /-- A pattern accepts itself, and if it ends in a star, all that begins with what is before that
      star. -/
  matching : ∀ key, pattern.accepts key = true
    ↔ key = pattern ∨ ∃ stem : Key, pattern = stem ++ "*" ∧ stem.bytes <+: key.bytes
  /-- The stream has consumed `c` of the changes that were sent since it was started. -/
  position : now.feed.stream? name = some ⟨pattern, start.sent.length + c⟩
  le : c ≤ (sentSince start now).length
  /-- A poll skips changes if and only if more of them are unread than the feed is wide: it skips
      the oldest ones that are too many, and notes how many these are. Of the others, it answers
      the first one that the pattern accepts; if there is none, it consumes all of them and waits,
      or ends if no sender is left. -/
  poll : ∃ answer k, (now.feed.poll name).1 = some answer
    ∧ (now.feed.poll name).2.1
        = (if now.feed.width < (sentSince start now).length - c then
            [.lagged pattern ((sentSince start now).length - c - now.feed.width)] else [])
    ∧ Stream.Hears pattern (if now.senders = 0 then .ended else .pending)
        ((sentSince start now).drop (c + ((sentSince start now).length - c - now.feed.width)))
        answer k
    ∧ (now.feed.poll name).2.2.stream? name = some ⟨pattern, start.sent.length
        + (c + ((sentSince start now).length - c - now.feed.width) + k)⟩
  /-- Every change that was consumed is accounted for once: it was delivered, was filtered out
      because the pattern does not accept it, was skipped and noted, or has broken a poll off. -/
  total : ∃ filtered,
    Stream.Books pattern ((sentSince start now).take c)
      ((heardSince start now name).flatMap fun h => Stream.heard h.answer) filtered
      ((heardSince start now name).map (·.skipped)).sum
      ((heardSince start now name).map fun h => Stream.breaks h.answer).sum
    ∧ ((heardSince start now name).flatMap fun h => Stream.heard h.answer).length + filtered
      + ((heardSince start now name).map (·.skipped)).sum
      + ((heardSince start now name).map fun h => Stream.breaks h.answer).sum = c
  /-- No poll is broken off unless a change without a key was sent. -/
  unbroken : (∀ change ∈ sentSince start now, change.key? ≠ none) →
    ((heardSince start now name).map fun h => Stream.breaks h.answer).sum = 0
  /-- What was delivered was sent since the stream was started and is accepted by the pattern, in
      the order in which it was sent, each change once. -/
  order : ((heardSince start now name).flatMap fun h => Stream.heard h.answer).Sublist
    ((sentSince start now).filter (·.concerns pattern.accepts))
  /-- Nothing is missing unless changes were skipped or a poll was broken off. -/
  lossless : ((heardSince start now name).map (·.skipped)).sum = 0 →
    ((heardSince start now name).map fun h => Stream.breaks h.answer).sum = 0 →
    ((heardSince start now name).flatMap fun h => Stream.heard h.answer)
      = ((sentSince start now).take c).filter (·.concerns pattern.accepts)

theorem Heeds.accounts {capacity : Nat} {now : Audience}
    (h : Heeds start name pattern now consumed late heard)
    (hsound : Sound (powerOfTwo capacity) now) :
    Accounts capacity start now name pattern consumed.length := by
  have hsent : sentSince start now = consumed ++ late := by
    rw [sentSince, h.sent, List.drop_left]
  have hheard : heardSince start now name = heard := by
    obtain ⟨more, hmore, rfl⟩ := h.hearings
    rw [heardSince, hmore, List.drop_left]
  have hlate : (consumed ++ late).length - consumed.length = late.length := by
    rw [List.length_append, Nat.add_sub_cancel_left]
  obtain ⟨filtered, hbooks⟩ := h.kept
  constructor
  case width =>
    rw [hsound.width]
    exact powerOfTwo_spec capacity
  case matching => exact Pattern.accepts_iff pattern
  case position => exact h.stream
  case le =>
    rw [hsent, List.length_append]
    exact Nat.le_add_right _ _
  case poll =>
    obtain ⟨answer, k, hhears, hpoll⟩ := h.poll hsound
    rw [hsent, hlate, hsound.width, List.drop_length_add_append, hpoll]
    refine ⟨answer, k, rfl, ?_, hhears, ?_⟩
    · by_cases hlag : powerOfTwo capacity < late.length
      · rw [if_pos hlag, if_neg (by omega)]
      · rw [if_neg hlag, if_pos (by omega)]
    · rw [stream?_move, h.stream, Option.map_some, if_pos rfl, Nat.add_assoc]
  case total =>
    rw [hsent, hheard, List.take_left]
    exact ⟨filtered, hbooks, hbooks.total⟩
  case unbroken =>
    rw [hsent, hheard]
    intro hkeyed
    exact hbooks.unbroken fun change hchange => hkeyed change (List.mem_append_left _ hchange)
  case order =>
    rw [hsent, hheard, List.filter_append]
    exact hbooks.sublist.trans (List.sublist_append_left _ _)
  case lossless =>
    rw [hsent, hheard, List.take_left]
    exact hbooks.eq_filter

/-- **Delivery and lag.** The accounts of every stream are right at every moment of its life,
    whatever senders and other streams do. -/
theorem accounts_run {capacity : Nat} {feed : Feed} (h : create capacity = .ok feed)
    (before : List Act) (name : String) (pattern : Pattern) {after : List Act}
    (hspares : ∀ act ∈ after, act.spares name = true) :
    ∃ c, Accounts capacity (run feed before) (run feed (before ++ .subscribe name pattern :: after))
      name pattern c := by
  have hstart := sound_run h before
  obtain ⟨consumed, late, heard, hheeds⟩ :=
    (hstart.heeds_subscribe name pattern).follow (hstart.step _) hspares
  have hnow : Heeds (run feed before) name pattern
      (run feed (before ++ .subscribe name pattern :: after)) consumed late heard := by
    rw [run_append]
    exact hheeds
  exact ⟨consumed.length, hnow.accounts (sound_run h _)⟩

/-- A feed of width two: a stream that has not been polled during three changes skips the first
    one, hears the second one and has the third one left. -/
theorem accounts_lagged :
    let change := fun revision => Change.put ⟨.raw ⟨"k", []⟩, 1, revision⟩ none
    let after : List Act :=
      [.publish (change 1), .publish (change 2), .publish (change 3), .dropSender, .poll "s"]
    let start := run { width := 2 } []
    let now := run { width := 2 } ([] ++ .subscribe "s" "*" :: after)
    create 2 = .ok { width := 2 } ∧ (∀ act ∈ after, act.spares "s" = true)
      ∧ Accounts 2 start now "s" "*" 2
      ∧ sentSince start now = [change 1, change 2, change 3]
      ∧ heardSince start now "s" = [⟨"s", .ok (.change (change 2)), [.lagged "*" 1]⟩] := by
  intro change after start now
  have h : create 2 = .ok { width := 2 } := rfl
  have hspares : ∀ act ∈ after, act.spares "s" = true := by decide
  obtain ⟨c, haccounts⟩ := accounts_run h [] "s" "*" hspares
  -- Two changes were consumed, as the place of the stream shows.
  have hplace : now.feed.stream? "s" = some ⟨"*", 2⟩ := by decide
  have hconsumed : start.sent.length + c = 2 :=
    congrArg Stream.position (Option.some.inj (haccounts.position.symm.trans hplace))
  obtain rfl : c = 2 := by simpa [start, run, follow] using hconsumed
  exact ⟨h, hspares, haccounts, by decide, by decide⟩

end Audience

end KeyRelay.Feed
