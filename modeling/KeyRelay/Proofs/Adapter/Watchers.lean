import Mathlib.Data.List.Induction
import KeyRelay.Proofs.Adapter.Mirrors
import KeyRelay.Proofs.Feed.Accounts
import KeyRelay.Proofs.Feed.Independence
import KeyRelay.Proofs.Reduction.Replay

set_option autoImplicit false

/-! # The watchers of an adapter

Options are built by calls that ask for a watch capacity or for a logger. What was asked for last
decides whether an adapter can be made with them: the feed takes neither zero nor a capacity of
`2 ^ 63` or more, and its buffer has to fit into the address space; the builder only sees to it
that the capacity is not zero. An adapter that could be made keeps at least as many changes as were
asked for, whatever is done to it and to its watchers. So a stream that is no further behind is
told of every change that its pattern accepts (`Adapter.serves_build`). -/

namespace KeyRelay

/-! ## Building options -/

namespace Options

/-- A call of the builder. -/
inductive Call where
  | withWatchCapacity (capacity : Nat)
  | withLogger
  /-- The options are copied, and the copy is used. -/
  | clone
  deriving Repr, DecidableEq

/-- What a call makes of options. -/
def call (o : Options) : Call → Options
  | .withWatchCapacity capacity => o.withWatchCapacity capacity
  | .withLogger => o.withLogger
  | .clone => o

/-- The options that calls make of the default ones. -/
def build (calls : List Call) : Options := calls.foldl call {}

/-- The capacity that a call asks for. -/
def Call.capacity? : Call → Option Nat
  | .withWatchCapacity capacity => some capacity
  | .withLogger | .clone => none

/-- The capacity that was asked for last. -/
def requested (calls : List Call) : Nat := ((calls.filterMap Call.capacity?).getLast?).getD 1024

theorem requested_snoc (calls : List Call) (c : Call) :
    requested (calls ++ [c]) = c.capacity?.getD (requested calls) := by
  cases h : c.capacity? with
  | none => simp [requested, List.filterMap_append, h]
  | some capacity => simp [requested, List.filterMap_append, h]

/-- The builder keeps the capacity away from zero, and does nothing else to it. -/
theorem watchCapacity_build (calls : List Call) :
    (build calls).watchCapacity = max (requested calls) 1 := by
  induction calls using List.reverseRecOn with
  | nil => rfl
  | append_singleton calls c ih =>
    have hbuild : build (calls ++ [c]) = (build calls).call c := by
      simp [build, List.foldl_append]
    rw [hbuild, requested_snoc]
    cases c with
    | withWatchCapacity capacity => rfl
    | withLogger | clone => exact ih

end Options

/-! ## Making a feed -/

namespace Feed

/-- No power of two is between a number and its rounding. -/
theorem powerOfTwo_le_iff (n j : Nat) : powerOfTwo n ≤ 2 ^ j ↔ n ≤ 2 ^ j := by
  obtain ⟨k, hk, hle, hleast⟩ := powerOfTwo_spec n
  rw [hk]
  exact ⟨Nat.le_trans hle, fun h => Nat.pow_le_pow_right (by decide) (hleast j h)⟩

/-- The buffer of a feed fits into the address space up to this capacity. -/
theorem powerOfTwo_overflows_iff (n : Nat) :
    maxCapacity < powerOfTwo n * placeSize ↔ 2 ^ 57 < n := by
  constructor
  · intro h
    refine Nat.lt_of_not_le fun hle => ?_
    have hbytes : powerOfTwo n * placeSize ≤ 2 ^ 57 * placeSize :=
      Nat.mul_le_mul_right _ ((powerOfTwo_le_iff n 57).2 hle)
    exact absurd (Nat.lt_of_lt_of_le h hbytes) (by decide)
  · intro h
    obtain ⟨k, hk, hle, -⟩ := powerOfTwo_spec n
    have hdouble : 57 < k :=
      (Nat.pow_lt_pow_iff_right (by decide)).1 (Nat.lt_of_lt_of_le h hle)
    have hrounded : 2 ^ 58 ≤ powerOfTwo n := by
      rw [hk]
      exact Nat.pow_le_pow_right (by decide) hdouble
    have hbytes : 2 ^ 58 * placeSize ≤ powerOfTwo n * placeSize :=
      Nat.mul_le_mul_right _ hrounded
    exact Nat.lt_of_lt_of_le (by decide) hbytes

/-- What comes of asking for a feed. -/
theorem create_eq (capacity : Nat) :
    create capacity
      = if capacity = 0 then .error .noCapacity
        else if 2 ^ 63 ≤ capacity then .error .hugeCapacity
        else if 2 ^ 57 < capacity then .error .noAddressSpace
        else .ok { width := powerOfTwo capacity } := by
  have hhuge : maxCapacity < capacity ↔ 2 ^ 63 ≤ capacity := Nat.lt_iff_add_one_le
  simp only [create, hhuge, powerOfTwo_overflows_iff]

/-! ## A feed in use -/

/-- An open feed of this width has published these changes. All of them have keys, and no stream
    has more of them behind it than there are. -/
structure InUse (f : Feed) (width : Nat) (all : List Change) : Prop where
  carries : f.Carries all
  width : f.width = width
  isOpen : f.closed = false
  keyed : ∀ c ∈ all, c.key?.isSome = true
  position_le : ∀ name s, f.stream? name = some s → s.position ≤ all.length

variable {f : Feed} {width : Nat} {all changes : List Change} {name : String} {s : Stream}

theorem inUse_create {capacity : Nat} (h : create capacity = .ok f) :
    f.InUse (powerOfTwo capacity) [] := by
  obtain ⟨hcarries, hopen⟩ := carries_create h
  refine ⟨hcarries, width_of_create h, hopen, by simp, ?_⟩
  obtain rfl := eq_of_create h
  intro name s hs
  simp [stream?] at hs

/-- Publishing moves no stream. -/
theorem InUse.publishAll (h : f.InUse width all) (hkeyed : ∀ c ∈ changes, c.key?.isSome = true) :
    (f.publishAll changes).InUse width (all ++ changes) := by
  obtain ⟨hclosed, hwidth, hstreams⟩ := publishAll_of_open h.isOpen changes
  refine ⟨h.carries.publishAll h.isOpen changes, hwidth.trans h.width, hclosed, ?_, ?_⟩
  · intro c hc
    rcases List.mem_append.1 hc with hold | hnew
    · exact h.keyed c hold
    · exact hkeyed c hnew
  · intro name s hs
    rw [stream?, hstreams] at hs
    rw [List.length_append]
    exact Nat.le_trans (h.position_le name s hs) (Nat.le_add_right _ _)

/-- Streams may be started, ended and moved. -/
theorem InUse.of_streams (h : f.InUse width all) {streams : List (String × Stream)}
    (hle : ∀ name s, stream? { f with streams } name = some s → s.position ≤ all.length) :
    InUse { f with streams } width all where
  carries := ⟨h.carries.published, h.carries.kept⟩
  width := h.width
  isOpen := h.isOpen
  keyed := h.keyed
  position_le := hle

theorem InUse.subscribe (h : f.InUse width all) (name : String) (pattern : Pattern) :
    (f.subscribe name pattern).InUse width all := by
  refine h.of_streams fun other s hs => ?_
  replace hs : (f.subscribe name pattern).stream? other = some s := hs
  by_cases hother : name = other
  · subst hother
    rw [stream?_subscribe] at hs
    obtain rfl := Option.some.inj hs
    exact Nat.le_of_eq h.carries.published
  · rw [stream?_subscribe_of_ne hother] at hs
    exact h.position_le other s hs

theorem InUse.unsubscribe (h : f.InUse width all) (name : String) :
    (f.unsubscribe name).InUse width all := by
  refine h.of_streams fun other s hs => ?_
  replace hs : (f.unsubscribe name).stream? other = some s := hs
  by_cases hother : name = other
  · subst hother
    rw [stream?_unsubscribe_self] at hs
    simp at hs
  · rw [stream?_unsubscribe hother] at hs
    exact h.position_le other s hs

/-- A stream may be moved over what was published. -/
theorem InUse.move (h : f.InUse width all) (name : String) {position : Nat}
    (hposition : position ≤ all.length) : (f.move name position).InUse width all := by
  refine h.of_streams fun other s hs => ?_
  replace hs : (f.move name position).stream? other = some s := hs
  rw [stream?_move] at hs
  obtain ⟨t, ht, rfl⟩ := Option.map_eq_some_iff.1 hs
  split
  · exact hposition
  · exact h.position_le other t ht

theorem InUse.poll (h : f.InUse width all) (name : String) :
    (f.poll name).2.2.InUse width all := by
  unfold Feed.poll
  split
  · exact h
  · next s hs => exact h.move name (h.carries.position_read_le (h.position_le name s hs))

theorem InUse.drain (h : f.InUse width all) (name : String) :
    (f.drain name).2.2.InUse width all :=
  drainFor_of_poll (P := fun g => g.InUse width all) (fun _ hg => hg.poll name) h _

/-- The stream of this name, which has these changes before it, is told of every one of them that
    its pattern accepts. -/
structure LosesNone (f : Feed) (name : String) (s : Stream) (late : List Change) : Prop where
  /-- A poll delivers the first one that the pattern accepts; it waits if there is none. -/
  poll : ∃ read rest answer, late = read ++ rest
    ∧ f.poll name = (some (.ok answer), [], f.move name (s.position + read.length))
    ∧ answer.heard = read.filter (·.concerns s.pattern.accepts)
    ∧ (answer = .pending ∧ rest = [] ∨ ∃ c, answer = .change c)
  /-- A drain delivers them all and then waits. -/
  drain : (f.drain name).1
    = some (.ok ((late.filter (·.concerns s.pattern.accepts)).map .change ++ [.pending]))

theorem InUse.follows (h : f.InUse width all) (hs : f.stream? name = some s) :
    f.Follows name s.pattern (all.take s.position) (all.drop s.position) where
  carries := by
    rw [List.take_append_drop]
    exact h.carries
  stream := by rw [hs, List.length_take, Nat.min_eq_left (h.position_le name s hs)]
  isOpen := h.isOpen
  keyed := fun c hc => h.keyed c (List.mem_of_mem_drop hc)

/-- Nobody loses anything who is no further behind than the feed is wide. -/
theorem InUse.losesNone (h : f.InUse width all) (hs : f.stream? name = some s)
    (hbehind : all.length - s.position ≤ width) :
    f.LosesNone name s (all.drop s.position) := by
  have hle := h.position_le name s hs
  have hpace : (all.drop s.position).length ≤ f.width := by
    rw [List.length_drop, h.width]
    exact hbehind
  have hlost : f.lost s = 0 := by
    rw [lost, h.carries.published, h.width]
    omega
  have hfollows := h.follows hs
  refine ⟨?_, (hfollows.drain hpace).1⟩
  obtain ⟨read, rest, answer, hlate, hanswer, hfeed, hheard⟩ := hfollows.poll hpace
  obtain ⟨_, _, -, hpoll⟩ := h.carries.poll hs hle
  refine ⟨read, rest, answer, hlate, ?_, hheard⟩
  -- That nothing is noted is known from the one account of the poll, the rest from the other.
  rw [List.length_take, Nat.min_eq_left hle] at hfeed
  rw [hpoll] at hanswer hfeed ⊢
  rw [if_pos hlost]
  exact Prod.ext hanswer (Prod.ext rfl hfeed)

end Feed

namespace Adapter

/-! ## What an adapter publishes -/

variable {a b : Adapter} {m : Move} {entries : List LogEntry}

/-- The changes that a move of the adapter publishes. -/
def telling (a : Adapter) : Move → List Change
  | .pollWorker =>
      match a.worker with
      | some ⟨started, stopping, .running⟩ =>
          (Run.poll started stopping a.conduit a.ledger).changes
      | _ => []
  | _ => []

theorem telling_of_ne (h : m ≠ .pollWorker) : a.telling m = [] := by
  unfold telling
  split
  · exact absurd rfl h
  · rfl

theorem telling_of_running {w : Worker} (hw : a.worker = some w) (hrunning : w.status = .running) :
    a.telling .pollWorker = (Run.poll w.started w.stopping a.conduit a.ledger).changes := by
  obtain ⟨started, stopping, status⟩ := w
  obtain rfl : status = .running := hrunning
  simp only [telling, hw]

theorem telling_of_idle (hidle : a.worker.map (·.status) ≠ some .running) :
    a.telling .pollWorker = [] := by
  simp only [telling]
  split
  · next hw => exact absurd (by rw [hw]; rfl) hidle
  · rfl

/-- A move does nothing else to the feed. -/
theorem Stepping.feed (h : Stepping a m b entries) :
    b.feed = a.feed.publishAll (a.telling m) := by
  cases h with
  | callServe _ | callShutdown _ | cancelled _ | addressless _ _ _ | refused _ _ _ _
  | claimed _ _ _ _ | signalled _ _ _ | connected _ _ | disconnected _ _ | joined _ _ _
  | granted _ _ _ _ _ | awaited _ _ _ _ | reawaited _ _ _ => rfl
  | left _ hleaving _ _ | leftEnded _ hleaving _ =>
    rw [telling_of_ne hleaving.ne_pollWorker]
    rfl
  | worked hw hrunning => rw [telling_of_running hw hrunning]
  | acted act hact =>
    have hne : m ≠ .pollWorker := by
      rintro rfl
      simp [Move.act?] at hact
    rw [telling_of_ne hne]
    rfl
  | nothing hact hbreaking hidle =>
    by_cases hm : m = .pollWorker
    · subst hm
      rw [telling_of_idle (hidle rfl)]
      rfl
    · rw [telling_of_ne hm]
      rfl

/-- Whatever is published has a key. -/
theorem keyed_telling (a : Adapter) (m : Move) :
    ∀ c ∈ a.telling m, c.key?.isSome = true := by
  unfold telling
  split
  · split
    · rw [(Run.polled_poll _ _ _ _).changes]
      exact (Ledger.evolves_applyAll _ _).keyed
    · simp
  · simp

/-! ## Watching -/

/-- An adapter with its watchers, and the changes that it has published, oldest first. -/
structure Watched where
  adapter : Adapter
  published : List Change := []
  deriving Repr, DecidableEq

/-- What can happen to an adapter and its watchers. -/
inductive Deed where
  | move (m : Move)
  | watch (name : String) (pattern : Pattern)
  | unwatch (name : String)
  | poll (name : String)
  | drain (name : String)
  deriving Repr, DecidableEq

namespace Watched

/-- Another feed. -/
def withFeed (w : Watched) (feed : Feed) : Watched := { w with adapter := { w.adapter with feed } }

def step (w : Watched) : Deed → Watched
  | .move m =>
      { adapter := (w.adapter.step m).1
        published := w.published ++ w.adapter.telling m }
  | .watch name pattern => w.withFeed (w.adapter.feed.subscribe name pattern)
  | .unwatch name => w.withFeed (w.adapter.feed.unsubscribe name)
  | .poll name => w.withFeed (w.adapter.feed.poll name).2.2
  | .drain name => w.withFeed (w.adapter.feed.drain name).2.2

def follow (w : Watched) (deeds : List Deed) : Watched := deeds.foldl step w

/-- What deeds make of a new adapter. -/
def run (a : Adapter) (deeds : List Deed) : Watched := follow { adapter := a } deeds

/-! ## What holds of every adapter with its watchers -/

/-- The feed has published what the adapter has. -/
def InUse (w : Watched) (width : Nat) : Prop := w.adapter.feed.InUse width w.published

variable {width : Nat} {w : Watched}

theorem InUse.step (h : w.InUse width) (deed : Deed) : (w.step deed).InUse width := by
  cases deed with
  | move m =>
    have hfeed : (w.adapter.step m).1.feed = w.adapter.feed.publishAll (w.adapter.telling m) :=
      (stepping_step w.adapter m).feed
    show (w.adapter.step m).1.feed.InUse width (w.published ++ w.adapter.telling m)
    rw [hfeed]
    exact Feed.InUse.publishAll h (keyed_telling w.adapter m)
  | watch name pattern => exact Feed.InUse.subscribe h name pattern
  | unwatch name => exact Feed.InUse.unsubscribe h name
  | poll name => exact Feed.InUse.poll h name
  | drain name => exact Feed.InUse.drain h name

theorem InUse.follow (h : w.InUse width) (deeds : List Deed) : (w.follow deeds).InUse width := by
  induction deeds generalizing w with
  | nil => exact h
  | cons deed rest ih => exact ih (h.step deed)

theorem inUse_run {options : Options} (h : create options = .ok a) (deeds : List Deed) :
    (run a deeds).InUse (Feed.powerOfTwo options.watchCapacity) := by
  obtain ⟨feed, hfeed, rfl⟩ := exists_of_create h
  exact InUse.follow (w := { adapter := { options, feed } }) (Feed.inUse_create hfeed) deeds

end Watched

/-! ## An adapter with options that were built -/

/-- What comes of making an adapter with the options that these calls have built. -/
structure Serves (calls : List Options.Call) : Prop where
  /-- The builder guards the lower end of the range only. -/
  watchCapacity : (Options.build calls).watchCapacity = max (Options.requested calls) 1
  /-- So the feed never finds a capacity of zero, -/
  never_noCapacity : create (Options.build calls) ≠ .error .noCapacity
  /-- and refuses whatever was asked for above the upper end of the range. -/
  hugeCapacity_iff : create (Options.build calls) = .error .hugeCapacity
    ↔ 2 ^ 63 ≤ Options.requested calls
  /-- Below, its buffer may be too large to be addressed. -/
  noAddressSpace_iff : create (Options.build calls) = .error .noAddressSpace
    ↔ 2 ^ 57 < Options.requested calls ∧ Options.requested calls < 2 ^ 63
  ok_iff : (∃ a, create (Options.build calls) = .ok a) ↔ Options.requested calls ≤ 2 ^ 57
  /-- Whatever is done to an adapter that could be made and to its watchers: a stream is told of
      every change that its pattern accepts, as long as it is no further behind than was asked
      for. -/
  losesNone : ∀ a, create (Options.build calls) = .ok a → ∀ deeds name s,
    (Watched.run a deeds).adapter.feed.stream? name = some s →
    (Watched.run a deeds).published.length - s.position ≤ Options.requested calls →
      (Watched.run a deeds).adapter.feed.LosesNone name s
        ((Watched.run a deeds).published.drop s.position)

/-- What comes of making an adapter. -/
theorem create_build (calls : List Options.Call) :
    create (Options.build calls)
      = if 2 ^ 63 ≤ Options.requested calls then .error .hugeCapacity
        else if 2 ^ 57 < Options.requested calls then .error .noAddressSpace
        else .ok
          { options := Options.build calls
            feed := { width := Feed.powerOfTwo (max (Options.requested calls) 1) } } := by
  have hhuge : 2 ^ 63 ≤ max (Options.requested calls) 1 ↔ 2 ^ 63 ≤ Options.requested calls := by
    omega
  have hwide : 2 ^ 57 < max (Options.requested calls) 1 ↔ 2 ^ 57 < Options.requested calls := by
    omega
  rw [create, Options.watchCapacity_build, Feed.create_eq, if_neg (by omega)]
  simp only [hhuge, hwide]
  split
  · rfl
  · split <;> rfl

/-- **Built options.** -/
theorem serves_build (calls : List Options.Call) : Serves calls := by
  have hcreate := create_build calls
  constructor
  case watchCapacity => exact Options.watchCapacity_build calls
  case losesNone =>
    intro a ha deeds name s hs hbehind
    refine Feed.InUse.losesNone (Watched.inUse_run ha deeds) hs (Nat.le_trans hbehind ?_)
    obtain ⟨k, hk, hle, -⟩ := Feed.powerOfTwo_spec (Options.build calls).watchCapacity
    rw [hk]
    rw [Options.watchCapacity_build] at hle
    omega
  all_goals
    rw [hcreate]
    split_ifs <;> simp <;> omega

/-- A capacity that the builder takes and the feed refuses. -/
theorem hugeCapacity_build :
    create (Options.build [.withWatchCapacity (2 ^ 64 - 1)]) = .error .hugeCapacity := rfl

end Adapter

end KeyRelay
