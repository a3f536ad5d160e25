import KeyRelay.Change
import KeyRelay.LogEntry
import KeyRelay.Pattern

set_option autoImplicit false

/-! # The feed of changes

Every change is published once, to all watchers. The feed keeps the newest changes, as many as its
width, and each stream has a position of its own among all changes that were ever published. A
stream that has fallen behind the oldest change still kept goes on from there and notes how many
it has lost; it then looks for the first change that its pattern accepts. Streams know nothing of
each other. -/

namespace KeyRelay

/-- A watcher's place in the feed. -/
structure Stream where
  pattern : Pattern
  /-- How many of the published changes it has behind it. -/
  position : Nat
  deriving Repr, DecidableEq

/-- What a poll of a stream answers. -/
inductive Stream.Answer where
  | change (change : Change)
  /-- Nothing more so far. -/
  | pending
  /-- Nothing more, and nothing will come. -/
  | ended
  deriving Repr, DecidableEq

/-- The newest changes and the streams that read them. -/
structure Feed where
  /-- How many changes are kept. -/
  width : Nat
  /-- How many changes were ever published. -/
  published : Nat := 0
  /-- The newest changes, oldest first. -/
  kept : List Change := []
  /-- The streams by name. -/
  streams : List (String × Stream) := []
  /-- The publishing end is gone. -/
  closed : Bool := false
  deriving Repr, DecidableEq

namespace Feed

/-! ## Making a feed -/

/-- The largest capacity that can be asked for, which is also the most bytes a buffer can take. -/
def maxCapacity : Nat := Nat.pow 2 63 - 1

/-- The bytes that one place of the buffer takes. -/
def placeSize : Nat := 48

/-- The least power of two that is not below `n`. -/
def powerOfTwo (n : Nat) : Nat := if n ≤ 1 then 1 else Nat.pow 2 ((n - 1).log2 + 1)

/-- A feed that keeps at least `capacity` changes. -/
def create (capacity : Nat) : Except Crash Feed :=
  if capacity = 0 then .error .noCapacity
  else if maxCapacity < capacity then .error .hugeCapacity
  else if maxCapacity < powerOfTwo capacity * placeSize then .error .noAddressSpace
  else .ok { width := powerOfTwo capacity }

/-! ## Publishing -/

/-- Publishes a change. Nothing happens once the feed is closed. -/
def publish (f : Feed) (change : Change) : Feed :=
  if f.closed then f
  else
    { f with
      published := f.published + 1
      kept := (f.kept ++ [change]).drop (f.kept.length + 1 - f.width) }

/-- Publishes changes one after the other. -/
def publishAll (f : Feed) (changes : List Change) : Feed := changes.foldl publish f

/-- The publishing end goes away. -/
def close (f : Feed) : Feed := { f with closed := true }

/-! ## Streams -/

/-- The stream of this name. -/
def stream? (f : Feed) (name : String) : Option Stream :=
  (f.streams.find? fun (n, _) => n = name).map (·.2)

/-- Ends a stream. -/
def unsubscribe (f : Feed) (name : String) : Feed :=
  { f with streams := f.streams.filter fun (n, _) => n ≠ name }

/-- Starts a stream at the changes to come, in place of one of its name. -/
def subscribe (f : Feed) (name : String) (pattern : Pattern) : Feed :=
  let others := f.unsubscribe name
  { others with streams := others.streams ++ [(name, ⟨pattern, f.published⟩)] }

/-- Moves a stream to another position. -/
def move (f : Feed) (name : String) (position : Nat) : Feed :=
  { f with
    streams := f.streams.map fun (n, s) => if n = name then (n, { s with position }) else (n, s) }

/-! ## Reading -/

/-- Where the search through unread changes ends: at a change that the pattern accepts, at one that
    has no key to compare, or at the end. The number says how many changes were consumed. -/
inductive Search where
  | hit (consumed : Nat) (change : Change)
  | keyless (consumed : Nat)
  | miss
  deriving Repr, DecidableEq

/-- One more change was consumed before the search. -/
def Search.next : Search → Search
  | .hit consumed change => .hit (consumed + 1) change
  | .keyless consumed => .keyless (consumed + 1)
  | .miss => .miss

/-- The first of the unread changes that a pattern accepts. -/
def search (pattern : Pattern) : List Change → Search
  | [] => .miss
  | change :: rest =>
      match change.key? with
      | none => .keyless 1
      | some key =>
          if pattern.accepts key then .hit 1 change else (search pattern rest).next

/-- How many changes a stream has lost for good. -/
def lost (f : Feed) (s : Stream) : Nat := f.published - s.position - f.width

/-- The changes that a stream has not read and can still read. -/
def unread (f : Feed) (s : Stream) : List Change :=
  f.kept.drop (f.kept.length - (f.published - s.position))

/-- A reading of a stream: the answer or a crash, the notes, and the stream's new position. -/
structure Reading where
  answer : Except Crash Stream.Answer
  entries : List LogEntry
  position : Nat

/-- Reads the next change of a stream. -/
def read (f : Feed) (s : Stream) : Reading :=
  let lost := f.lost s
  let start := s.position + lost
  let entries := if lost = 0 then [] else [.lagged s.pattern lost]
  match search s.pattern (f.unread s) with
  | .hit consumed change => ⟨.ok (.change change), entries, start + consumed⟩
  | .keyless consumed => ⟨.error .keyless, entries, start + consumed⟩
  | .miss => ⟨.ok (if f.closed then .ended else .pending), entries, f.published⟩

/-- Polls the stream of this name. There is no answer if there is no such stream. -/
def poll (f : Feed) (name : String) :
    Option (Except Crash Stream.Answer) × List LogEntry × Feed :=
  match f.stream? name with
  | none => (none, [], f)
  | some s =>
      let reading := f.read s
      (some reading.answer, reading.entries, f.move name reading.position)

/-- Polls the stream of this name until it has nothing more, and returns all answers. A crash
    takes their place. The fuel bounds the number of polls. -/
def drainFor : (fuel : Nat) → Feed → (name : String) →
    Option (Except Crash (List Stream.Answer)) × List LogEntry × Feed
  | 0, f, _ => (some (.ok []), [], f)
  | fuel + 1, f, name =>
      match f.poll name with
      | (none, entries, f) => (none, entries, f)
      | (some (.error crash), entries, f) => (some (.error crash), entries, f)
      | (some (.ok (.change change)), entries, f) =>
          let (answers, more, f) := drainFor fuel f name
          (answers.map fun rest => rest.map (.change change :: ·), entries ++ more, f)
      | (some (.ok last), entries, f) => (some (.ok [last]), entries, f)

/-- Polls the stream of this name until it has nothing more. Each poll but the last one delivers
    a change that is still kept. -/
def drain (f : Feed) (name : String) :
    Option (Except Crash (List Stream.Answer)) × List LogEntry × Feed :=
  drainFor (f.kept.length + 1) f name

end Feed

end KeyRelay
