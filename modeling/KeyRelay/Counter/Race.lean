import KeyRelay.Counter

set_option autoImplicit false

/-! # Callers that race for revisions

A counter that several callers share is one word of memory. A caller loads the word and then tries
to exchange the value it has seen for the next one. The exchange fails if the word has moved, and
may fail for no reason; a failed exchange shows the caller the value the word has now. An exchange
that succeeds has handed out a revision, which the caller returns in a step of its own. Each of
these steps is one `Race.Move`, and any order of moves is a run. -/

namespace KeyRelay

/-- How far a call has come. -/
inductive Race.Stage where
  /-- No call is under way. -/
  | idle
  /-- The word has been seen with this value. -/
  | seen (value : Revision)
  /-- The exchange has succeeded, and this revision is about to be returned. -/
  | won (revision : Revision)
  deriving Repr, DecidableEq

/-- One caller: how far its call has come, and what its earlier calls returned, newest first. -/
structure Race.Caller where
  stage : Race.Stage := .idle
  returned : List Revision := []
  deriving Repr, DecidableEq

/-- A shared word and its callers. -/
structure Race where
  word : Revision := 0
  callers : List Race.Caller
  deriving Repr, DecidableEq

/-- One atomic step of one caller. -/
inductive Race.Move where
  /-- Starts a call by loading the word. -/
  | load (caller : Nat)
  /-- Tries the exchange; a `spurious` attempt fails whatever the word holds. -/
  | exchange (caller : Nat) (spurious : Bool)
  /-- Returns the revision that was won. -/
  | finish (caller : Nat)
  deriving Repr, DecidableEq

namespace Race

/-- A word at zero and callers that have not called yet. -/
def start (callers : Nat) : Race := { callers := List.replicate callers {} }

/-- The state after a move. A move that does not fit the stage of its caller does nothing. -/
def step (r : Race) : Move → Race
  | .load i =>
      match r.callers[i]? with
      | some ⟨.idle, returned⟩ =>
          { r with callers := r.callers.set i ⟨.seen r.word, returned⟩ }
      | _ => r
  | .exchange i spurious =>
      match r.callers[i]? with
      | some ⟨.seen value, returned⟩ =>
          if !spurious ∧ r.word = value then
            { word := value + 1, callers := r.callers.set i ⟨.won (value + 1), returned⟩ }
          else { r with callers := r.callers.set i ⟨.seen r.word, returned⟩ }
      | _ => r
  | .finish i =>
      match r.callers[i]? with
      | some ⟨.won revision, returned⟩ =>
          { r with callers := r.callers.set i ⟨.idle, revision :: returned⟩ }
      | _ => r

/-- The state after a sequence of moves. -/
def run (r : Race) (moves : List Move) : Race := moves.foldl step r

/-- The revision that a caller has won and not yet returned. -/
def Caller.pending (c : Caller) : List Revision :=
  match c.stage with
  | .won revision => [revision]
  | _ => []

/-- All revisions that were returned, caller by caller. -/
def returned (r : Race) : List Revision := r.callers.flatMap (·.returned)

/-- The moves of one undisturbed call. -/
def oneCall (caller : Nat) : List Move := [.load caller, .exchange caller false, .finish caller]

/-- The moves of `rounds` calls of each caller, the callers taking turns. -/
def turns (callers rounds : Nat) : List Move :=
  (List.replicate rounds ((List.range callers).flatMap oneCall)).flatten

/-- What a finished race looks like from outside. -/
structure Summary where
  /-- Each caller saw its revisions increase. -/
  increasing : Bool
  /-- How many different revisions were returned. -/
  distinct : Nat
  first : Option Revision
  last : Option Revision
  current : Revision

/-- Each element is below the next one. -/
def ascending : List Revision → Bool
  | a :: b :: rest => a < b && ascending (b :: rest)
  | _ => true

/-- How many different values a list in ascending order holds. -/
def countDistinct : List Revision → Nat
  | a :: b :: rest => if a = b then countDistinct (b :: rest) else countDistinct (b :: rest) + 1
  | [_] => 1
  | [] => 0

/-- The summary of a race. -/
def summary (r : Race) : Summary :=
  let all := r.returned.mergeSort
  { increasing := r.callers.all fun c => ascending c.returned.reverse
    distinct := countDistinct all
    first := all.head?
    last := all.getLast?
    current := r.word }

end Race

end KeyRelay
