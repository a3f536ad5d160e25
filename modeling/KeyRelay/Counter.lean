set_option autoImplicit false

/-! # Revisions and the counter that hands them out

Every item that is reduced, accepted or not, takes one revision. Revisions start at one and are
never reused. The counter is a signed 64-bit word, for which a whole number stands here: as long as
fewer than `2 ^ 63` calls have begun, the word and what any call is given stay below `2 ^ 63`, and
nothing wraps around (`Race.Annals.Linearizable.word_le`, `Race.Annals.Linearizable.next_le`). -/

namespace KeyRelay

/-- The number of a change: a signed 64-bit word without its bounds. -/
abbrev Revision := Int

/-- The source of revisions: the last one handed out, zero before the first. -/
structure Counter where
  current : Revision := 0
  deriving Repr, DecidableEq, Inhabited

/-- The next revision, and the counter after it was handed out. -/
def Counter.next (c : Counter) : Revision × Counter := (c.current + 1, ⟨c.current + 1⟩)

end KeyRelay
