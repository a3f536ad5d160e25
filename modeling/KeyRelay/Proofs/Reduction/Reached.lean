import KeyRelay.Proofs.Reduction.Freshness
import KeyRelay.Proofs.Reduction.Replay

set_option autoImplicit false

/-! # What reducers can come to

Reducers that share a counter, and a store which nobody else writes to, start from nothing and go on
event by event; in between, revisions may be taken for other purposes. Every ledger they come to is
fresh, and its store is sound. -/

namespace KeyRelay

namespace Ledger

/-- A ledger that reducers come to which share it, while revisions are taken from its counter. -/
inductive Reached : Ledger → Prop
  | start : Reached {}
  | next {l : Ledger} (h : Reached l) : Reached ⟨l.counter.next.2, l.store⟩
  | apply {l : Ledger} (h : Reached l) (event : Event) : Reached (l.apply event).2

variable {l : Ledger}

theorem Reached.fresh (h : l.Reached) : l.Fresh := by
  induction h with
  | start => exact fresh_empty
  | next _ ih => exact ih.next
  | apply _ event ih => exact (ih.apply event).fresh

theorem Reached.sound (h : l.Reached) : l.store.Sound := by
  induction h with
  | start => exact Store.sound_empty
  | next _ ih => exact ih
  | @apply l _ event ih => exact (evolves_apply l event).sound ih

end Ledger

end KeyRelay
