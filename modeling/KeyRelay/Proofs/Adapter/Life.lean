import KeyRelay.Proofs.Adapter.Steps
import KeyRelay.Proofs.Run.Ending

set_option autoImplicit false

/-! # The life of an adapter

A life is an adapter together with what was seen of it: which calls of `serve` claimed the
receiver, which listeners broke off, what was noted, and the course of the worker's run. Moves of
all calls, tasks and producers drive it, in any order.

A life passes through at most three eras (`Life.Era`). First the receiver is in its slot and there
is no worker. Then one call of `serve` has claimed it and is under way. Then this call has
returned, the worker has ended, and the adapter is stopped. What the adapter does to its conduit,
its ledger and its feed meanwhile is what a single run does (`Life.Mirrors`), so all that is known
of courses is known of adapters. -/

namespace KeyRelay

/-- The entry is at the level of errors. -/
def LogEntry.isError (e : LogEntry) : Bool :=
  match e.head with
  | .message .error _ => true
  | _ => false

namespace Adapter

/-! ## What is seen of a life -/

/-- The call of `serve` that claims the receiver by a move from `a` to `b`: the receiver was in
    its slot, and it is no longer there after the call was polled. -/
def claiming (a b : Adapter) : Move → List Nat
  | .pollServe n => if a.receiver && !b.receiver then [n] else []
  | _ => []

/-- What a move from `a` to `b` is for the run of the worker: a producer acts, the run is polled,
    or it is cancelled because the worker was told to stop. -/
def runMoves (a b : Adapter) (m : Move) : List Run.Move :=
  match m.act? with
  | some act => [.act act]
  | none =>
      if m = .pollWorker then
        if a.worker.isSome then [.poll] else []
      else if b.worker.any (·.stopping) && !a.worker.any (·.stopping) then [.cancel]
      else []

/-- An adapter and what was seen of it so far. -/
structure Life where
  adapter : Adapter
  /-- The course of the worker's run. -/
  course : Run.Course := { ledger := {} }
  /-- The calls of `serve` that have claimed the receiver. -/
  claims : List Nat := []
  /-- The errors with which listeners have broken off, with their calls. -/
  failures : List (Nat × Net.SystemError) := []
  entries : List LogEntry := []
  deriving Repr, DecidableEq

namespace Life

/-- What was noted at the level of errors. -/
def errors (l : Life) : List LogEntry := l.entries.filter (·.isError)

/-- The life after a move that makes `b` of the adapter. -/
def after (l : Life) (m : Move) (b : Adapter) (entries : List LogEntry) : Life :=
  { adapter := b
    course := l.course.follow (runMoves l.adapter b m)
    claims := l.claims ++ claiming l.adapter b m
    failures := l.failures ++ l.adapter.breaking m
    entries := l.entries ++ entries }

/-- Carries out a move. -/
def step (l : Life) (m : Move) : Life := l.after m (l.adapter.step m).1 (l.adapter.step m).2

/-- Carries out moves one after the other. -/
def follow (l : Life) (moves : List Move) : Life := moves.foldl step l

/-- What a schedule makes of an adapter. -/
def run (a : Adapter) (moves : List Move) : Life := follow { adapter := a } moves

theorem run_append (a : Adapter) (moves more : List Move) :
    run a (moves ++ more) = (run a moves).follow more := List.foldl_append

/-- What every move keeps, every schedule keeps. -/
theorem follow_of_step (P : Life → Prop) (hstep : ∀ l m, P l → P (l.step m)) {l : Life}
    (h : P l) (moves : List Move) : P (l.follow moves) := by
  induction moves generalizing l with
  | nil => exact h
  | cons m rest ih => exact ih (hstep l m h)

end Life

/-! ## Moves that leave the lifecycle alone -/

/-- The lifecycle is where it was: no call has claimed the receiver, left its listener or joined
    its worker. Calls that had not been polled may have been refused. -/
structure Keeps (a b : Adapter) : Prop where
  receiver : b.receiver = a.receiver
  phase : b.phase = a.phase
  call : ∀ {n s}, a.serve? n = some s → s.stage ≠ .fresh →
    ∃ t, b.serve? n = some t ∧ t.stage = s.stage
  inactive : ∀ {n}, (∀ {s}, a.serve? n = some s → s.isActive = false) →
    ∀ {t}, b.serve? n = some t → t.isActive = false
  no_worker : a.worker = none → b.worker = none
  worker : ∀ {w}, a.worker = some w → ∃ v, b.worker = some v ∧ v.stopping = w.stopping
    ∧ (w.status ≠ .running → v.status = w.status)

variable {a b : Adapter} {n : Nat} {s : Serve}

theorem keeps_of_eq (hserves : b.serves = a.serves) (hreceiver : b.receiver = a.receiver)
    (hphase : b.phase = a.phase) (hworker : b.worker = a.worker) : Keeps a b where
  receiver := hreceiver
  phase := hphase
  call := fun {n s} hs _ => ⟨s, by rw [serve?, hserves]; exact hs, rfl⟩
  inactive := fun {n} h {t} ht => h (by rw [serve?, hserves] at ht; exact ht)
  no_worker := hworker.trans
  worker := fun {w} hw => ⟨w, hworker.trans hw, rfl, fun _ => rfl⟩

theorem keeps_setServe {t : Serve} (hs : a.serve? n = some s)
    (ht : t.stage = s.stage ∨ s.stage = .fresh ∧ t.isActive = false) :
    Keeps a (a.setServe n t) where
  receiver := rfl
  phase := rfl
  call := by
    intro m u hu hstage
    rw [serve?_setServe hs]
    by_cases hm : m = n
    · subst hm
      obtain rfl : s = u := Option.some.inj (hs.symm.trans hu)
      rcases ht with ht | ⟨hfresh, -⟩
      · exact ⟨t, if_pos rfl, ht⟩
      · exact absurd hfresh hstage
    · exact ⟨u, by rw [if_neg hm]; exact hu, rfl⟩
  inactive := by
    intro m h u hu
    rw [serve?_setServe hs] at hu
    split at hu
    · next hm =>
        subst hm
        obtain rfl := Option.some.inj hu
        rcases ht with ht | ⟨-, ht⟩
        · rw [Serve.isActive, ht]
          exact h hs
        · exact ht
    · exact h hu
  no_worker := id
  worker := fun {w} hw => ⟨w, hw, rfl, fun _ => rfl⟩

/-- A call that is made is not active. -/
theorem keeps_callServe (a : Adapter) (error : Option Net.SystemError) :
    Keeps a { a with serves := a.serves ++ [{ addressError := error }] } where
  receiver := rfl
  phase := rfl
  call := by
    intro n s hs _
    refine ⟨s, ?_, rfl⟩
    obtain ⟨hn, -⟩ := List.getElem?_eq_some_iff.1 hs
    exact (List.getElem?_append_left hn).trans hs
  inactive := by
    intro n h t ht
    rw [serve?, List.getElem?_append] at ht
    split at ht
    · exact h ht
    · obtain rfl := List.mem_singleton.1 (List.mem_of_getElem? ht)
      rfl
  no_worker := id
  worker := fun {w} hw => ⟨w, hw, rfl, fun _ => rfl⟩

theorem keeps_pollWorker {w v : Worker} {ledger : Ledger} {conduit : Conduit} {feed : Feed}
    (hw : a.worker = some w) (hrunning : w.status = .running)
    (hstopping : v.stopping = w.stopping) :
    Keeps a { a with ledger, conduit, feed, worker := some v } where
  receiver := rfl
  phase := rfl
  call := fun {n s} hs _ => ⟨s, hs, rfl⟩
  inactive := fun {n} h {t} ht => h ht
  no_worker := fun hnone => absurd (hnone.symm.trans hw) (by simp)
  worker := by
    intro u hu
    obtain rfl : w = u := Option.some.inj (hw.symm.trans hu)
    exact ⟨v, rfl, hstopping, fun hended => absurd hrunning hended⟩

theorem claiming_of_receiver (h : b.receiver = a.receiver) (m : Move) : claiming a b m = [] := by
  cases m with
  | pollServe n => simp [claiming, h]
  | _ => rfl

/-! ## Nothing but a failed call is an error -/

theorem errors_of_applyItems (kind : EventKind) (items : List Item) (l : Ledger) :
    (Ledger.applyItems kind items l).1.entries.filter (·.isError) = [] := by
  induction items generalizing l with
  | nil => rfl
  | cons item rest ih =>
    simp only [Ledger.applyItems]
    cases hweigh : l.store.weigh kind item l.counter.next.1 with
    | error crash => rfl
    | ok v =>
      have hentry : v.entry.isError = false := by
        have hweighing := Store.weighing_weigh l.store kind item l.counter.next.1
        rw [hweigh] at hweighing
        cases hweighing <;> rfl
      show (v.entry :: _).filter (·.isError) = []
      rw [List.filter_cons_of_neg (by simp [hentry])]
      exact ih _

theorem errors_of_rest (receipt : Conduit.Receipt) (c : Conduit) (l : Ledger) :
    (Run.rest receipt c l).entries.filter (·.isError) = [] := by
  unfold Run.rest
  split <;> rfl

theorem errors_of_reduce (event : Event) (c : Conduit) (l : Ledger) :
    (Run.reduce event c l).entries.filter (·.isError) = [] := by
  have hreport : (l.apply event).1.entries.filter (·.isError) = [] :=
    errors_of_applyItems event.kind event.items l
  simp only [Run.reduce, List.filter_append, hreport, List.nil_append]
  split
  · rfl
  · exact errors_of_rest _ _ _

theorem errors_of_pollRun (started cancelled : Bool) (c : Conduit) (l : Ledger) :
    (Run.poll started cancelled c l).entries.filter (·.isError) = [] := by
  have hnoting : ∀ {entries : List LogEntry} {p : Run.Progress},
      entries.filter (·.isError) = [] → p.entries.filter (·.isError) = [] →
      (p.noting entries).entries.filter (·.isError) = [] := by
    intro entries p hentries hp
    rw [Run.Progress.noting, List.filter_append, hentries, hp]
    rfl
  refine hnoting (by split <;> rfl) ?_
  split
  · rfl
  · have hreceiving := Conduit.receiving_recv c
    have hrecv : c.recv = (c.recv.1, c.recv.2.1, c.recv.2.2) := rfl
    generalize c.recv.1 = receipt at hreceiving hrecv
    generalize c.recv.2.1 = entries at hreceiving hrecv
    generalize c.recv.2.2 = d at hreceiving hrecv
    cases hreceiving with
    | empty _ =>
      rw [Run.work_of_receipt hrecv (Conduit.emptyReceipt_ne_event _)]
      exact hnoting rfl (errors_of_rest _ _ _)
    | taken _ _ =>
      rw [Run.work_of_event hrecv]
      exact hnoting rfl (errors_of_reduce _ _ _)
    | passed _ _ =>
      rw [Run.work_of_receipt hrecv (Conduit.emptyReceipt_ne_event _)]
      exact hnoting rfl (errors_of_rest _ _ _)

end Adapter

end KeyRelay
