import KeyRelay.Proofs.Adapter.Mirrors

set_option autoImplicit false

/-! # A call that was told to stop returns

Once the listener of the call that has claimed the receiver was told to stop, only so many steps
are left to that call (`Winding`): its connections go one by one, it leaves its listener, the
worker stops, and the call returns. No move makes the number greater, and each number has a move
that makes it smaller (`nextMove`). So the call returns in every schedule that makes these moves
again and again (`Fair`). -/

namespace KeyRelay.Adapter

variable {a b : Adapter} {m : Move} {n k : Nat} {s : Serve} {entries : List LogEntry}

/-- Call `n`, whose listener was told to stop, is so many steps away from its return. -/
inductive Winding (a : Adapter) (n : Nat) : Nat → Prop where
  | draining {s : Serve} {connections : Nat} (hs : a.serve? n = some s)
      (hstage : s.stage = .listening true connections) : Winding a n (connections + 3)
  | stopping {s : Serve} {listener : Except Fault Unit} {w : Worker} (hs : a.serve? n = some s)
      (hstage : s.stage = .joining listener) (hw : a.worker = some w)
      (hstopping : w.stopping = true) (hrunning : w.status = .running) : Winding a n 2
  | joining {s : Serve} {listener : Except Fault Unit} {w : Worker} (hs : a.serve? n = some s)
      (hstage : s.stage = .joining listener) (hw : a.worker = some w)
      (hended : w.status ≠ .running) : Winding a n 1
  | returned {result : Except Fault Unit} (hresult : a.serveResult? n = some result) :
      Winding a n 0

/-- The move that brings a call nearer to its return. -/
def nextMove (n : Nat) : Nat → Move
  | 0 | 1 | 3 => .pollServe n
  | 2 => .pollWorker
  | _ + 4 => .disconnect n

/-! ## No move leads away from the return -/

/-- A call that joins a worker which was told to stop waits for its end, or for nothing. -/
theorem winding_of_joining {listener : Except Fault Unit} {w : Worker} (hs : a.serve? n = some s)
    (hstage : s.stage = .joining listener) (hw : a.worker = some w)
    (hstopping : w.stopping = true) : ∃ k ≤ 2, Winding a n k := by
  by_cases hrunning : w.status = .running
  · exact ⟨2, Nat.le_refl 2, .stopping hs hstage hw hstopping hrunning⟩
  · exact ⟨1, by decide, .joining hs hstage hw hrunning⟩

theorem Winding.keeps (h : Winding a n k) (hkeeps : Keeps a b) : ∃ k' ≤ k, Winding b n k' := by
  cases h with
  | draining hs hstage =>
    obtain ⟨t, ht, hsame⟩ := hkeeps.call hs (by simp [hstage])
    exact ⟨_, Nat.le_refl _, .draining ht (hsame.trans hstage)⟩
  | stopping hs hstage hw hstopping hrunning =>
    obtain ⟨t, ht, hsame⟩ := hkeeps.call hs (by simp [hstage])
    obtain ⟨v, hv, hvstopping, -⟩ := hkeeps.worker hw
    exact winding_of_joining ht (hsame.trans hstage) hv (hvstopping.trans hstopping)
  | joining hs hstage hw hended =>
    obtain ⟨t, ht, hsame⟩ := hkeeps.call hs (by simp [hstage])
    obtain ⟨v, hv, -, hstatus⟩ := hkeeps.worker hw
    exact ⟨1, Nat.le_refl 1,
      .joining ht (hsame.trans hstage) hv ((hstatus hended).trans_ne hended)⟩
  | returned hresult =>
    obtain ⟨s, hs, hstage⟩ := serveResult?_eq_some_iff.1 hresult
    obtain ⟨t, ht, hsame⟩ := hkeeps.call hs (by simp [hstage])
    exact ⟨0, Nat.le_refl 0, .returned (serveResult?_eq_some_iff.2 ⟨t, ht, hsame.trans hstage⟩)⟩

theorem Winding.listening (h : Winding a n k) (hs : a.serve? n = some s) {signalled : Bool}
    {connections : Nat} (hstage : s.stage = .listening signalled connections) :
    signalled = true ∧ k = connections + 3 := by
  cases h with
  | draining hs' hstage' =>
    obtain rfl := Option.some.inj (hs.symm.trans hs')
    obtain ⟨rfl, rfl⟩ := Serve.Stage.listening.inj (hstage.symm.trans hstage')
    exact ⟨rfl, rfl⟩
  | stopping hs' hstage' _ _ _ =>
    obtain rfl := Option.some.inj (hs.symm.trans hs')
    exact absurd (hstage.symm.trans hstage') (by simp)
  | joining hs' hstage' _ _ =>
    obtain rfl := Option.some.inj (hs.symm.trans hs')
    exact absurd (hstage.symm.trans hstage') (by simp)
  | returned hresult =>
    obtain ⟨t, hs', hstage'⟩ := serveResult?_eq_some_iff.1 hresult
    obtain rfl := Option.some.inj (hs.symm.trans hs')
    exact absurd (hstage.symm.trans hstage') (by simp)

/-- The call has come to its result. -/
theorem winding_finished {result : Except Fault Unit} (hs : a.serve? n = some s) :
    Winding (a.setServe n { s with stage := .finished result }) n 0 :=
  .returned (serveResult?_eq_some_iff.2 ⟨_, (serve?_setServe hs _ n).trans (if_pos rfl), rfl⟩)

namespace Life

variable {l : Life}

/-- No move leads away from the return of the call that has claimed the receiver. -/
theorem Running.winding (h : Running l n) (hwinding : Winding l.adapter n k)
    (hstep : Stepping l.adapter m b entries) : ∃ k' ≤ k, Winding b n k' := by
  -- A call that is under way is this one.
  have hself : ∀ {i t}, l.adapter.serve? i = some t → t.isActive = true → i = n := by
    intro i t ht hactive
    by_contra hne
    exact absurd ((h.inactive hne ht).symm.trans hactive) (by decide)
  cases hstep with
  | callServe error => exact hwinding.keeps (keeps_callServe _ error)
  | cancelled hs => exact hwinding.keeps (keeps_setServe hs (Or.inl rfl))
  | addressless hs hfresh _ => exact hwinding.keeps (keeps_setServe hs (Or.inr ⟨hfresh, rfl⟩))
  | refused hs hfresh _ _ => exact hwinding.keeps (keeps_setServe hs (Or.inr ⟨hfresh, rfl⟩))
  | claimed _ _ _ hreceiver => exact absurd (h.receiver.symm.trans hreceiver) (by decide)
  | signalled hs hstage _ =>
    obtain rfl := hself hs (isActive_of_listening hstage)
    exact absurd (hwinding.listening hs hstage).1 (by decide)
  | connected hs hstage =>
    obtain rfl := hself hs (isActive_of_listening hstage)
    exact absurd (hwinding.listening hs hstage).1 (by decide)
  | disconnected hs hstage =>
    obtain rfl := hself hs (isActive_of_listening hstage)
    obtain ⟨rfl, rfl⟩ := hwinding.listening hs hstage
    exact ⟨_, by omega, .draining ((serve?_setServe hs _ _).trans (if_pos rfl)) rfl⟩
  | @left _ i t listener w hs hleaving hw hrunning =>
    obtain ⟨signalled, connections, hstage⟩ := hleaving.listening
    obtain rfl := hself hs (isActive_of_listening hstage)
    obtain ⟨-, rfl⟩ := hwinding.listening hs hstage
    have hs' : ({ l.adapter with worker := some w.stop } : Adapter).serve? i = some t := hs
    exact ⟨2, by omega,
      .stopping ((serve?_setServe hs' _ i).trans (if_pos rfl)) rfl rfl rfl hrunning⟩
  | @leftEnded _ i t listener hs hleaving hended =>
    obtain ⟨_, _, hstage⟩ := hleaving.listening
    obtain rfl := hself hs (isActive_of_listening hstage)
    have hs' : ({ l.adapter with phase := .stopped, worker := l.adapter.worker.map Worker.stop } :
      Adapter).serve? i = some t := hs
    exact ⟨0, Nat.zero_le _, winding_finished hs'⟩
  | @joined i t listener hs hstage hended =>
    obtain rfl := hself hs (isActive_of_joining hstage)
    have hs' : ({ l.adapter with phase := .stopped } : Adapter).serve? i = some t := hs
    exact ⟨0, Nat.zero_le _, winding_finished hs'⟩
  | worked hw hrunning => exact hwinding.keeps (keeps_pollWorker hw hrunning rfl)
  | granted _ _ _ _ hreceiver => exact absurd (h.receiver.symm.trans hreceiver) (by decide)
  | callShutdown _ | awaited _ _ _ _ | reawaited _ _ _ | acted _ _ | nothing _ _ _ =>
    exact hwinding.keeps (keeps_of_eq rfl rfl rfl rfl)

end Life

/-! ## A move that leads nearer to the return -/

theorem winding_disconnect {connections : Nat} (hs : a.serve? n = some s)
    (hstage : s.stage = .listening true (connections + 1)) :
    Winding (a.step (.disconnect n)).1 n (connections + 3) := by
  obtain ⟨cancelled, error, stage⟩ := s
  obtain rfl : stage = .listening true (connections + 1) := hstage
  simp only [step, disconnect, hs, moveServe_of_serve? hs]
  exact .draining ((serve?_setServe hs _ n).trans (if_pos rfl)) rfl

/-- A drained listener is left, and its worker is told to stop. -/
theorem winding_leave {w : Worker} (hs : a.serve? n = some s)
    (hstage : s.stage = .listening true 0) (hw : a.worker = some w) :
    ∃ k ≤ 2, Winding (a.step (.pollServe n)).1 n k := by
  obtain ⟨cancelled, error, stage⟩ := s
  obtain rfl : stage = .listening true 0 := hstage
  have hpoll : a.step (.pollServe n) = a.leave n (.ok ()) := by
    simp only [step, pollServe, hs]
  rw [hpoll]
  by_cases hrunning : w.status = .running
  · have hs' : ({ a with worker := some w.stop } : Adapter).serve? n = some _ := hs
    rw [leave_of_running hs hw hrunning]
    exact ⟨2, Nat.le_refl 2,
      .stopping ((serve?_setServe hs' _ n).trans (if_pos rfl)) rfl rfl rfl hrunning⟩
  · have hs' : ({ a with phase := .stopped, worker := a.worker.map Worker.stop } :
      Adapter).serve? n = some _ := hs
    rw [leave_of_ended hs (by simpa [hw] using hrunning)]
    exact ⟨0, by decide, winding_finished hs'⟩

/-- A worker that was told to stop stops at its next poll. -/
theorem winding_pollWorker {listener : Except Fault Unit} {w : Worker} (hs : a.serve? n = some s)
    (hstage : s.stage = .joining listener) (hw : a.worker = some w)
    (hstopping : w.stopping = true) (hrunning : w.status = .running) :
    Winding (a.step .pollWorker).1 n 1 := by
  obtain ⟨started, stopping, status⟩ := w
  obtain rfl : status = .running := hrunning
  obtain rfl : stopping = true := hstopping
  have hstopped := (Run.polled_poll started true a.conduit a.ledger).stopped_of_cancelled rfl
  simp only [step, pollWorker, hw]
  exact .joining hs hstage rfl (by simp [hstopped])

theorem winding_join {listener : Except Fault Unit} {w : Worker} (hs : a.serve? n = some s)
    (hstage : s.stage = .joining listener) (hw : a.worker = some w)
    (hended : w.status ≠ .running) : Winding (a.step (.pollServe n)).1 n 0 := by
  obtain ⟨cancelled, error, stage⟩ := s
  obtain rfl : stage = .joining listener := hstage
  have hs' : ({ a with phase := .stopped } : Adapter).serve? n = some _ := hs
  simp only [step, pollServe, hs]
  rw [join_of_ended (by simpa [hw] using hended), moveServe_of_serve? hs']
  exact winding_finished hs'

/-- The next move of a call leads nearer to its return. -/
theorem Winding.next (h : Winding a n (k + 1)) (hworker : ∃ w, a.worker = some w) :
    ∃ k' ≤ k, Winding (a.step (nextMove n (k + 1))).1 n k' := by
  generalize hk : k + 1 = j at h
  cases h with
  | @draining s connections hs hstage =>
    cases connections with
    | zero =>
      obtain rfl : k = 2 := by omega
      obtain ⟨w, hw⟩ := hworker
      exact winding_leave hs hstage hw
    | succ connections =>
      obtain rfl : k = connections + 3 := by omega
      exact ⟨connections + 3, Nat.le_refl _, winding_disconnect hs hstage⟩
  | stopping hs hstage hw hstopping hrunning =>
    exact ⟨1, by omega, winding_pollWorker hs hstage hw hstopping hrunning⟩
  | joining hs hstage hw hended => exact ⟨0, Nat.zero_le _, winding_join hs hstage hw hended⟩
  | returned _ => omega

/-! ## Fair schedules -/

/-- A schedule without end in which the signal and the call are polled, connections are done and
    the worker is polled, again and again. -/
def Fair (n : Nat) (schedule : Nat → Move) : Prop :=
  ∀ m ∈ [.pollSignal n, .disconnect n, .pollServe n, .pollWorker],
    ∀ i, ∃ j, i ≤ j ∧ schedule j = m

/-- The schedule that makes these moves in turn. -/
def inTurn (n i : Nat) : Move :=
  if i % 4 = 0 then .pollSignal n
  else if i % 4 = 1 then .disconnect n
  else if i % 4 = 2 then .pollServe n
  else .pollWorker

theorem fair_inTurn (n : Nat) : Fair n (inTurn n) := by
  intro m hm i
  simp only [List.mem_cons, List.not_mem_nil, or_false] at hm
  rcases hm with rfl | rfl | rfl | rfl
  · exact ⟨4 * i, by omega, by simp [inTurn]⟩
  · exact ⟨4 * i + 1, by omega, by simp [inTurn]⟩
  · exact ⟨4 * i + 2, by omega, by simp [inTurn]⟩
  · exact ⟨4 * i + 3, by omega, by simp [inTurn]⟩

theorem Fair.next {schedule : Nat → Move} (h : Fair n schedule) (k i : Nat) :
    ∃ j, i ≤ j ∧ schedule j = nextMove n k := by
  refine h _ ?_ i
  unfold nextMove
  split <;> simp

namespace Life

variable {l : Life} {feed : Feed}

/-- The life after so many moves of a schedule. -/
def trace (l : Life) (schedule : Nat → Move) (i : Nat) : Life :=
  l.follow ((List.range i).map schedule)

theorem trace_succ (l : Life) (schedule : Nat → Move) (i : Nat) :
    l.trace schedule (i + 1) = (l.trace schedule i).step (schedule i) := by
  rw [trace, List.range_succ, List.map_append, follow, List.foldl_append]
  rfl

/-- What every move keeps, the moves of a schedule keep. -/
theorem trace_of_step (P : Life → Prop) (hstep : ∀ l m, P l → P (l.step m))
    (schedule : Nat → Move) {i : Nat} (h : P (l.trace schedule i)) (d : Nat) :
    P (l.trace schedule (i + d)) := by
  induction d with
  | zero => exact h
  | succ d ih =>
    rw [← Nat.add_assoc, trace_succ]
    exact hstep _ _ ih

/-- The call `n` has claimed the receiver. It may have returned since, else it winds down in so
    many steps. -/
structure Closing (l : Life) (n k : Nat) : Prop where
  era : Era l
  claims : n ∈ l.claims
  winding : Winding l.adapter n k

theorem Closing.step (h : Closing l n k) (m : Move) : ∃ k' ≤ k, Closing (l.step m) n k' := by
  have hstep := stepping_step l.adapter m
  have hnext : ∀ {k'}, Winding (l.step m).adapter n k' → Closing (l.step m) n k' :=
    fun hwinding => ⟨h.era.step hstep, List.mem_append_left _ h.claims, hwinding⟩
  rcases h.era.running_or_over h.claims with hrunning | ⟨result, hover⟩
  · obtain ⟨k', hle, hwinding⟩ := hrunning.winding h.winding hstep
    exact ⟨k', hle, hnext hwinding⟩
  · have hresult := hstep.serveResult? (serveResult?_eq_some_iff.2 hover.returned)
    exact ⟨0, Nat.zero_le k, hnext (.returned hresult)⟩

theorem Closing.ended (h : Closing l n 0) : ∃ result, Over l n result := by
  obtain ⟨hera, hn, hwinding⟩ := h
  generalize hk : 0 = k at hwinding
  cases hwinding with
  | draining _ _ | stopping _ _ _ _ _ | joining _ _ _ _ => omega
  | returned hresult => exact ⟨_, hera.over_of_result hn hresult⟩

/-- In a fair schedule a call that winds down returns. -/
theorem Closing.returns {schedule : Nat → Move} (hfair : Fair n schedule) {i : Nat}
    (h : Closing (l.trace schedule i) n k) : ∃ j result, Over (l.trace schedule j) n result := by
  -- The number falls at the latest when the next move comes.
  induction k using Nat.strongRecOn generalizing i with
  | ind k ih =>
    cases k with
    | zero => exact ⟨i, h.ended⟩
    | succ k =>
      obtain ⟨j, hij, hnext⟩ := hfair.next (k + 1) i
      obtain ⟨d, rfl⟩ := Nat.exists_eq_add_of_le hij
      obtain ⟨k', hle, hclosing⟩ : ∃ k' ≤ k + 1, Closing (l.trace schedule (i + d)) n k' := by
        refine trace_of_step (fun l => ∃ k' ≤ k + 1, Closing l n k') ?_ schedule
          ⟨k + 1, Nat.le_refl _, h⟩ d
        rintro l m ⟨k', hle, hclosing⟩
        obtain ⟨k'', hle', hclosing'⟩ := hclosing.step m
        exact ⟨k'', Nat.le_trans hle' hle, hclosing'⟩
      rcases Nat.lt_or_eq_of_le hle with hlt | rfl
      · exact ih k' hlt hclosing
      · rcases hclosing.era.running_or_over hclosing.claims with hrunning | hover
        · obtain ⟨k', hle, hwinding⟩ := hclosing.winding.next hrunning.worker
          refine ih k' (Nat.lt_succ_of_le hle) (i := i + d + 1) ?_
          rw [trace_succ, hnext]
          exact ⟨hclosing.era.step (stepping_step _ _), List.mem_append_left _ hclosing.claims,
            hwinding⟩
        · exact ⟨i + d, hover⟩

/-- Once a shutdown was asked for, a poll of the signal tells the listener to stop. -/
theorem Running.winding_pollSignal (h : Running l n) (hstopping : l.adapter.stopping = true) :
    ∃ k, Winding (l.step (.pollSignal n)).adapter n k := by
  obtain ⟨⟨cancelled, error, stage⟩, ⟨started, stopping, status⟩, hs, hw, hattended⟩ := h.attended
  show ∃ k, Winding (l.adapter.pollSignal n) n k
  generalize l.failures = failures at hattended
  cases hattended with
  | listening signalled connections =>
    refine ⟨connections + 3, ?_⟩
    cases signalled with
    | false =>
      simp only [pollSignal, hs, hstopping, Bool.or_true, if_true, moveServe_of_serve? hs]
      exact .draining ((serve?_setServe hs _ n).trans (if_pos rfl)) rfl
    | true =>
      simp only [pollSignal, hs]
      exact .draining hs rfl
  | joining _ =>
    obtain ⟨k, -, hwinding⟩ := winding_of_joining hs rfl hw rfl
    simp only [pollSignal, hs]
    exact ⟨k, hwinding⟩

/-- **A stop that was asked for leads to the stop.** In a fair schedule the call that has claimed
    the receiver returns. -/
theorem Era.returns (h : Era l) (hn : n ∈ l.claims) (hstopping : l.adapter.stopping = true)
    {schedule : Nat → Move} (hfair : Fair n schedule) :
    ∃ j result, Over (l.trace schedule j) n result := by
  obtain ⟨i, -, hsignal⟩ := hfair (.pollSignal n) List.mem_cons_self 0
  obtain ⟨hera, hn, hstopping⟩ : Era (l.trace schedule i) ∧ n ∈ (l.trace schedule i).claims
      ∧ (l.trace schedule i).adapter.stopping = true := by
    rw [← Nat.zero_add i]
    refine trace_of_step (fun l => Era l ∧ n ∈ l.claims ∧ l.adapter.stopping = true) ?_ schedule
      (l := l) (i := 0) ⟨h, hn, hstopping⟩ i
    rintro l m ⟨hera, hn, hstopping⟩
    have hstep := stepping_step l.adapter m
    exact ⟨hera.step hstep, List.mem_append_left _ hn, hstep.stopping hstopping⟩
  rcases hera.running_or_over hn with hrunning | hover
  · obtain ⟨k, hwinding⟩ := hrunning.winding_pollSignal hstopping
    refine Closing.returns hfair (k := k) (i := i + 1) ?_
    rw [trace_succ, hsignal]
    exact ⟨hera.step (stepping_step _ _), List.mem_append_left _ hn, hwinding⟩
  · exact ⟨i, hover⟩

end Life

end KeyRelay.Adapter
