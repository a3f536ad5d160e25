import KeyRelay.Proofs.Adapter.Life

set_option autoImplicit false

/-! # The three eras of a life

A life is vacant while the receiver is in its slot, running while the call that has claimed the
receiver is under way, and over once that call has returned (`Life.Era`). The call claims by its
first poll, serves until its listener ends, and joins the worker; no other call gets further than
its first poll. A shutdown that finds the adapter idle stops it and leaves the receiver in its
slot, so a vacant life may be stopped, and may be running later. -/

namespace KeyRelay.Adapter

/-! ## How a call comes to its result -/

/-- How the listener of a call has ended, if these are the failures of listeners. -/
inductive Heard (n : Nat) : Except Fault Unit → List (Nat × Net.SystemError) → Prop where
  | drained : Heard n (.ok ()) []
  | broken (error : Net.SystemError) : Heard n (.error (.io error)) [(n, error)]

/-- Where the call that has claimed the receiver can stand, if its worker was told to stop or not,
    and these are the failures of listeners. -/
inductive Attended (n : Nat) : Serve.Stage → Bool → List (Nat × Net.SystemError) → Prop where
  | listening (signalled : Bool) (connections : Nat) :
      Attended n (.listening signalled connections) false []
  | joining {listener : Except Fault Unit} {failures : List (Nat × Net.SystemError)}
      (heard : Heard n listener failures) : Attended n (.joining listener) true failures

section

variable {n : Nat} {stopping : Bool} {failures : List (Nat × Net.SystemError)}

theorem Attended.isActive {s : Serve} (h : Attended n s.stage stopping failures) :
    s.isActive = true := by
  obtain ⟨cancelled, error, stage⟩ := s
  cases h <;> rfl

/-- While the call listens, the worker was not told to stop, and no listener has failed. -/
theorem Attended.of_listening {signalled : Bool} {connections : Nat}
    (h : Attended n (.listening signalled connections) stopping failures) :
    stopping = false ∧ failures = [] := by
  cases h with
  | listening _ _ => exact ⟨rfl, rfl⟩

/-- While it joins the worker, the failures tell how its listener has ended. -/
theorem Attended.heard {listener : Except Fault Unit}
    (h : Attended n (.joining listener) stopping failures) : Heard n listener failures := by
  cases h with
  | joining heard => exact heard

theorem Attended.ne_finished {stage : Serve.Stage} (h : Attended n stage stopping failures)
    (result : Except Fault Unit) : stage ≠ .finished result := by
  cases h <;> simp

end

theorem Leaving.heard {a : Adapter} {n : Nat} {m : Move} {s : Serve}
    {listener : Except Fault Unit} (h : Leaving n m s.stage listener)
    (hs : a.serve? n = some s) : Heard n listener (a.breaking m) := by
  obtain ⟨cancelled, error, stage⟩ := s
  cases h with
  | drained => exact .drained
  | broken error signalled connections =>
    simp only [breaking, hs]
    exact .broken error

/-- A call that has claimed the receiver fails for a fatal reason only. -/
theorem Heard.isFatal {n : Nat} {listener : Except Fault Unit}
    {failures : List (Nat × Net.SystemError)} (h : Heard n listener failures)
    {status : Run.Status} {fault : Fault} (hfault : resultOf listener status = .error fault) :
    fault.isFatal = true := by
  cases h with
  | drained =>
    cases status with
    | running | stopped => simp [resultOf] at hfault
    | crashed crash =>
      obtain rfl := Except.error.inj hfault
      rfl
  | broken error =>
    obtain rfl := Except.error.inj hfault
    rfl

theorem errors_of_resultEntries (result : Except Fault Unit) :
    (resultEntries result).filter (·.isError) = resultEntries result := by
  cases result with
  | ok _ => rfl
  | error fault =>
    simp only [resultEntries]
    split <;> rfl

namespace Life

/-! ## The eras -/

/-- Nobody has claimed the receiver. -/
structure Vacant (l : Life) : Prop where
  receiver : l.adapter.receiver = true
  claims : l.claims = []
  phase : l.adapter.phase ≠ .serving
  worker : l.adapter.worker = none
  inactive : ∀ {m s}, l.adapter.serve? m = some s → s.isActive = false
  failures : l.failures = []
  errors : l.errors = []

/-- Call `n` has claimed the receiver and is under way. -/
structure Running (l : Life) (n : Nat) : Prop where
  receiver : l.adapter.receiver = false
  claims : l.claims = [n]
  phase : l.adapter.phase = .serving
  attended : ∃ s w, l.adapter.serve? n = some s ∧ l.adapter.worker = some w
    ∧ Attended n s.stage w.stopping l.failures
  inactive : ∀ {m}, m ≠ n → ∀ {s}, l.adapter.serve? m = some s → s.isActive = false
  errors : l.errors = []

/-- Call `n` has claimed the receiver and has returned. -/
structure Over (l : Life) (n : Nat) (result : Except Fault Unit) : Prop where
  receiver : l.adapter.receiver = false
  claims : l.claims = [n]
  phase : l.adapter.phase = .stopped
  returned : ∃ s, l.adapter.serve? n = some s ∧ s.stage = .finished result
  worker : ∃ w listener, l.adapter.worker = some w ∧ w.status ≠ .running
    ∧ Heard n listener l.failures ∧ result = resultOf listener w.status
  inactive : ∀ {m s}, l.adapter.serve? m = some s → s.isActive = false
  errors : l.errors = resultEntries result

/-- A life is in one of its three eras. -/
inductive Era (l : Life) : Prop where
  | vacant (h : Vacant l)
  | running {n : Nat} (h : Running l n)
  | ended {n : Nat} {result : Except Fault Unit} (h : Over l n result)

theorem vacant_new {a : Adapter} (hreceiver : a.receiver = true) (hphase : a.phase ≠ .serving)
    (hworker : a.worker = none) (hserves : a.serves = []) : Vacant { adapter := a } where
  receiver := hreceiver
  claims := rfl
  phase := hphase
  worker := hworker
  inactive := by
    intro m s hs
    simp [serve?, hserves] at hs
  failures := rfl
  errors := rfl

variable {l : Life} {m : Move} {b : Adapter} {n : Nat} {s : Serve} {entries : List LogEntry}

/-! ## Moves within an era -/

theorem errors_after (herrors : entries.filter (·.isError) = []) :
    (l.after m b entries).errors = l.errors := by
  rw [errors, after, List.filter_append, herrors, List.append_nil, errors]

theorem claims_after (hreceiver : b.receiver = l.adapter.receiver) :
    (l.after m b entries).claims = l.claims := by
  rw [after, claiming_of_receiver hreceiver, List.append_nil]

theorem failures_after (hbreaking : l.adapter.breaking m = []) :
    (l.after m b entries).failures = l.failures := by
  rw [after, hbreaking, List.append_nil]

theorem Vacant.keeps (h : Vacant l) (hkeeps : Keeps l.adapter b)
    (hbreaking : l.adapter.breaking m = []) (herrors : entries.filter (·.isError) = []) :
    Vacant (l.after m b entries) where
  receiver := hkeeps.receiver.trans h.receiver
  claims := Eq.trans (claims_after hkeeps.receiver) h.claims
  phase := hkeeps.phase.trans_ne h.phase
  worker := hkeeps.no_worker h.worker
  inactive := fun ht => hkeeps.inactive (fun hs => h.inactive hs) ht
  failures := Eq.trans (failures_after hbreaking) h.failures
  errors := Eq.trans (errors_after herrors) h.errors

theorem ne_fresh_of_isActive (h : s.isActive = true) : s.stage ≠ .fresh := by
  intro hfresh
  rw [Serve.isActive, hfresh] at h
  exact absurd h (by decide)

theorem Running.keeps (h : Running l n) (hkeeps : Keeps l.adapter b)
    (hbreaking : l.adapter.breaking m = []) (herrors : entries.filter (·.isError) = []) :
    Running (l.after m b entries) n where
  receiver := hkeeps.receiver.trans h.receiver
  claims := Eq.trans (claims_after hkeeps.receiver) h.claims
  phase := hkeeps.phase.trans h.phase
  attended := by
    obtain ⟨s, w, hs, hw, hattended⟩ := h.attended
    obtain ⟨t, ht, hstage⟩ := hkeeps.call hs (ne_fresh_of_isActive hattended.isActive)
    obtain ⟨v, hv, hstopping, -⟩ := hkeeps.worker hw
    refine ⟨t, v, ht, hv, ?_⟩
    rw [hstage, hstopping, failures_after hbreaking]
    exact hattended
  inactive := fun {_} hne {_} ht => hkeeps.inactive (fun hs => h.inactive hne hs) ht
  errors := Eq.trans (errors_after herrors) h.errors

theorem Over.keeps {result : Except Fault Unit} (h : Over l n result)
    (hkeeps : Keeps l.adapter b) (hbreaking : l.adapter.breaking m = [])
    (herrors : entries.filter (·.isError) = []) : Over (l.after m b entries) n result where
  receiver := hkeeps.receiver.trans h.receiver
  claims := Eq.trans (claims_after hkeeps.receiver) h.claims
  phase := hkeeps.phase.trans h.phase
  returned := by
    obtain ⟨s, hs, hstage⟩ := h.returned
    obtain ⟨t, ht, hsame⟩ := hkeeps.call hs (by simp [hstage])
    exact ⟨t, ht, hsame.trans hstage⟩
  worker := by
    obtain ⟨w, listener, hw, hended, hheard, hresult⟩ := h.worker
    obtain ⟨v, hv, -, hstatus⟩ := hkeeps.worker hw
    refine ⟨v, listener, hv, (hstatus hended).trans_ne hended, ?_, ?_⟩
    · rw [failures_after hbreaking]
      exact hheard
    · rw [hstatus hended]
      exact hresult
  inactive := fun ht => hkeeps.inactive (fun hs => h.inactive hs) ht
  errors := Eq.trans (errors_after herrors) h.errors

theorem Era.keeps (h : Era l) (hkeeps : Keeps l.adapter b)
    (hbreaking : l.adapter.breaking m = []) (herrors : entries.filter (·.isError) = []) :
    Era (l.after m b entries) := by
  cases h with
  | vacant h => exact .vacant (h.keeps hkeeps hbreaking herrors)
  | running h => exact .running (h.keeps hkeeps hbreaking herrors)
  | ended h => exact .ended (h.keeps hkeeps hbreaking herrors)

/-! ## Moves of the call that claims the receiver -/

theorem isActive_of_listening {signalled : Bool} {connections : Nat}
    (hstage : s.stage = .listening signalled connections) : s.isActive = true := by
  rw [Serve.isActive, hstage]

theorem isActive_of_joining {listener : Except Fault Unit} (hstage : s.stage = .joining listener) :
    s.isActive = true := by
  rw [Serve.isActive, hstage]

/-- A call that is under way is the one that has claimed the receiver. -/
theorem Era.running_of_isActive (h : Era l) (hs : l.adapter.serve? n = some s)
    (hactive : s.isActive = true) : Running l n := by
  cases h with
  | vacant h => exact absurd ((h.inactive hs).symm.trans hactive) (by decide)
  | @running k h =>
    by_cases hn : n = k
    · rwa [hn]
    · exact absurd ((h.inactive hn hs).symm.trans hactive) (by decide)
  | ended h => exact absurd ((h.inactive hs).symm.trans hactive) (by decide)

theorem Running.worker (h : Running l n) : ∃ w, l.adapter.worker = some w := by
  obtain ⟨s, w, hs, hw, -⟩ := h.attended
  exact ⟨w, hw⟩

theorem Running.attends (h : Running l n) (hs : l.adapter.serve? n = some s) :
    ∃ w, l.adapter.worker = some w ∧ Attended n s.stage w.stopping l.failures := by
  obtain ⟨t, w, ht, hw, hattended⟩ := h.attended
  obtain rfl : s = t := Option.some.inj (hs.symm.trans ht)
  exact ⟨w, hw, hattended⟩

/-- A call that is under way has no result yet. -/
theorem Running.serveResult? (h : Running l n) : l.adapter.serveResult? n = none := by
  cases hresult : l.adapter.serveResult? n with
  | none => rfl
  | some result =>
    obtain ⟨s, hs, hstage⟩ := serveResult?_eq_some_iff.1 hresult
    obtain ⟨w, -, hattended⟩ := h.attends hs
    exact absurd hstage (hattended.ne_finished result)

/-- A call that has claimed the receiver is under way or has returned. -/
theorem Era.running_or_over (h : Era l) (hn : n ∈ l.claims) :
    Running l n ∨ ∃ result, Over l n result := by
  cases h with
  | vacant h => exact absurd hn (by simp [h.claims])
  | running h =>
    rw [h.claims] at hn
    obtain rfl := List.mem_singleton.1 hn
    exact Or.inl h
  | ended h =>
    rw [h.claims] at hn
    obtain rfl := List.mem_singleton.1 hn
    exact Or.inr ⟨_, h⟩

theorem Era.vacant_of_receiver (h : Era l) (hreceiver : l.adapter.receiver = true) :
    Vacant l := by
  cases h with
  | vacant h => exact h
  | running h => exact absurd (h.receiver.symm.trans hreceiver) (by decide)
  | ended h => exact absurd (h.receiver.symm.trans hreceiver) (by decide)

/-- The first poll of a call takes the receiver out of its slot. -/
theorem Vacant.claimed (h : Vacant l) (hs : l.adapter.serve? n = some s) :
    Running (l.after (.pollServe n)
      ({ l.adapter with receiver := false, phase := .serving, worker := some {} }.setServe n
        { s with stage := .listening false 0 }) [.serving]) n where
  receiver := rfl
  claims := by
    show l.claims ++ (if l.adapter.receiver && !false then [n] else []) = [n]
    rw [h.receiver, h.claims]
    rfl
  phase := rfl
  attended := by
    refine ⟨_, _, (serve?_setServe (a := { l.adapter with
      receiver := false, phase := .serving, worker := some {} }) hs _ n).trans (if_pos rfl),
      rfl, ?_⟩
    rw [failures_after rfl, h.failures]
    exact .listening false 0
  inactive := by
    intro k hne t ht
    rw [after, serve?_setServe (a := { l.adapter with
      receiver := false, phase := .serving, worker := some {} }) hs, if_neg hne] at ht
    exact h.inactive ht
  errors := Eq.trans (errors_after rfl) h.errors

/-- A shutdown may stop the adapter before anybody has claimed the receiver. -/
theorem Vacant.granted (h : Vacant l) (hbreaking : l.adapter.breaking m = []) (i : Nat)
    (call : Shutdown) :
    Vacant (l.after m
      ({ l.adapter with stopping := true, phase := .stopped }.setShutdown i call) []) where
  receiver := h.receiver
  claims := Eq.trans (claims_after rfl) h.claims
  phase := by simp [after, setShutdown]
  worker := h.worker
  inactive := fun hs => h.inactive hs
  failures := Eq.trans (failures_after hbreaking) h.failures
  errors := Eq.trans (errors_after rfl) h.errors

/-- Calls other than the one that has moved are as they were. -/
theorem Running.inactive_setServe (h : Running l n) {a : Adapter} {t : Serve}
    (hs : a.serve? n = some s) (hsame : a.serves = l.adapter.serves) {k : Nat} (hne : k ≠ n)
    {u : Serve} (hu : (a.setServe n t).serve? k = some u) : u.isActive = false := by
  rw [serve?_setServe hs, if_neg hne, serve?, hsame] at hu
  exact h.inactive hne hu

/-- The listener hears the signal, or connections come and go. -/
theorem Running.tended (h : Running l n) (hs : l.adapter.serve? n = some s)
    {signalled signalled' : Bool} {connections connections' : Nat}
    (hstage : s.stage = .listening signalled connections)
    (hbreaking : l.adapter.breaking m = []) :
    Running (l.after m
      (l.adapter.setServe n { s with stage := .listening signalled' connections' }) []) n where
  receiver := h.receiver
  claims := Eq.trans (claims_after rfl) h.claims
  phase := h.phase
  attended := by
    obtain ⟨w, hw, hattended⟩ := h.attends hs
    rw [hstage] at hattended
    obtain ⟨hstopping, hfailures⟩ := hattended.of_listening
    refine ⟨_, w, (serve?_setServe hs _ n).trans (if_pos rfl), hw, ?_⟩
    rw [failures_after hbreaking, hstopping, hfailures]
    exact .listening signalled' connections'
  inactive := fun {_} hne {_} hu => h.inactive_setServe hs rfl hne hu
  errors := Eq.trans (errors_after rfl) h.errors

/-- While the listener has not ended, none has failed. -/
theorem Running.failures_of_listening (h : Running l n) (hs : l.adapter.serve? n = some s)
    {signalled : Bool} {connections : Nat} (hstage : s.stage = .listening signalled connections) :
    l.failures = [] := by
  obtain ⟨w, -, hattended⟩ := h.attends hs
  rw [hstage] at hattended
  exact hattended.of_listening.2

theorem Running.heard_of_joining (h : Running l n) (hs : l.adapter.serve? n = some s)
    {listener : Except Fault Unit} (hstage : s.stage = .joining listener) :
    Heard n listener l.failures := by
  obtain ⟨w, -, hattended⟩ := h.attends hs
  rw [hstage] at hattended
  exact hattended.heard

/-- The listener of a call has ended, as the failures tell after the move. -/
theorem Running.heard_of_leaving (h : Running l n) (hs : l.adapter.serve? n = some s)
    {listener : Except Fault Unit} (hleaving : Leaving n m s.stage listener) :
    Heard n listener (l.failures ++ l.adapter.breaking m) := by
  obtain ⟨signalled, connections, hstage⟩ := hleaving.listening
  rw [h.failures_of_listening hs hstage, List.nil_append]
  exact hleaving.heard hs

/-- The listener has ended and the worker has not: the worker is told to stop. -/
theorem Running.left (h : Running l n) (hs : l.adapter.serve? n = some s)
    {listener : Except Fault Unit} (hleaving : Leaving n m s.stage listener) {w : Worker} :
    Running (l.after m
      ({ l.adapter with worker := some w.stop }.setServe n
        { s with stage := .joining listener }) [.stoppedServing]) n where
  receiver := h.receiver
  claims := Eq.trans (claims_after rfl) h.claims
  phase := h.phase
  attended := by
    refine ⟨_, w.stop, (serve?_setServe (a := { l.adapter with worker := some w.stop }) hs _
      n).trans (if_pos rfl), rfl, ?_⟩
    exact .joining (h.heard_of_leaving hs hleaving)
  inactive := fun {_} hne {_} hu =>
    h.inactive_setServe (a := { l.adapter with worker := some w.stop }) hs rfl hne hu
  errors := Eq.trans (errors_after rfl) h.errors

theorem ending_of_worker {a : Adapter} {w : Worker} (hw : a.worker = some w) :
    a.ending = w.status := by
  rw [ending, hw]
  rfl

/-- The call returns, after both the listener and the worker have ended. -/
theorem Running.returns (h : Running l n) {listener : Except Fault Unit}
    (hheard : Heard n listener (l.failures ++ l.adapter.breaking m))
    (hended : l.adapter.worker.map (·.status) ≠ some .running)
    (hbreceiver : b.receiver = false) (hbphase : b.phase = .stopped)
    (hbserve : ∃ t, b.serve? n = some t
      ∧ t.stage = .finished (resultOf listener l.adapter.ending))
    (hbworker : b.worker.map (·.status) = l.adapter.worker.map (·.status))
    (hbinactive : ∀ {k}, k ≠ n → ∀ {u}, b.serve? k = some u → u.isActive = false)
    (noted : List LogEntry) (hnoted : noted.filter (·.isError) = []) :
    Over (l.after m b (noted ++ resultEntries (resultOf listener l.adapter.ending))) n
      (resultOf listener l.adapter.ending) where
  receiver := hbreceiver
  claims := Eq.trans (claims_after (hbreceiver.trans h.receiver.symm)) h.claims
  phase := hbphase
  returned := hbserve
  worker := by
    obtain ⟨s, w, hs, hw, -⟩ := h.attended
    rw [hw] at hended hbworker
    obtain ⟨v, hv, hstatus⟩ := Option.map_eq_some_iff.1 hbworker
    have hrunning : w.status ≠ .running := fun hrunning => hended (congrArg some hrunning)
    refine ⟨v, listener, hv, hstatus.trans_ne hrunning, hheard, ?_⟩
    rw [ending_of_worker hw, hstatus]
  inactive := by
    intro k u hu
    by_cases hk : k = n
    · subst hk
      obtain ⟨t, ht, hstage⟩ := hbserve
      obtain rfl : t = u := Option.some.inj (ht.symm.trans hu)
      rw [Serve.isActive, hstage]
    · exact hbinactive hk hu
  errors := by
    show (l.entries ++ (noted ++ resultEntries _)).filter (·.isError) = _
    rw [List.filter_append, List.filter_append, hnoted, List.nil_append,
      errors_of_resultEntries]
    exact congrArg (· ++ resultEntries _) h.errors

/-! ## Every move -/

theorem Era.step (h : Era l) (hstep : Stepping l.adapter m b entries) :
    Era (l.after m b entries) := by
  cases hstep with
  | callServe error => exact h.keeps (keeps_callServe _ error) rfl rfl
  | cancelled hs => exact h.keeps (keeps_setServe hs (Or.inl rfl)) rfl rfl
  | addressless hs hfresh _ => exact h.keeps (keeps_setServe hs (Or.inr ⟨hfresh, rfl⟩)) rfl rfl
  | refused hs hfresh _ _ => exact h.keeps (keeps_setServe hs (Or.inr ⟨hfresh, rfl⟩)) rfl rfl
  | claimed hs _ _ hreceiver => exact .running ((h.vacant_of_receiver hreceiver).claimed hs)
  | signalled hs hstage _ =>
    exact .running
      ((h.running_of_isActive hs (isActive_of_listening hstage)).tended hs hstage rfl)
  | connected hs hstage | disconnected hs hstage =>
    exact .running
      ((h.running_of_isActive hs (isActive_of_listening hstage)).tended hs hstage rfl)
  | left hs hleaving hw hrunning =>
    obtain ⟨_, _, hstage⟩ := hleaving.listening
    exact .running
      ((h.running_of_isActive hs (isActive_of_listening hstage)).left hs hleaving)
  | @leftEnded _ n s listener hs hleaving hended =>
    obtain ⟨_, _, hstage⟩ := hleaving.listening
    have hrunning := h.running_of_isActive hs (isActive_of_listening hstage)
    have hs' : ({ l.adapter with phase := .stopped, worker := l.adapter.worker.map Worker.stop } :
      Adapter).serve? n = some s := hs
    refine .ended (hrunning.returns (b := { l.adapter with
      phase := .stopped, worker := l.adapter.worker.map Worker.stop }.setServe n
        { s with stage := .finished (resultOf listener l.adapter.ending) })
      (hrunning.heard_of_leaving hs hleaving) hended hrunning.receiver rfl
      ⟨_, (serve?_setServe hs' _ n).trans (if_pos rfl), rfl⟩ ?_
      (fun {_} hne {_} hu => hrunning.inactive_setServe hs' rfl hne hu) [.stoppedServing] rfl)
    show (l.adapter.worker.map Worker.stop).map (·.status) = _
    rw [Option.map_map]
    rfl
  | @joined n s listener hs hstage hended =>
    have hrunning := h.running_of_isActive hs (isActive_of_joining hstage)
    have hs' : ({ l.adapter with phase := .stopped } : Adapter).serve? n = some s := hs
    have hheard : Heard n listener (l.failures ++ l.adapter.breaking (.pollServe n)) := by
      rw [show l.adapter.breaking (.pollServe n) = [] from rfl, List.append_nil]
      exact hrunning.heard_of_joining hs hstage
    exact .ended (hrunning.returns (b := { l.adapter with phase := .stopped }.setServe n
      { s with stage := .finished (resultOf listener l.adapter.ending) }) hheard hended
      hrunning.receiver rfl ⟨_, (serve?_setServe hs' _ n).trans (if_pos rfl), rfl⟩ rfl
      (fun {_} hne {_} hu => hrunning.inactive_setServe hs' rfl hne hu) [] rfl)
  | worked hw hrunning =>
    exact h.keeps (keeps_pollWorker hw hrunning rfl) rfl (errors_of_pollRun _ _ _ _)
  | granted expired hcall hfresh hphase hreceiver =>
    exact .vacant ((h.vacant_of_receiver hreceiver).granted rfl _ _)
  | callShutdown _ | awaited _ _ _ _ | reawaited _ _ _ =>
    exact h.keeps (keeps_of_eq rfl rfl rfl rfl) rfl rfl
  | acted act hact =>
    refine h.keeps (keeps_of_eq rfl rfl rfl rfl) ?_ rfl
    cases m with
    | failListener n error => simp [Move.act?] at hact
    | _ => rfl
  | nothing hact hbreaking _ => exact h.keeps (keeps_of_eq rfl rfl rfl rfl) hbreaking rfl

end Life

end KeyRelay.Adapter
