import KeyRelay.Proofs.Assembly.Deeds
import KeyRelay.Proofs.Assembly.Interruption
import KeyRelay.Proofs.Run.Reception

set_option autoImplicit false

/-! # What the conduit of an assembly hands over

The conduit of an assembly and whoever keeps its receiver are a reception: producers act on it, and
the receiver is polled by hand or by the run, or it goes (`Delivery.Mirrors`). Whatever else is done
to the assembly is no concern of it (`Delivery.exists_mirrors`). So when a run has ended, by a crash
for one, all that is known of a conduit without a receiver holds of the one of the assembly. -/

namespace KeyRelay

open Conduit (Act)

namespace Assembly

/-- What a command takes from the conduit, with the tickets of the sends. -/
def handing (a : Assembly) : Command → List (Ticket × Event)
  | .recv => if a.receiver then a.conduit.handing else []
  | .run number =>
      if (a.worker? (.run number)).isSome then Run.taking a.cancelled a.conduit else []
  | .pollRun => if a.running.isSome then Run.taking a.cancelled a.conduit else []
  | _ => []

/-- The command is addressed to the receiver or to the run. -/
def Command.receives : Command → Bool
  | .recv | .dropReceiver | .run _ | .pollRun | .dropRun | .cancel => true
  | _ => false

/-- Who keeps the receiver. -/
def keeper (a : Assembly) : Reception.Keeper :=
  if a.receiver then .hand
  else
    match a.running with
    | some (_, started) => .run started
    | none => .nobody

/-- An assembly and what its conduit has handed over so far. -/
structure Delivery where
  assembly : Assembly
  handed : List (Ticket × Event) := []

namespace Delivery

/-- The sends whose events were handed over. -/
def tickets (w : Delivery) : List Ticket := w.handed.map (·.1)

/-- A deed is done, and what it takes from the conduit is noted. -/
def act (w : Delivery) : Deed → Delivery
  | .command command =>
      ⟨(w.assembly.step command).after, w.handed ++ w.assembly.handing command⟩
  | .meddle meddling => ⟨(w.assembly.meddle meddling).after, w.handed⟩

/-- Deeds are done one after the other. -/
def perform (w : Delivery) (deeds : List Deed) : Delivery := deeds.foldl act w

theorem assembly_perform (w : Delivery) (deeds : List Deed) :
    (w.perform deeds).assembly = w.assembly.perform deeds := by
  induction deeds generalizing w with
  | nil => rfl
  | cons deed rest ih =>
    have hact : (w.act deed).assembly = (w.assembly.act deed).after := by cases deed <;> rfl
    exact (ih (w.act deed)).trans (congrArg (Assembly.perform · rest) hact)

/-- The reception that the conduit is, with what was seen of it. -/
structure Mirrors (w : Delivery) (r : Reception) : Prop where
  sound : r.Sound
  conduit : r.journal.conduit = w.assembly.conduit
  returned : r.journal.returned = w.handed
  keeper : r.keeper = w.assembly.keeper
  cancelled : r.cancelled = w.assembly.cancelled
  /-- There is one receiver only. -/
  alone : w.assembly.receiver = true → w.assembly.running = none

end Delivery

variable {a b : Assembly} {handed : List (Ticket × Event)} {r : Reception}

theorem keeper_of_receiver (hreceiver : a.receiver = true) : a.keeper = .hand := if_pos hreceiver

theorem keeper_of_running {reducer : Reducer} {started : Bool} (hreceiver : a.receiver = false)
    (hrunning : a.running = some (reducer, started)) : a.keeper = .run started := by
  simp [keeper, hreceiver, hrunning]

theorem keeper_eq_nobody_iff : a.keeper = .nobody ↔ a.receiver = false ∧ a.running = none := by
  unfold keeper
  split
  · next hreceiver => simp [hreceiver]
  · next hreceiver =>
      split
      · next hrunning => simp [hrunning]
      · next hrunning => simp [hrunning, hreceiver]

theorem keeper_congr (hreceiver : b.receiver = a.receiver) (hrunning : b.running = a.running) :
    b.keeper = a.keeper := by
  simp only [keeper, hreceiver, hrunning]

/-! ## Producers -/

/-- Producers have acted on the conduit, and the receiver is where it was. -/
structure Produces (a b : Assembly) : Prop where
  conduit : ∃ acts : List Act, b.conduit = acts.foldl Conduit.act a.conduit
  receiver : b.receiver = a.receiver
  running : b.running = a.running
  cancelled : b.cancelled = a.cancelled

theorem Produces.refl (a : Assembly) : Produces a a := ⟨⟨[], rfl⟩, rfl, rfl, rfl⟩

theorem Produces.trans {c : Assembly} (hab : Produces a b) (hbc : Produces b c) :
    Produces a c := by
  obtain ⟨acts, hacts⟩ := hab.conduit
  obtain ⟨more, hmore⟩ := hbc.conduit
  refine ⟨⟨acts ++ more, ?_⟩, hbc.receiver.trans hab.receiver, hbc.running.trans hab.running,
    hbc.cancelled.trans hab.cancelled⟩
  rw [List.foldl_append, ← hacts, hmore]

theorem produces_dropSend (a : Assembly) (name : String) : Produces a (a.dropSend name) := by
  unfold dropSend
  split
  · next t _ => exact ⟨⟨[.drop t], rfl⟩, rfl, rfl, rfl⟩
  · exact .refl a

theorem produces_pollSend (a : Assembly) (name : String) :
    Produces a (a.pollSend name).after := by
  unfold pollSend
  split
  · exact .refl a
  · next t _ =>
      split
      all_goals
        next heq => exact ⟨⟨[.poll t], (congrArg (·.2) heq).symm⟩, rfl, rfl, rfl⟩

theorem produces_startSend (a : Assembly) (name via : String) (event : Event) :
    Produces a (a.startSend name via event).after := by
  unfold startSend
  split
  · refine (produces_dropSend a name).trans (Produces.trans ?_ (produces_pollSend _ name))
    exact ⟨⟨[.start event], rfl⟩, rfl, rfl, rfl⟩
  · exact .refl a

theorem produces_dropSender (a : Assembly) (name : String) :
    Produces a (a.dropSender name) := by
  unfold dropSender
  split
  · exact ⟨⟨[.dropSender], rfl⟩, rfl, rfl, rfl⟩
  · exact .refl a

theorem produces_cloneSender (a : Assembly) (via name : String) :
    Produces a (a.cloneSender via name).after := by
  unfold cloneSender
  split
  · have hadd : Produces a { a with conduit := a.conduit.addSender } :=
      ⟨⟨[.addSender], rfl⟩, rfl, rfl, rfl⟩
    have hdrop := hadd.trans (produces_dropSender _ name)
    exact ⟨hdrop.conduit, hdrop.receiver, hdrop.running, hdrop.cancelled⟩
  · exact .refl a

/-- What is not addressed to the receiver or to the run is done by producers, or is no concern of
    the conduit. -/
theorem produces_step (a : Assembly) {command : Command} (hreceives : command.receives = false) :
    Produces a (a.step command).after ∧ a.handing command = [] := by
  have haside : ∀ {b : Assembly}, b.conduit = a.conduit → b.receiver = a.receiver →
      b.running = a.running → b.cancelled = a.cancelled → Produces a b :=
    fun hconduit hreceiver hrunning hcancelled =>
      ⟨⟨[], hconduit⟩, hreceiver, hrunning, hcancelled⟩
  cases command with
  | recv | run _ | pollRun | dropReceiver | dropRun | cancel =>
    simp [Command.receives] at hreceives
  | send name via event => exact ⟨produces_startSend a name via event, rfl⟩
  | pollSend name => exact ⟨produces_pollSend a name, rfl⟩
  | dropSend name => exact ⟨produces_dropSend a name, rfl⟩
  | cloneSender via name => exact ⟨produces_cloneSender a via name, rfl⟩
  | dropSender via => exact ⟨produces_dropSender a via, rfl⟩
  | apply number event =>
    refine ⟨?_, rfl⟩
    simp only [step, applyEvent]
    split <;> exact haside rfl rfl rfl rfl
  | put draft =>
    refine ⟨?_, rfl⟩
    simp only [step, putRecord]
    split <;> exact haside rfl rfl rfl rfl
  | delete draft =>
    refine ⟨?_, rfl⟩
    simp only [step, deleteRecord]
    split <;> exact haside rfl rfl rfl rfl
  | emit draft delete =>
    refine ⟨?_, rfl⟩
    simp only [step, emitChange]
    split <;> exact haside rfl rfl rfl rfl
  | subscribe name pattern =>
    refine ⟨?_, rfl⟩
    simp only [step, subscribe]
    split <;> exact haside rfl rfl rfl rfl
  | next _ | current _ | get _ | range _ | keys | isEmpty | logValue _ | poll _ | drain _
  | unsubscribe _ | countStreams | closeFeed | isClosed _ => exact ⟨haside rfl rfl rfl rfl, rfl⟩

namespace Delivery

theorem Mirrors.produces (h : Mirrors ⟨a, handed⟩ r) (hb : Produces a b) :
    ∃ r, Mirrors ⟨b, handed⟩ r := by
  obtain ⟨⟨acts, hacts⟩, hreceiver, hrunning, hcancelled⟩ := hb
  have hkeeper : b.keeper = a.keeper := keeper_congr hreceiver hrunning
  -- All of them act on the journal, one after the other.
  have hjournal : ∀ (acts : List Act) {r : Reception}, r.Sound → ∃ r' : Reception, r'.Sound
      ∧ r'.journal.conduit = acts.foldl Conduit.act r.journal.conduit
      ∧ r'.journal.returned = r.journal.returned ∧ r'.keeper = r.keeper
      ∧ r'.cancelled = r.cancelled := by
    intro acts
    induction acts with
    | nil => exact fun hr => ⟨_, hr, rfl, rfl, rfl, rfl⟩
    | cons x rest ih =>
      intro r hr
      obtain ⟨r', hsound, hconduit, hreturned, hkeeper, hcancelled⟩ := ih (hr.step (.act x))
      refine ⟨r', hsound, ?_, ?_, hkeeper, hcancelled⟩
      · rw [hconduit]
        exact congrArg (rest.foldl Conduit.act) (Journal.conduit_act r.journal x)
      · exact hreturned.trans (Journal.returned_act r.journal x)
  obtain ⟨r', hsound, hconduit, hreturned, hkeeper', hcancelled'⟩ := hjournal acts h.sound
  constructor
  constructor
  case sound => exact hsound
  case conduit =>
    rw [hconduit, h.conduit]
    exact hacts.symm
  case returned => exact hreturned.trans h.returned
  case keeper => exact hkeeper'.trans (h.keeper.trans hkeeper.symm)
  case cancelled => exact hcancelled'.trans (h.cancelled.trans hcancelled.symm)
  case alone =>
    intro hreceiver'
    exact hrunning.trans (h.alone (hreceiver.symm.trans hreceiver'))

/-! ## The receiver -/

theorem Mirrors.recv (h : Mirrors ⟨a, handed⟩ r) :
    ∃ r, Mirrors ⟨(a.step .recv).after, handed ++ a.handing .recv⟩ r := by
  by_cases hreceiver : a.receiver = true
  · have hhand : r.keeper = .hand := h.keeper.trans (keeper_of_receiver hreceiver)
    refine ⟨r.step .recv, ?_⟩
    have hstep : r.step .recv = { r with journal := r.journal.recv } := if_pos hhand
    have hconduit : r.journal.conduit = a.conduit := h.conduit
    have hafter : (a.step .recv).after = { a with conduit := a.conduit.recv.2.2 } := by
      simp only [Assembly.step, pollReceiver, if_pos hreceiver]
    constructor
    case sound => exact h.sound.step .recv
    case conduit =>
      rw [hstep, hafter]
      exact congrArg (·.recv.2.2) hconduit
    case returned =>
      rw [hstep]
      simp only [handing, if_pos hreceiver, Journal.recv, h.returned, hconduit]
    case keeper =>
      rw [hstep, hafter]
      exact h.keeper
    case cancelled =>
      rw [hstep, hafter]
      exact h.cancelled
    case alone =>
      rw [hafter]
      exact h.alone
  · have hafter : (a.step .recv).after = a := by
      simp only [Assembly.step, pollReceiver, if_neg hreceiver]
    have hnone : a.handing .recv = [] := if_neg hreceiver
    rw [hafter, hnone, List.append_nil]
    exact ⟨r, h⟩

/-- Once the receiver goes, nobody has it. -/
theorem Mirrors.drop (h : Mirrors ⟨a, handed⟩ r) (hthere : a.keeper ≠ .nobody)
    (hconduit : b.conduit = a.conduit.close) (hreceiver : b.receiver = false)
    (hrunning : b.running = none) (hcancelled : b.cancelled = a.cancelled) :
    Mirrors ⟨b, handed⟩ (r.step .drop) := by
  have hstep : r.step .drop = { r with journal := r.journal.close, keeper := .nobody } :=
    if_neg (h.keeper ▸ hthere)
  constructor
  case sound => exact h.sound.step .drop
  case conduit =>
    rw [hstep]
    exact (congrArg Conduit.close h.conduit).trans hconduit.symm
  case returned =>
    rw [hstep]
    exact h.returned
  case keeper =>
    rw [hstep]
    exact (keeper_eq_nobody_iff.2 ⟨hreceiver, hrunning⟩).symm
  case cancelled =>
    rw [hstep]
    exact h.cancelled.trans hcancelled.symm
  case alone => exact fun _ => hrunning

theorem Mirrors.dropReceiver (h : Mirrors ⟨a, handed⟩ r) :
    ∃ r, Mirrors ⟨a.dropReceiver, handed⟩ r := by
  unfold Assembly.dropReceiver
  split
  · next hreceiver =>
      have hthere : a.keeper ≠ .nobody := by simp [keeper_of_receiver hreceiver]
      exact ⟨_, h.drop hthere rfl rfl (h.alone hreceiver) rfl⟩
  · exact ⟨r, h⟩

theorem Mirrors.receiver_of_running (h : Mirrors ⟨a, handed⟩ r) {run : Reducer × Bool}
    (hrunning : a.running = some run) : a.receiver = false := by
  cases hreceiver : a.receiver with
  | false => rfl
  | true =>
    have halone : a.running = none := h.alone hreceiver
    simp [hrunning] at halone

theorem Mirrors.dropRun (h : Mirrors ⟨a, handed⟩ r) : ∃ r, Mirrors ⟨a.dropRun, handed⟩ r := by
  unfold Assembly.dropRun
  split
  · next hsome =>
      obtain ⟨run, hrunning⟩ := Option.isSome_iff_exists.1 hsome
      have hreceiver := h.receiver_of_running hrunning
      have hthere : a.keeper ≠ .nobody := by simp [keeper_of_running hreceiver hrunning]
      exact ⟨_, h.drop hthere rfl hreceiver rfl rfl⟩
  · exact ⟨r, h⟩

/-! ## The run -/

theorem Mirrors.pollRun (h : Mirrors ⟨a, handed⟩ r) :
    ∃ r, Mirrors ⟨a.pollRun.after, handed ++ a.handing .pollRun⟩ r := by
  cases hrunning : a.running with
  | none =>
    have hafter : a.pollRun.after = a := by simp [Assembly.pollRun, hrunning]
    have hnone : a.handing .pollRun = [] := by simp [handing, hrunning]
    rw [hafter, hnone, List.append_nil]
    exact ⟨r, h⟩
  | some run =>
    obtain ⟨reducer, started⟩ := run
    have hreceiver := h.receiver_of_running hrunning
    have hkeeper : r.keeper = .run started := h.keeper.trans (keeper_of_running hreceiver hrunning)
    have hconduit : r.journal.conduit = a.conduit := h.conduit
    have hcancelled : r.cancelled = a.cancelled := h.cancelled
    refine ⟨r.step (.pollRun (a.ledger reducer)), ?_⟩
    have hstep : r.step (.pollRun (a.ledger reducer))
        = r.after (Run.poll started a.cancelled a.conduit (a.ledger reducer)) := by
      simp only [Reception.step, hkeeper, hconduit, hcancelled]
    constructor
    case sound => exact h.sound.step _
    case conduit =>
      rw [hstep]
      simp only [Assembly.pollRun, hrunning]
      rfl
    case returned =>
      rw [hstep]
      simp only [handing, hrunning, Option.isSome_some, if_true, Reception.after, h.returned,
        hconduit, hcancelled]
    case keeper =>
      rw [hstep]
      simp only [Assembly.pollRun, hrunning, Assembly.keeper, settle, hreceiver, Reception.after]
      split <;> rfl
    case cancelled =>
      rw [hstep]
      simp only [Assembly.pollRun, hrunning]
      exact hcancelled
    case alone =>
      simp only [Assembly.pollRun, hrunning, settle, hreceiver]
      simp

theorem Mirrors.startRun (h : Mirrors ⟨a, handed⟩ r) (number : Nat) :
    ∃ r, Mirrors ⟨(a.startRun number).after, handed ++ a.handing (.run number)⟩ r := by
  unfold Assembly.startRun
  simp only
  split
  · next reducer hreducer hreceiver =>
      have hhand : r.keeper = .hand := h.keeper.trans (keeper_of_receiver hreceiver)
      have hhanding : a.handing (.run number) = Run.taking a.cancelled a.conduit := by
        simp [handing, worker?, hreceiver, hreducer]
      have hmoved : Mirrors ⟨{ a with
          reducers := a.reducers.set number none
          receiver := false
          running := some (reducer, false) }, handed⟩ (r.step .run) := by
        have hstep : r.step .run = { r with keeper := .run false } := if_pos hhand
        refine ⟨h.sound.step .run, ?_, ?_, ?_, ?_, by simp⟩
        all_goals rw [hstep]
        · exact h.conduit
        · exact h.returned
        · rfl
        · exact h.cancelled
      rw [hhanding]
      exact hmoved.pollRun
  · next hnot =>
      have hhanding : a.handing (.run number) = [] := by
        have hworker : a.worker? (.run number) = none := by
          simp only [worker?]
          split
          · next hreceiver =>
              cases hreducer : a.reducers[number]?.join with
              | none => rfl
              | some reducer => exact absurd hreceiver (hnot reducer hreducer)
          · rfl
        simp [handing, hworker]
      rw [hhanding, List.append_nil]
      have hlost : Produces a { a with reducers := a.reducers.set number none } :=
        ⟨⟨[], rfl⟩, rfl, rfl, rfl⟩
      obtain ⟨r', h'⟩ := h.produces hlost
      exact h'.dropReceiver

/-! ## Every deed -/

theorem Mirrors.step (h : Mirrors ⟨a, handed⟩ r) (command : Command) :
    ∃ r, Mirrors ⟨(a.step command).after, handed ++ a.handing command⟩ r := by
  cases hreceives : command.receives with
  | false =>
    obtain ⟨hproduces, hnone⟩ := produces_step a hreceives
    rw [hnone, List.append_nil]
    exact h.produces hproduces
  | true =>
    cases command with
    | recv => exact h.recv
    | run number => exact h.startRun number
    | pollRun => exact h.pollRun
    | dropReceiver =>
      rw [show handed ++ a.handing .dropReceiver = handed from List.append_nil handed]
      exact h.dropReceiver
    | dropRun =>
      rw [show handed ++ a.handing .dropRun = handed from List.append_nil handed]
      exact h.dropRun
    | cancel =>
      refine ⟨r.step .cancel, ⟨h.sound.step .cancel, h.conduit, ?_, h.keeper, rfl, h.alone⟩⟩
      exact h.returned.trans (List.append_nil handed).symm
    | _ => simp [Command.receives] at hreceives

theorem Mirrors.meddle (h : Mirrors ⟨a, handed⟩ r) (m : Meddling) :
    ∃ r, Mirrors ⟨(a.meddle m).after, handed⟩ r := by
  obtain ⟨store, feed, hafter⟩ := (meddled_meddle a m).rest
  rw [hafter]
  exact h.produces ⟨⟨[], rfl⟩, rfl, rfl, rfl⟩

theorem mirrors_create {counters capacity : Nat} {reducers : List Reducer} {start : Assembly}
    (h : create counters reducers capacity = .ok start) : Mirrors { assembly := start } {} := by
  obtain ⟨feed, -, rfl⟩ := exists_of_create h
  exact ⟨Reception.sound_new, rfl, rfl, rfl, rfl, fun _ => rfl⟩

/-- Whatever is done to an assembly, its conduit is a reception. -/
theorem exists_mirrors {w : Delivery} (h : w.Mirrors r) (deeds : List Deed) :
    ∃ r, (w.perform deeds).Mirrors r := by
  induction deeds generalizing w r with
  | nil => exact ⟨r, h⟩
  | cons deed rest ih =>
    have hnext : ∃ r, (w.act deed).Mirrors r := by
      cases deed with
      | command command => exact Mirrors.step (a := w.assembly) h command
      | meddle m => exact Mirrors.meddle (a := w.assembly) h m
    obtain ⟨r', h'⟩ := hnext
    exact ih h'

end Delivery

end Assembly

end KeyRelay
