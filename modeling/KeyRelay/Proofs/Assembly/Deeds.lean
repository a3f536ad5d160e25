import KeyRelay.Proofs.Assembly.Steps
import KeyRelay.Proofs.Reduction.Provenance

set_option autoImplicit false

/-! # Deeds past the reducers

The store and the feed are open to everybody. Whoever holds a record can put it or delete its key,
and whoever holds a change can send it, whatever revisions it carries, and in between any commands.
Drafts, too, come to this: a command with a draft makes a record, or crashes and does nothing
(`Assembly.draft_cases`). -/

namespace KeyRelay

namespace Assembly

/-- What can be done with a record or a change at hand, as they can be made. -/
inductive Meddling where
  | put (record : Record) (made : record.Made)
  | delete (record : Record) (made : record.Made)
  | send (change : Change) (made : change.Made)

/-- What can be done to an assembly. -/
inductive Deed where
  | command (command : Command)
  | meddle (meddling : Meddling)

/-- Carries out what is done past the reducers. -/
def meddle (a : Assembly) : Meddling → Effect
  | .put record _ =>
      match a.store.put record with
      | .ok store => ⟨.done, [], [], { a with store }⟩
      | .error crash => ⟨.crashed crash, [], [], a⟩
  | .delete record _ =>
      match a.store.delete record with
      | .ok (removed, store) => ⟨.record removed, [], [], { a with store }⟩
      | .error crash => ⟨.crashed crash, [], [], a⟩
  | .send change _ => ⟨.done, [], [], { a with feed := a.feed.publish change }⟩

/-- Carries out a deed. -/
def act (a : Assembly) : Deed → Effect
  | .command command => a.step command
  | .meddle meddling => a.meddle meddling

/-- Carries out deeds one after the other. A crash ends its own deed only. -/
def perform (a : Assembly) (deeds : List Deed) : Assembly :=
  deeds.foldl (fun a deed => (a.act deed).after) a

variable {a : Assembly}

/-- What every deed keeps, all of them keep. -/
theorem perform_preserves {P : Assembly → Prop} (hact : ∀ {a} deed, P a → P (a.act deed).after)
    (h : P a) (deeds : List Deed) : P (a.perform deeds) := by
  induction deeds generalizing a with
  | nil => exact h
  | cons deed rest ih => exact ih (hact deed h)

/-! ## Meddling -/

/-- Only the store and the feed are touched, and a crash leaves even these alone. -/
structure Meddled (a : Assembly) (e : Effect) : Prop where
  rest : ∃ store feed, e.after = { a with store, feed }
  changes : e.changes = []
  crashed : ∀ crash, e.reply = .crashed crash → e.after = a

theorem meddled_meddle (a : Assembly) (m : Meddling) : Meddled a (a.meddle m) := by
  cases m with
  | put record made =>
    simp only [meddle]
    split <;> exact ⟨⟨_, _, rfl⟩, rfl, by simp⟩
  | delete record made =>
    simp only [meddle]
    split <;> exact ⟨⟨_, _, rfl⟩, rfl, by simp⟩
  | send change made => exact ⟨⟨_, _, rfl⟩, rfl, by simp [meddle]⟩

/-- Whatever is done, no counter and no reducer comes in. -/
theorem retains_act (a : Assembly) (deed : Deed) : Retains a (a.act deed).after := by
  cases deed with
  | meddle m =>
    obtain ⟨store, feed, hafter⟩ := (meddled_meddle a m).rest
    show Retains a (a.meddle m).after
    rw [hafter]
    exact retains_of_eq rfl rfl rfl
  | command command =>
    cases hdraft : command.isDraft with
    | false => exact (doing_step a hdraft).1
    | true =>
      cases command with
      | put draft =>
        simp only [act, step, putRecord]
        split <;> exact retains_of_eq rfl rfl rfl
      | delete draft =>
        simp only [act, step, deleteRecord]
        split <;> exact retains_of_eq rfl rfl rfl
      | emit draft delete =>
        simp only [act, step, emitChange]
        split <;> exact retains_of_eq rfl rfl rfl
      | _ => simp [Command.isDraft] at hdraft

theorem retains_perform (a : Assembly) (deeds : List Deed) : Retains a (a.perform deeds) :=
  perform_preserves (fun deed h => h.trans (retains_act _ deed)) (retains_of_eq rfl rfl rfl) deeds

/-! ## Drafts -/

/-- The record of a draft is a first version, or a further version of a record from the store. -/
theorem made_recordOf (h : a.store.Made) {draft : Draft} {record : Record}
    (hrecord : a.recordOf draft = .ok record) :
    record.Made ∧ ∀ p, a.previousOf draft = some p → p.Made := by
  have hprevious : ∀ p, a.previousOf draft = some p → p.Made := by
    intro p hp
    obtain ⟨key, -, hfound⟩ := Option.bind_eq_some_iff.1 hp
    exact h.get? hfound
  refine ⟨?_, hprevious⟩
  unfold recordOf at hrecord
  split at hrecord
  · next p hp => exact .modified (hprevious p hp) hrecord
  · obtain rfl := Except.ok.inj hrecord
    exact .created draft.item draft.revision

/-- A command with a draft crashes and does nothing, or it does something with a record that can be
    made. -/
theorem draft_cases (h : a.store.Made) {command : Command} (hdraft : command.isDraft = true) :
    (∃ crash, a.step command = ⟨.crashed crash, [], [], a⟩) ∨ ∃ m, a.step command = a.meddle m := by
  have hmade := fun {draft} => @made_recordOf a h draft
  cases command with
  | put draft =>
    cases hrecord : a.recordOf draft with
    | error crash => exact Or.inl ⟨crash, by simp only [step, putRecord, hrecord]; rfl⟩
    | ok record =>
      refine Or.inr ⟨.put record (hmade hrecord).1, ?_⟩
      simp only [step, putRecord, hrecord]
      rfl
  | delete draft =>
    cases hrecord : a.recordOf draft with
    | error crash => exact Or.inl ⟨crash, by simp only [step, deleteRecord, hrecord]; rfl⟩
    | ok record =>
      refine Or.inr ⟨.delete record (hmade hrecord).1, ?_⟩
      simp only [step, deleteRecord, hrecord]
      rfl
  | emit draft delete =>
    cases hrecord : a.recordOf draft with
    | error crash => exact Or.inl ⟨crash, by simp only [step, emitChange, hrecord]⟩
    | ok record =>
      obtain ⟨hnew, hprevious⟩ := hmade hrecord
      refine Or.inr ?_
      simp only [step, emitChange, hrecord]
      split
      · next p hp => exact ⟨.send _ (Change.made_delete hnew (hprevious p hp)), rfl⟩
      · exact ⟨.send _ (Change.made_put hnew hprevious), rfl⟩
  | _ => simp [Command.isDraft] at hdraft

end Assembly

end KeyRelay
