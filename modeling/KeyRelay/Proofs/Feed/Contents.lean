import KeyRelay.Proofs.Feed.Reading

set_option autoImplicit false

/-! # What a feed keeps, and what its streams are told

The feed keeps what was published and nothing else. Streams come and go and read without touching
it, and whatever they are told of is among it. -/

namespace KeyRelay.Feed

variable {f : Feed} {changes : List Change} {c : Change}

theorem mem_kept_publish {d : Change} (h : c ∈ (f.publish d).kept) : c ∈ f.kept ∨ c = d := by
  unfold publish at h
  split at h
  · exact Or.inl h
  · rcases List.mem_append.1 (List.mem_of_mem_drop h) with hkept | hnew
    · exact Or.inl hkept
    · exact Or.inr (List.mem_singleton.1 hnew)

theorem mem_kept_publishAll (h : c ∈ (f.publishAll changes).kept) : c ∈ f.kept ∨ c ∈ changes := by
  induction changes generalizing f with
  | nil => exact Or.inl h
  | cons d rest ih =>
    rcases ih h with hkept | hrest
    · rcases mem_kept_publish hkept with hkept | rfl
      · exact Or.inl hkept
      · exact Or.inr List.mem_cons_self
    · exact Or.inr (List.mem_cons_of_mem _ hrest)

theorem kept_poll (f : Feed) (name : String) : (f.poll name).2.2.kept = f.kept :=
  poll_preserves (P := fun g => g.kept = f.kept) (fun _ _ h => h) rfl

/-! ## What is told -/

/-- Of these changes only, and a poll that breaks off has come to one without a key. -/
def Tells (kept : List Change) : Except Crash (List Stream.Answer) → Prop
  | .ok answers => ∀ answer ∈ answers, ∀ c ∈ answer.heard, c ∈ kept
  | .error crash => crash = .keyless

theorem mem_unread {s : Stream} (h : c ∈ f.unread s) : c ∈ f.kept := List.mem_of_mem_drop h

/-- What a poll consumes is what it has found unread. -/
theorem tells_of_hears {pattern : Pattern} {silence : Stream.Answer} {unread : List Change}
    {answer : Except Crash Stream.Answer} {k : Nat} (hsilence : silence.heard = [])
    (h : Stream.Hears pattern silence unread answer k) :
    Tells unread (answer.map ([·])) := by
  cases h with
  | change passed later _ _ =>
    intro answer hanswer c hc
    obtain rfl := List.mem_singleton.1 hanswer
    obtain rfl := List.mem_singleton.1 hc
    simp
  | crash _ _ _ _ => rfl
  | silence _ =>
    intro answer hanswer c hc
    obtain rfl := List.mem_singleton.1 hanswer
    rw [hsilence] at hc
    simp at hc

theorem tells_read (f : Feed) (s : Stream) : Tells f.kept ((f.read s).answer.map ([·])) := by
  have hsilence : (if f.closed then Stream.Answer.ended else .pending).heard = [] := by
    split <;> rfl
  have hears := hears_search s.pattern (if f.closed then .ended else .pending) (f.unread s)
  have htells : Tells (f.unread s) ((f.read s).answer.map ([·])) := by
    unfold read
    cases hsearch : search s.pattern (f.unread s) with
    | hit consumed c | keyless consumed | miss =>
      rw [hsearch] at hears
      exact tells_of_hears hsilence hears
  generalize (f.read s).answer = answer at htells
  cases answer with
  | ok answer => exact fun a ha c hc => mem_unread (htells a ha c hc)
  | error crash => exact htells

theorem tells_poll {name : String} {answer : Except Crash Stream.Answer}
    (h : (f.poll name).1 = some answer) : Tells f.kept (answer.map ([·])) := by
  unfold poll at h
  split at h
  · simp at h
  · next s _ =>
      obtain rfl := Option.some.inj h
      exact tells_read f s

theorem tells_drainFor {fuel : Nat} {name : String} {answers : Except Crash (List Stream.Answer)}
    (h : (f.drainFor fuel name).1 = some answers) : Tells f.kept answers := by
  induction fuel generalizing f answers with
  | zero =>
    obtain rfl := Option.some.inj h
    simp [Tells]
  | succ fuel ih =>
    have hkept := kept_poll f name
    have htells := @tells_poll f name
    unfold drainFor at h
    split at h
    · simp at h
    · next heq =>
        obtain rfl := Option.some.inj h
        rw [heq] at htells
        exact htells rfl
    · next change entries g heq =>
        rw [heq] at hkept htells
        have hfirst := htells rfl
        have hrest := @ih g
        rw [show g.kept = f.kept from hkept] at hrest
        generalize g.drainFor fuel name = drained at h hrest
        obtain ⟨rest?, more, last⟩ := drained
        cases rest? with
        | none => simp at h
        | some rest =>
          obtain rfl := Option.some.inj h
          have htold := hrest rfl
          cases rest with
          | ok later =>
            intro answer hanswer
            rcases List.mem_cons.1 hanswer with rfl | hlater
            · exact hfirst _ (List.mem_singleton.2 rfl)
            · exact htold answer hlater
          | error crash => exact htold
    · next heq =>
        obtain rfl := Option.some.inj h
        rw [heq] at htells
        exact htells rfl

end KeyRelay.Feed
