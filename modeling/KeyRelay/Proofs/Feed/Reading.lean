import KeyRelay.Proofs.Feed

set_option autoImplicit false

/-! # One poll of a stream

A poll first skips the changes that the feed keeps no longer, and then consumes changes up to the
first one that the pattern accepts (`Carries.poll`). Every change that is consumed is delivered,
filtered out or skipped, or it has no key to compare and breaks the poll off; `Stream.Books` keeps
the account of this. -/

namespace KeyRelay

/-! ## What a pattern says of a change -/

namespace Pattern

/-- The change has a key, which the pattern accepts, -/
def Hits (pattern : Pattern) (c : Change) : Prop :=
  ∃ key, c.key? = some key ∧ pattern.accepts key = true

/-- or does not accept. -/
def Misses (pattern : Pattern) (c : Change) : Prop :=
  ∃ key, c.key? = some key ∧ pattern.accepts key = false

end Pattern

namespace Stream

/-! ## The account of a stream -/

/-- An account of the changes that a stream with this pattern has consumed: those that it has
    delivered, and how many were filtered out, were skipped, or have broken a poll off. -/
inductive Books (pattern : Pattern) : List Change → List Change → Nat → Nat → Nat → Prop where
  | nil : Books pattern [] [] 0 0 0
  | delivered {c : Change} {consumed delivered : List Change} {filtered skipped broken : Nat}
      (hc : pattern.Hits c) (h : Books pattern consumed delivered filtered skipped broken) :
      Books pattern (c :: consumed) (c :: delivered) filtered skipped broken
  | filtered {c : Change} {consumed delivered : List Change} {filtered skipped broken : Nat}
      (hc : pattern.Misses c) (h : Books pattern consumed delivered filtered skipped broken) :
      Books pattern (c :: consumed) delivered (filtered + 1) skipped broken
  | skipped {c : Change} {consumed delivered : List Change} {filtered skipped broken : Nat}
      (h : Books pattern consumed delivered filtered skipped broken) :
      Books pattern (c :: consumed) delivered filtered (skipped + 1) broken
  | broken {c : Change} {consumed delivered : List Change} {filtered skipped broken : Nat}
      (hc : c.key? = none) (h : Books pattern consumed delivered filtered skipped broken) :
      Books pattern (c :: consumed) delivered filtered skipped (broken + 1)

variable {pattern : Pattern} {consumed delivered : List Change} {filtered skipped broken : Nat}

theorem Books.append {more further : List Change} {filtered' skipped' broken' : Nat}
    (h : Books pattern consumed delivered filtered skipped broken)
    (hmore : Books pattern more further filtered' skipped' broken') :
    Books pattern (consumed ++ more) (delivered ++ further) (filtered + filtered')
      (skipped + skipped') (broken + broken') := by
  induction h with
  | nil => simpa using hmore
  | delivered hc _ ih => exact .delivered hc ih
  | filtered hc _ ih =>
    rw [Nat.add_right_comm _ 1]
    exact .filtered hc ih
  | skipped _ ih =>
    rw [Nat.add_right_comm _ 1]
    exact .skipped ih
  | broken hc _ ih =>
    rw [Nat.add_right_comm _ 1]
    exact .broken hc ih

/-- Every change that was consumed is accounted for once. -/
theorem Books.total (h : Books pattern consumed delivered filtered skipped broken) :
    delivered.length + filtered + skipped + broken = consumed.length := by
  induction h with
  | nil => rfl
  | delivered _ _ ih | filtered _ _ ih | skipped _ ih | broken _ _ ih =>
    simp only [List.length_cons]
    omega

theorem concerns_of_hits {c : Change} (h : pattern.Hits c) :
    c.concerns pattern.accepts = true := by
  obtain ⟨key, hkey, haccepts⟩ := h
  rw [Change.concerns, hkey]
  exact haccepts

theorem not_concerns_of_misses {c : Change} (h : pattern.Misses c) :
    c.concerns pattern.accepts = false := by
  obtain ⟨key, hkey, haccepts⟩ := h
  rw [Change.concerns, hkey]
  exact haccepts

/-- What was delivered was sent and is accepted by the pattern, in this order, each change once. -/
theorem Books.sublist (h : Books pattern consumed delivered filtered skipped broken) :
    delivered.Sublist (consumed.filter (·.concerns pattern.accepts)) := by
  induction h with
  | nil => exact .slnil
  | delivered hc _ ih =>
    rw [List.filter_cons_of_pos (concerns_of_hits hc)]
    exact ih.cons_cons _
  | @filtered c _ _ _ _ _ _ _ ih | @skipped c _ _ _ _ _ _ ih | @broken c _ _ _ _ _ _ _ ih =>
    rw [List.filter_cons]
    split
    · exact ih.cons _
    · exact ih

/-- If nothing was skipped or has broken a poll off, everything was delivered that the pattern
    accepts. -/
theorem Books.eq_filter (h : Books pattern consumed delivered filtered skipped broken)
    (hskipped : skipped = 0) (hbroken : broken = 0) :
    delivered = consumed.filter (·.concerns pattern.accepts) := by
  induction h with
  | nil => rfl
  | delivered hc _ ih => rw [List.filter_cons_of_pos (concerns_of_hits hc), ← ih hskipped hbroken]
  | filtered hc _ ih =>
    rw [List.filter_cons_of_neg (by simp [not_concerns_of_misses hc])]
    exact ih hskipped hbroken
  | skipped _ _ | broken _ _ _ => omega

/-- Only a change without a key breaks a poll off. -/
theorem Books.unbroken (h : Books pattern consumed delivered filtered skipped broken)
    (hkeyed : ∀ change ∈ consumed, change.key? ≠ none) : broken = 0 := by
  induction h with
  | nil => rfl
  | delivered _ _ ih | filtered _ _ ih | skipped _ ih =>
    exact ih fun change hchange => hkeyed change (List.mem_cons_of_mem _ hchange)
  | broken hc _ _ => exact absurd hc (hkeyed _ List.mem_cons_self)

theorem books_skipped (pattern : Pattern) (changes : List Change) :
    Books pattern changes [] 0 changes.length 0 := by
  induction changes with
  | nil => exact .nil
  | cons c rest ih => exact .skipped ih

theorem books_filtered {changes : List Change} (h : ∀ c ∈ changes, pattern.Misses c) :
    Books pattern changes [] changes.length 0 0 := by
  induction changes with
  | nil => exact .nil
  | cons c rest ih =>
    exact .filtered (h c List.mem_cons_self) (ih fun d hd => h d (List.mem_cons_of_mem _ hd))

/-! ## What a poll answers -/

/-- What a poll answers that finds these changes unread, and how many of them it consumes;
    `silence` is the answer of a poll that finds nothing to deliver. -/
inductive Hears (pattern : Pattern) (silence : Answer) :
    List Change → Except Crash Answer → Nat → Prop where
  /-- It passes over changes that the pattern does not accept and delivers the first one that it
      accepts. -/
  | change (passed later : List Change) {c : Change} (hpassed : ∀ d ∈ passed, pattern.Misses d)
      (hc : pattern.Hits c) :
      Hears pattern silence (passed ++ c :: later) (.ok (.change c)) (passed.length + 1)
  /-- A change without a key comes first. -/
  | crash (passed later : List Change) {c : Change} (hpassed : ∀ d ∈ passed, pattern.Misses d)
      (hc : c.key? = none) :
      Hears pattern silence (passed ++ c :: later) (.error .keyless) (passed.length + 1)
  /-- There is no such change, and all of them are consumed. -/
  | silence {unread : List Change} (hunread : ∀ d ∈ unread, pattern.Misses d) :
      Hears pattern silence unread (.ok silence) unread.length

variable {silence : Answer} {unread : List Change} {answer : Except Crash Answer} {k : Nat}

theorem Hears.cons {d : Change} (hd : pattern.Misses d)
    (h : Hears pattern silence unread answer k) :
    Hears pattern silence (d :: unread) answer (k + 1) := by
  cases h with
  | change passed later hpassed hc =>
    exact .change (d :: passed) later (List.forall_mem_cons.2 ⟨hd, hpassed⟩) hc
  | crash passed later hpassed hc =>
    exact .crash (d :: passed) later (List.forall_mem_cons.2 ⟨hd, hpassed⟩) hc
  | silence hunread => exact .silence (List.forall_mem_cons.2 ⟨hd, hunread⟩)

/-- A poll consumes what it finds unread at most. -/
theorem Hears.le_length (h : Hears pattern silence unread answer k) : k ≤ unread.length := by
  cases h with
  | change _ _ _ _ | crash _ _ _ _ =>
    rw [List.length_append, List.length_cons]
    omega
  | silence _ => exact Nat.le_refl _

/-- The changes that an answer delivers. -/
def heard : Except Crash Answer → List Change
  | .ok answer => answer.heard
  | .error _ => []

/-- How many polls an answer says were broken off. -/
def breaks : Except Crash Answer → Nat
  | .ok _ => 0
  | .error _ => 1

/-- The account of one poll. -/
theorem Hears.books (h : Hears pattern silence unread answer k) (hsilence : silence.heard = []) :
    ∃ filtered, Books pattern (unread.take k) (heard answer) filtered 0 (breaks answer) := by
  cases h with
  | change passed later hpassed hc =>
    refine ⟨passed.length + 0, ?_⟩
    rw [List.take_length_add_append, List.take_succ_cons, List.take_zero]
    exact (books_filtered hpassed).append (.delivered hc .nil)
  | crash passed later hpassed hc =>
    refine ⟨passed.length + 0, ?_⟩
    rw [List.take_length_add_append, List.take_succ_cons, List.take_zero]
    exact (books_filtered hpassed).append (.broken hc .nil)
  | silence hunread =>
    refine ⟨unread.length, ?_⟩
    rw [List.take_length, heard, hsilence]
    exact books_filtered hunread

end Stream

namespace Feed

variable {f : Feed} {all : List Change} {name : String} {s : Stream}

/-! ## Reading -/

/-- The search stops where a poll answers. -/
theorem hears_search (pattern : Pattern) (silence : Stream.Answer) (unread : List Change) :
    match search pattern unread with
    | .hit consumed c => Stream.Hears pattern silence unread (.ok (.change c)) consumed
    | .keyless consumed => Stream.Hears pattern silence unread (.error .keyless) consumed
    | .miss => Stream.Hears pattern silence unread (.ok silence) unread.length := by
  induction unread with
  | nil => exact .silence (by simp)
  | cons d unread ih =>
    cases hkey : d.key? with
    | none =>
      have hstop : search pattern (d :: unread) = .keyless 1 := by simp only [search, hkey]
      rw [hstop]
      exact .crash [] unread (by simp) hkey
    | some key =>
      by_cases haccepts : pattern.accepts key = true
      · have hstop : search pattern (d :: unread) = .hit 1 d := by
          simp only [search, hkey, if_pos haccepts]
        rw [hstop]
        exact .change [] unread (by simp) ⟨key, hkey, haccepts⟩
      · have hnext : search pattern (d :: unread) = (search pattern unread).next := by
          simp only [search, hkey, if_neg haccepts]
        have hd : pattern.Misses d := ⟨key, hkey, by simpa using haccepts⟩
        rw [hnext]
        cases hsearch : search pattern unread with
        | hit consumed c | keyless consumed | miss =>
          rw [hsearch] at ih
          exact ih.cons hd

/-- **One poll.** A stream that has fallen behind by more than the width of the feed skips what it
    has lost and notes how much that is. -/
theorem Carries.poll (h : f.Carries all) (hs : f.stream? name = some s)
    (hle : s.position ≤ all.length) :
    ∃ answer k, Stream.Hears s.pattern (if f.closed then .ended else .pending)
        (all.drop (s.position + f.lost s)) answer k
      ∧ f.poll name = (some answer, if f.lost s = 0 then [] else [.lagged s.pattern (f.lost s)],
          f.move name (s.position + f.lost s + k)) := by
  have hsearch := hears_search s.pattern (if f.closed then .ended else .pending) (f.unread s)
  simp only [Feed.poll, hs, read]
  cases hstop : search s.pattern (f.unread s) with
  | hit consumed c =>
    rw [hstop, h.unread_eq hle] at hsearch
    exact ⟨_, consumed, hsearch, rfl⟩
  | keyless consumed =>
    rw [hstop, h.unread_eq hle] at hsearch
    exact ⟨_, consumed, hsearch, rfl⟩
  | miss =>
    rw [hstop, h.unread_eq hle] at hsearch
    refine ⟨_, _, hsearch, ?_⟩
    -- The stream is moved to the end of all changes.
    have hend : f.published
        = s.position + f.lost s + (all.drop (s.position + f.lost s)).length := by
      rw [List.length_drop, lost, h.published]
      omega
    rw [hend]

end Feed

end KeyRelay
