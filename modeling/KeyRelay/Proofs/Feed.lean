import Mathlib.Tactic.Common
import KeyRelay.Feed
import KeyRelay.Proofs.Reduction.Replay

set_option autoImplicit false

/-! # What a stream hears

The feed keeps the end of the list of all changes that were ever published (`Feed.Carries`). A
stream divides this list into what it has behind it and what it has before it (`Feed.Follows`). As
long as no more than the width of the feed is before it, a poll consumes what is before it up to
the first change that its pattern accepts (`Follows.poll`), and a drain consumes all of it and
answers exactly what the pattern accepts (`Follows.drain`). -/

namespace KeyRelay

/-! ## What a pattern stands for -/

namespace Pattern

theorem accepts_append_star (stem key : Key) :
    accepts (stem ++ "*") key = Key.beginsWith key stem := by
  have hstem : stem? (stem ++ "*") = some stem := by
    simp [stem?]
  rw [accepts, hstem]

theorem accepts_of_getLast? {pattern : Pattern} (h : pattern.toList.getLast? ≠ some '*')
    (key : Key) : pattern.accepts key = decide (key = pattern) := by
  rw [accepts, stem?, if_neg h]

/-- A pattern either is some stem with a star behind it, or does not end in a star. -/
theorem exists_stem {pattern : Pattern} (h : pattern.toList.getLast? = some '*') :
    ∃ stem : Key, pattern = stem ++ "*" := by
  obtain ⟨chars, hchars⟩ := List.getLast?_eq_some_iff.1 h
  refine ⟨String.ofList chars, String.toList_inj.1 ?_⟩
  rw [String.toList_append, String.toList_ofList, hchars]
  rfl

/-- A pattern accepts itself, and if it ends in a star, all that begins with what is before that
    star. -/
theorem accepts_iff (pattern : Pattern) (key : Key) :
    pattern.accepts key = true
      ↔ key = pattern ∨ ∃ stem : Key, pattern = stem ++ "*" ∧ stem.bytes <+: key.bytes := by
  by_cases h : pattern.toList.getLast? = some '*'
  · obtain ⟨stem, rfl⟩ := exists_stem h
    rw [accepts_append_star, Key.beginsWith, List.isPrefixOf_iff_prefix]
    constructor
    · exact fun hprefix => Or.inr ⟨stem, rfl, hprefix⟩
    · rintro (rfl | ⟨stem', hstem, hprefix⟩)
      · rw [Key.bytes_append]
        exact List.prefix_append _ _
      · have hchars : stem.toList = stem'.toList := by
          have := congrArg String.toList hstem
          simpa using this
        rwa [String.toList_inj.1 hchars]
  · rw [accepts_of_getLast? h, decide_eq_true_iff]
    refine ⟨Or.inl, ?_⟩
    rintro (heq | ⟨stem, rfl, -⟩)
    · exact heq
    · exact absurd (by simp) h

end Pattern

/-- The changes that an answer delivers. -/
def Stream.Answer.heard : Stream.Answer → List Change
  | .change c => [c]
  | .pending | .ended => []

namespace Feed

/-! ## Publishing -/

/-- These are all changes that were ever published, and the newest of them are kept. -/
structure Carries (f : Feed) (all : List Change) : Prop where
  published : f.published = all.length
  kept : f.kept = all.drop (all.length - f.width)

theorem eq_of_create {capacity : Nat} {f : Feed} (h : create capacity = .ok f) :
    f = { width := powerOfTwo capacity } := by
  unfold create at h
  split at h
  · simp at h
  · split at h
    · simp at h
    · split at h
      · simp at h
      · exact (Except.ok.inj h).symm

theorem carries_create {capacity : Nat} {f : Feed} (h : create capacity = .ok f) :
    f.Carries [] ∧ f.closed = false := by
  obtain rfl := eq_of_create h
  exact ⟨⟨rfl, by simp⟩, rfl⟩

variable {f : Feed} {all : List Change}

theorem Carries.length_kept (h : f.Carries all) : f.kept.length = min all.length f.width := by
  rw [h.kept, List.length_drop]
  omega

theorem publish_of_open (hopen : f.closed = false) (c : Change) :
    f.publish c = { f with
      published := f.published + 1
      kept := (f.kept ++ [c]).drop (f.kept.length + 1 - f.width) } := by
  rw [publish, if_neg (by simp [hopen])]

theorem Carries.publish (h : f.Carries all) (hopen : f.closed = false) (c : Change) :
    (f.publish c).Carries (all ++ [c]) := by
  rw [publish_of_open hopen]
  constructor
  case published => simp [h.published]
  case kept =>
    -- Dropping twice is dropping the sum, and it comes to one more as soon as the feed is full.
    have hlength := h.length_kept
    show (f.kept ++ [c]).drop (f.kept.length + 1 - f.width)
      = (all ++ [c]).drop ((all ++ [c]).length - f.width)
    have hkept : f.kept ++ [c] = (all ++ [c]).drop (all.length - f.width) := by
      rw [h.kept, List.drop_append_of_le_length (Nat.sub_le _ _)]
    rw [hkept, List.drop_drop]
    congr 1
    rw [List.length_append, List.length_singleton]
    omega

theorem publishAll_of_open (hopen : f.closed = false) (changes : List Change) :
    (f.publishAll changes).closed = false ∧ (f.publishAll changes).width = f.width
      ∧ (f.publishAll changes).streams = f.streams := by
  induction changes generalizing f with
  | nil => exact ⟨hopen, rfl, rfl⟩
  | cons c rest ih =>
    have hnext := publish_of_open hopen c
    obtain ⟨hclosed, hwidth, hstreams⟩ := ih (f := f.publish c) (by rw [hnext]; exact hopen)
    exact ⟨hclosed, hwidth.trans (by rw [hnext]), hstreams.trans (by rw [hnext])⟩

theorem Carries.publishAll (h : f.Carries all) (hopen : f.closed = false)
    (changes : List Change) : (f.publishAll changes).Carries (all ++ changes) := by
  induction changes generalizing f all with
  | nil => simpa [Feed.publishAll] using h
  | cons c rest ih =>
    have hnext : (f.publish c).closed = false := by rw [publish_of_open hopen]; exact hopen
    have := ih (h.publish hopen c) hnext
    -- The list grows at its end: `all ++ [c]` is what the rest is published behind.
    rwa [List.append_assoc] at this

/-! ## The streams -/

theorem stream?_unsubscribe {name other : String} (h : other ≠ name) (f : Feed) :
    (f.unsubscribe other).stream? name = f.stream? name := by
  simp only [stream?, unsubscribe, List.find?_filter]
  congr 2
  funext e
  by_cases hk : e.1 = name <;> simp [hk, Ne.symm h]

theorem stream?_subscribe (f : Feed) (name : String) (pattern : Pattern) :
    (f.subscribe name pattern).stream? name = some ⟨pattern, f.published⟩ := by
  have hnone : (f.unsubscribe name).streams.find? (fun e => e.1 = name) = none := by
    rw [List.find?_eq_none]
    intro e he
    simpa [unsubscribe] using (List.mem_filter.1 he).2
  simp only [stream?, subscribe, List.find?_append, hnone]
  simp

theorem stream?_subscribe_of_ne {name other : String} (h : other ≠ name) (f : Feed)
    (pattern : Pattern) : (f.subscribe other pattern).stream? name = f.stream? name := by
  rw [← stream?_unsubscribe h f]
  simp only [stream?, subscribe, List.find?_append]
  congr 1
  simp [h]

theorem stream?_move (f : Feed) (other name : String) (position : Nat) :
    (f.move other position).stream? name
      = (f.stream? name).map fun s => if name = other then { s with position } else s := by
  have hnames : (f.move other position).streams.find? (fun e => e.1 = name)
      = (f.streams.find? fun e => e.1 = name).map fun e =>
          if e.1 = other then (e.1, { e.2 with position }) else e := by
    simp only [move, List.find?_map]
    congr 2
    funext e
    simp only [Function.comp_apply]
    split <;> rfl
  rw [stream?, hnames, stream?]
  cases hfound : f.streams.find? fun e => e.1 = name with
  | none => rfl
  | some e =>
    have hname : e.1 = name := by simpa using List.find?_some hfound
    simp only [Option.map_some, hname]
    split <;> rfl

/-! ## Polling -/

/-- What is unread is what comes after the position of the stream and what it has lost. -/
theorem Carries.unread_eq (h : f.Carries all) {s : Stream} (hs : s.position ≤ all.length) :
    f.unread s = all.drop (s.position + f.lost s) := by
  have hstart : all.length - f.width
      + (min all.length f.width - (all.length - s.position))
      = s.position + (all.length - s.position - f.width) := by omega
  show f.kept.drop (f.kept.length - (f.published - s.position)) = _
  rw [h.length_kept, h.published, h.kept, List.drop_drop, hstart, lost, h.published]

/-- What holds whatever position a stream is moved to holds after it was polled. -/
theorem poll_preserves {P : Feed → Prop} {name : String}
    (hmove : ∀ f position, P f → P (f.move name position)) (hf : P f) : P (f.poll name).2.2 := by
  unfold poll
  split
  · exact hf
  · exact hmove _ _ hf

/-- What every poll keeps holds after a drain. -/
theorem drainFor_of_poll {P : Feed → Prop} {name : String}
    (hpoll : ∀ f, P f → P (f.poll name).2.2) (hf : P f) (fuel : Nat) :
    P (f.drainFor fuel name).2.2 := by
  induction fuel generalizing f with
  | zero => exact hf
  | succ fuel ih =>
    have hnext := hpoll f hf
    unfold drainFor
    split
    · next heq => rw [heq] at hnext; exact hnext
    · next heq => rw [heq] at hnext; exact hnext
    · next heq => rw [heq] at hnext; exact ih hnext
    · next heq => rw [heq] at hnext; exact hnext

theorem drainFor_preserves {P : Feed → Prop} {name : String}
    (hmove : ∀ f position, P f → P (f.move name position)) (hf : P f) (fuel : Nat) :
    P (f.drainFor fuel name).2.2 :=
  drainFor_of_poll (fun _ hf => poll_preserves hmove hf) hf fuel

/-- The search stops at the first of the unread changes that the pattern accepts, and consumes it
    and those before it. -/
theorem search_cases (pattern : Pattern) {unread : List Change}
    (hkeyed : ∀ c ∈ unread, c.key?.isSome = true) :
    search pattern unread = .miss ∧ unread.filter (·.concerns pattern.accepts) = []
      ∨ ∃ skipped c rest, unread = skipped ++ c :: rest
        ∧ search pattern unread = .hit (skipped.length + 1) c
        ∧ (skipped ++ [c]).filter (·.concerns pattern.accepts) = [c] := by
  induction unread with
  | nil => exact Or.inl ⟨rfl, rfl⟩
  | cons d unread ih =>
    obtain ⟨key, hkey⟩ := Option.isSome_iff_exists.1 (hkeyed d List.mem_cons_self)
    have hconcerns : d.concerns pattern.accepts = pattern.accepts key := by
      rw [Change.concerns, hkey, Option.any_some]
    by_cases haccepts : pattern.accepts key = true
    · have hhit : search pattern (d :: unread) = .hit 1 d := by
        simp only [search, hkey, if_pos haccepts]
      exact Or.inr ⟨[], d, unread, rfl, hhit, by simp [hconcerns, haccepts]⟩
    · have hnext : search pattern (d :: unread) = (search pattern unread).next := by
        simp only [search, hkey, if_neg haccepts]
      have hnot : d.concerns pattern.accepts = false := by
        rw [hconcerns]
        simpa using haccepts
      rcases ih fun c hc => hkeyed c (List.mem_cons_of_mem _ hc) with
        ⟨hmiss, hfilter⟩ | ⟨skipped, c, rest, rfl, hhit, hfilter⟩
      · exact Or.inl ⟨by rw [hnext, hmiss]; rfl, by simp [hnot, hfilter]⟩
      · refine Or.inr ⟨d :: skipped, c, rest, rfl, by rw [hnext, hhit]; rfl, ?_⟩
        rw [List.cons_append, List.filter_cons_of_neg (by simp [hnot])]
        exact hfilter

/-! ## Following -/

/-- The feed is open, and the stream of this name has `early` behind it and `late` before it. -/
structure Follows (f : Feed) (name : String) (pattern : Pattern) (early late : List Change) :
    Prop where
  carries : f.Carries (early ++ late)
  stream : f.stream? name = some ⟨pattern, early.length⟩
  isOpen : f.closed = false
  keyed : ∀ c ∈ late, c.key?.isSome = true

variable {name : String} {pattern : Pattern} {early late : List Change}

/-- A new stream has everything behind it that was published so far. -/
theorem Carries.follows_subscribe (h : f.Carries all) (hopen : f.closed = false) (name : String)
    (pattern : Pattern) : (f.subscribe name pattern).Follows name pattern all [] where
  carries := by rw [List.append_nil]; exact ⟨h.published, h.kept⟩
  stream := by rw [stream?_subscribe, h.published]
  isOpen := hopen
  keyed := by simp

/-- What is published comes before the stream. -/
theorem Follows.publishAll (h : f.Follows name pattern early late) {changes : List Change}
    (hkeyed : ∀ c ∈ changes, c.key?.isSome = true) :
    (f.publishAll changes).Follows name pattern early (late ++ changes) := by
  obtain ⟨hclosed, -, hstreams⟩ := publishAll_of_open h.isOpen changes
  constructor
  case carries =>
    rw [← List.append_assoc]
    exact h.carries.publishAll h.isOpen changes
  case stream =>
    rw [stream?, hstreams]
    exact h.stream
  case isOpen => exact hclosed
  case keyed =>
    intro c hc
    rcases List.mem_append.1 hc with hc | hc
    · exact h.keyed c hc
    · exact hkeyed c hc

/-- A stream that has not fallen behind finds everything that is before it. -/
theorem Follows.unread (h : f.Follows name pattern early late) (hpace : late.length ≤ f.width) :
    f.unread ⟨pattern, early.length⟩ = late ∧ f.lost ⟨pattern, early.length⟩ = 0 := by
  have hlost : f.lost ⟨pattern, early.length⟩ = 0 := by
    show f.published - early.length - f.width = 0
    rw [h.carries.published, List.length_append]
    omega
  refine ⟨?_, hlost⟩
  rw [h.carries.unread_eq (by simp), hlost]
  exact List.drop_left

/-- Moving a stream over some of the changes before it puts them behind it. -/
theorem Follows.move {read rest : List Change} (h : f.Follows name pattern early (read ++ rest)) :
    (f.move name (early.length + read.length)).Follows name pattern (early ++ read) rest where
  carries := by
    rw [List.append_assoc]
    exact ⟨h.carries.published, h.carries.kept⟩
  stream := by
    rw [stream?_move, h.stream, Option.map_some, if_pos rfl, List.length_append]
  isOpen := h.isOpen
  keyed := fun c hc => h.keyed c (List.mem_append_right _ hc)

/-- Other streams may be started, ended and moved. -/
theorem Follows.of_streams (h : f.Follows name pattern early late)
    {streams : List (String × Stream)}
    (hsame : stream? { f with streams } name = f.stream? name) :
    Follows { f with streams } name pattern early late where
  carries := ⟨h.carries.published, h.carries.kept⟩
  stream := hsame.trans h.stream
  isOpen := h.isOpen
  keyed := h.keyed

theorem Follows.move_of_ne (h : f.Follows name pattern early late) {other : String}
    (hne : other ≠ name) (position : Nat) :
    (f.move other position).Follows name pattern early late := by
  refine h.of_streams ?_
  show (f.move other position).stream? name = f.stream? name
  rw [stream?_move]
  simp [hne.symm]

/-- A poll of a stream that has not fallen behind moves it over a first part of what is before it,
    and delivers what the pattern accepts in this part. It waits only when nothing is left. -/
theorem Follows.poll (h : f.Follows name pattern early late) (hpace : late.length ≤ f.width) :
    ∃ read rest answer, late = read ++ rest ∧ (f.poll name).1 = some (.ok answer)
      ∧ (f.poll name).2.2 = f.move name (early.length + read.length)
      ∧ answer.heard = read.filter (·.concerns pattern.accepts)
      ∧ (answer = .pending ∧ rest = [] ∨ ∃ c, answer = .change c) := by
  obtain ⟨hunread, hlost⟩ := h.unread hpace
  have hpublished : f.published = early.length + late.length := by
    rw [h.carries.published, List.length_append]
  simp only [Feed.poll, h.stream, Feed.read, hunread, hlost]
  rcases search_cases pattern h.keyed with
    ⟨hmiss, hfilter⟩ | ⟨skipped, c, rest, rfl, hhit, hfilter⟩
  · refine ⟨late, [], .pending, (List.append_nil _).symm, ?_, ?_, hfilter.symm, Or.inl ⟨rfl, rfl⟩⟩
    · simp [hmiss, h.isOpen]
    · simp [hmiss, hpublished]
  · refine ⟨skipped ++ [c], rest, .change c, by simp, ?_, ?_, hfilter.symm, Or.inr ⟨c, rfl⟩⟩
    · simp [hhit]
    · simp [hhit]

/-- With enough fuel, a drain delivers what the pattern accepts of everything that is before the
    stream, and then waits. -/
theorem Follows.drainFor {fuel : Nat} (h : f.Follows name pattern early late)
    (hpace : late.length ≤ f.width) (hfuel : late.length < fuel) :
    (f.drainFor fuel name).1
        = some (.ok ((late.filter (·.concerns pattern.accepts)).map .change ++ [.pending]))
      ∧ (f.drainFor fuel name).2.2.Follows name pattern (early ++ late) [] := by
  induction fuel generalizing f early late with
  | zero => exact absurd hfuel (Nat.not_lt_zero _)
  | succ fuel ih =>
    obtain ⟨read, rest, answer, rfl, hanswer, hfeed, hheard, hlast⟩ := h.poll hpace
    have hnext := h.move
    rw [← hfeed] at hnext
    rw [Feed.drainFor]
    generalize f.poll name = polled at hanswer hfeed hnext ⊢
    obtain ⟨first, entries, g⟩ := polled
    obtain rfl : first = some (.ok answer) := hanswer
    rcases hlast with ⟨rfl, rfl⟩ | ⟨c, rfl⟩
    · refine ⟨?_, by simpa using hnext⟩
      rw [List.append_nil, ← hheard]
      rfl
    · -- A poll that delivers consumes at least what it delivers, so one poll less is enough.
      have hread : read ≠ [] := by
        rintro rfl
        simp [Stream.Answer.heard] at hheard
      have hshorter : rest.length < (read ++ rest).length := by
        rw [List.length_append]
        have := List.length_pos_iff.2 hread
        omega
      have hwidth : g.width = (f.move name (early.length + read.length)).width :=
        congrArg Feed.width hfeed
      have hrest : rest.length ≤ g.width := by
        rw [hwidth]
        exact Nat.le_trans (Nat.le_of_lt hshorter) hpace
      obtain ⟨hanswers, hfollows⟩ := ih hnext hrest (by omega)
      refine ⟨?_, by simpa using hfollows⟩
      simp only [hanswers, List.filter_append, ← hheard]
      rfl

theorem Follows.drain (h : f.Follows name pattern early late) (hpace : late.length ≤ f.width) :
    (f.drain name).1
        = some (.ok ((late.filter (·.concerns pattern.accepts)).map .change ++ [.pending]))
      ∧ (f.drain name).2.2.Follows name pattern (early ++ late) [] := by
  refine h.drainFor hpace ?_
  rw [h.carries.length_kept, List.length_append]
  omega

end Feed

end KeyRelay
