import KeyRelay.Proofs.Feed.Reading

set_option autoImplicit false

/-! # Streams do not disturb each other

A stream knows of a feed what was published since the stream was started, and how many changes are
kept. Two feeds that agree in this are the same to the stream, even if different numbers of changes
were published before, so that the positions in them differ. `Feed.Alike` says this of two feeds
and some of their streams; others may be there in one feed only. It outlasts whatever is done to
those others, and whatever is done to both feeds at once; the streams that are heeded are then told
the same.

In particular it does not matter whether a feed takes changes while nobody listens
(`Alike.hear`). -/

namespace KeyRelay.Feed

variable {f g : Feed} {all early early' late changes : List Change} {name other : String}
  {heeded : String → Bool}

/-! ## Publishing -/

/-- Publishing leaves the streams, the width and the end of the feed alone. -/
theorem exists_publishAll (f : Feed) (changes : List Change) :
    ∃ published kept, f.publishAll changes = { f with published, kept } := by
  induction changes generalizing f with
  | nil => exact ⟨f.published, f.kept, rfl⟩
  | cons c rest ih =>
    obtain ⟨published, kept, hrest⟩ := ih (f.publish c)
    refine ⟨published, kept, hrest.trans ?_⟩
    unfold publish
    split <;> rfl

theorem publishAll_of_closed (hclosed : f.closed = true) (changes : List Change) :
    f.publishAll changes = f := by
  induction changes with
  | nil => rfl
  | cons c rest ih =>
    have hsame : f.publish c = f := by rw [publish, if_pos hclosed]
    show (f.publish c).publishAll rest = f
    rw [hsame, ih]

/-- Publishes changes to a feed that may refuse them as long as it has no streams. -/
def hear (f : Feed) (refuses : Bool) (changes : List Change) : Feed :=
  if refuses && f.streams.isEmpty then f else f.publishAll changes

theorem exists_hear (f : Feed) (refuses : Bool) (changes : List Change) :
    ∃ published kept, f.hear refuses changes = { f with published, kept } := by
  unfold hear
  split
  · exact ⟨f.published, f.kept, rfl⟩
  · exact exists_publishAll f changes

theorem Carries.hear (h : f.Carries all) (refuses : Bool) (changes : List Change) :
    ∃ all, (f.hear refuses changes).Carries all := by
  unfold Feed.hear
  split
  · exact ⟨all, h⟩
  · cases hclosed : f.closed with
    | true => exact ⟨all, by rwa [publishAll_of_closed hclosed]⟩
    | false => exact ⟨all ++ changes, h.publishAll hclosed changes⟩

/-! ## Reading from different beginnings -/

/-- The feed as it were if only these changes had been published. -/
def since (f : Feed) (late : List Change) : Feed :=
  { f with published := late.length, kept := late.drop (late.length - f.width), streams := [] }

theorem carries_since (f : Feed) (late : List Change) : (f.since late).Carries late := ⟨rfl, rfl⟩

/-- A reading depends on the changes before the stream only; what was published earlier moves the
    position. -/
theorem Carries.read_eq (h : f.Carries (early ++ late)) {n : Nat} (hn : n ≤ late.length)
    (pattern : Pattern) :
    f.read ⟨pattern, early.length + n⟩
      = { (f.since late).read ⟨pattern, n⟩ with
          position := early.length + ((f.since late).read ⟨pattern, n⟩).position } := by
  have hpublished : f.published = early.length + late.length := by
    rw [h.published, List.length_append]
  have hlost : f.lost ⟨pattern, early.length + n⟩ = (f.since late).lost ⟨pattern, n⟩ := by
    show f.published - (early.length + n) - f.width = late.length - n - f.width
    omega
  have hunread : f.unread ⟨pattern, early.length + n⟩ = (f.since late).unread ⟨pattern, n⟩ := by
    have hle : early.length + n ≤ (early ++ late).length := by
      rw [List.length_append]
      omega
    rw [h.unread_eq hle, (carries_since f late).unread_eq hn, hlost]
    show (early ++ late).drop (early.length + n + _) = _
    rw [Nat.add_assoc, List.drop_length_add_append]
  unfold read
  rw [hlost, hunread]
  cases search pattern ((f.since late).unread ⟨pattern, n⟩) with
  | hit consumed c | keyless consumed => simp only [Nat.add_assoc]
  | miss => simp only [hpublished]; rfl

/-- No reading leads beyond what was published. -/
theorem Carries.position_read_le (h : f.Carries all) {s : Stream} (hs : s.position ≤ all.length) :
    (f.read s).position ≤ all.length := by
  have hears := hears_search s.pattern (if f.closed then .ended else .pending) (f.unread s)
  have hlength : (f.unread s).length = all.length - (s.position + f.lost s) := by
    rw [h.unread_eq hs, List.length_drop]
  have hlost : s.position + f.lost s ≤ all.length := by
    rw [lost, h.published]
    omega
  unfold read
  cases hsearch : search s.pattern (f.unread s) with
  | hit consumed c | keyless consumed =>
    rw [hsearch] at hears
    have hconsumed := hears.le_length
    show s.position + f.lost s + consumed ≤ all.length
    omega
  | miss => exact Nat.le_of_eq h.published

/-! ## How much is left to read -/

/-- How many changes a stream can still read. -/
def ahead (f : Feed) (name : String) : Nat :=
  ((f.stream? name).map fun s => (f.unread s).length).getD 0

theorem ahead_le_length (f : Feed) (name : String) : f.ahead name ≤ f.kept.length := by
  unfold ahead
  cases f.stream? name with
  | none => exact Nat.zero_le _
  | some s =>
    show (f.unread s).length ≤ _
    rw [unread, List.length_drop]
    exact Nat.sub_le _ _

/-- A poll that delivers a change leaves fewer of them to read. -/
theorem Carries.ahead_poll_lt (h : f.Carries all)
    (hle : ∀ s, f.stream? name = some s → s.position ≤ all.length) {c : Change}
    {entries : List LogEntry} (hpoll : f.poll name = (some (.ok (.change c)), entries, g)) :
    g.ahead name < f.ahead name := by
  cases hs : f.stream? name with
  | none => simp [Feed.poll, hs] at hpoll
  | some s =>
    obtain ⟨answer, k, hhears, heq⟩ := h.poll hs (hle s hs)
    rw [heq] at hpoll
    obtain ⟨hanswer, hmoved⟩ := Prod.mk.inj hpoll
    obtain ⟨-, rfl⟩ := Prod.mk.inj hmoved
    obtain rfl := Option.some.inj hanswer
    have hk := hhears.le_length
    rw [List.length_drop] at hk
    -- What is delivered was consumed, so at least one change was.
    have hpos : 0 < k := by
      generalize all.drop (s.position + f.lost s) = unread at hhears
      generalize hsilence : (if f.closed then Stream.Answer.ended else .pending) = silence at hhears
      cases hhears with
      | change _ _ _ _ => exact Nat.succ_pos _
      | silence _ => split at hsilence <;> simp at hsilence
    have hend : s.position + f.lost s + k ≤ all.length := by omega
    have hunread := h.unread_eq (s := { s with position := s.position + f.lost s + k }) hend
    have hahead : (f.move name (s.position + f.lost s + k)).ahead name
        = (f.unread { s with position := s.position + f.lost s + k }).length := by
      rw [ahead, stream?_move, hs, Option.map_some, if_pos rfl]
      rfl
    rw [hahead, hunread, ahead, hs, Option.map_some, Option.getD_some, h.unread_eq (hle s hs),
      List.length_drop, List.length_drop]
    show all.length - (s.position + f.lost s + k + _) < _
    omega

/-! ## Feeds that are alike -/

/-- Two places are equally far behind the end of `late` in feeds in which `m` and `n` other changes
    were published before, or both are empty. -/
inductive Abreast (m n : Nat) (late : List Change) : Option Stream → Option Stream → Prop where
  | absent : Abreast m n late none none
  | present (pattern : Pattern) {read : Nat} (hread : read ≤ late.length) :
      Abreast m n late (some ⟨pattern, m + read⟩) (some ⟨pattern, n + read⟩)

/-- In the one feed `early` was published and in the other one `early'`, and then `late` in both.
    The streams of the heeded names are in both feeds, and none of them has anything of `early` or
    `early'` before it. -/
structure Alike (heeded : String → Bool) (f g : Feed) (early early' late : List Change) : Prop where
  left : f.Carries (early ++ late)
  right : g.Carries (early' ++ late)
  width : f.width = g.width
  closed : f.closed = g.closed
  abreast : ∀ other, heeded other = true →
    Abreast early.length early'.length late (f.stream? other) (g.stream? other)

theorem Abreast.symm {m n : Nat} {s t : Option Stream} (h : Abreast m n late s t) :
    Abreast n m late t s := by
  cases h with
  | absent => exact .absent
  | present pattern hread => exact .present pattern hread

theorem Abreast.position_le {m n : Nat} {s : Stream} {t : Option Stream}
    (h : Abreast m n late (some s) t) : s.position ≤ m + late.length := by
  cases h with
  | present pattern hread => exact Nat.add_le_add_left hread m

theorem Abreast.isSome {m n : Nat} {s t : Option Stream} (h : Abreast m n late s t) :
    s.isSome = t.isSome := by
  cases h with
  | absent | present _ _ => rfl

theorem Alike.symm (h : Alike heeded f g early early' late) : Alike heeded g f early' early late where
  left := h.right
  right := h.left
  width := h.width.symm
  closed := h.closed.symm
  abreast := fun other hother => (h.abreast other hother).symm

/-- A feed is like itself. -/
theorem Carries.alike (h : f.Carries all) (hstreams : f.streams = []) (heeded : String → Bool) :
    Alike heeded f f [] [] all where
  left := h
  right := h
  width := rfl
  closed := rfl
  abreast := fun other _ => by
    rw [stream?, hstreams]
    exact .absent

theorem Alike.position_le (h : Alike heeded f g early early' late) (hother : heeded other = true)
    {s : Stream} (hs : f.stream? other = some s) : s.position ≤ (early ++ late).length := by
  rw [List.length_append]
  exact (hs ▸ h.abreast other hother).position_le

/-! ### Publishing -/

theorem Abreast.append {m n : Nat} {s t : Option Stream} (h : Abreast m n late s t)
    (changes : List Change) : Abreast m n (late ++ changes) s t := by
  cases h with
  | absent => exact .absent
  | present pattern hread =>
    refine .present pattern ?_
    rw [List.length_append]
    exact Nat.le_trans hread (Nat.le_add_right _ _)

theorem Alike.publishAll (h : Alike heeded f g early early' late) (hopen : f.closed = false)
    (changes : List Change) :
    Alike heeded (f.publishAll changes) (g.publishAll changes) early early' (late ++ changes) := by
  obtain ⟨hclosed, hwidth, hstreams⟩ := publishAll_of_open hopen changes
  have hopen' : g.closed = false := h.closed ▸ hopen
  obtain ⟨hclosed', hwidth', hstreams'⟩ := publishAll_of_open hopen' changes
  constructor
  case left =>
    rw [← List.append_assoc]
    exact h.left.publishAll hopen changes
  case right =>
    rw [← List.append_assoc]
    exact h.right.publishAll hopen' changes
  case width => rw [hwidth, hwidth', h.width]
  case closed => rw [hclosed, hclosed']
  case abreast =>
    intro other hother
    rw [stream?, stream?, hstreams, hstreams']
    exact (h.abreast other hother).append changes

/-- If nobody else listens, anything may have been published. -/
theorem alike_of_deaf {all' : List Change} (hleft : f.Carries all) (hright : g.Carries all')
    (hwidth : f.width = g.width) (hclosed : f.closed = g.closed)
    (hdeaf : ∀ other, heeded other = true → f.stream? other = none ∧ g.stream? other = none) :
    Alike heeded f g all all' [] where
  left := by rwa [List.append_nil]
  right := by rwa [List.append_nil]
  width := hwidth
  closed := hclosed
  abreast := fun other hother => by
    obtain ⟨hf, hg⟩ := hdeaf other hother
    rw [hf, hg]
    exact .absent

theorem Alike.deaf (h : Alike heeded f g early early' late) (hstreams : f.streams = [])
    (hother : heeded other = true) : f.stream? other = none ∧ g.stream? other = none := by
  have habreast := h.abreast other hother
  have hnone : f.stream? other = none := by rw [stream?, hstreams]; rfl
  rw [hnone] at habreast ⊢
  generalize g.stream? other = t at habreast
  cases habreast with
  | absent => exact ⟨rfl, rfl⟩

/-- Feeds stay alike when the same is published to both, also if one of them takes it and the other
    one does not because nobody listens. -/
theorem Alike.hear (h : Alike heeded f g early early' late) (refuses refuses' : Bool)
    (changes : List Change) :
    ∃ early early' late,
      Alike heeded (f.hear refuses changes) (g.hear refuses' changes) early early' late := by
  by_cases hlistened : f.streams.isEmpty = false ∧ g.streams.isEmpty = false
  · have hf : f.hear refuses changes = f.publishAll changes := by simp [Feed.hear, hlistened]
    have hg : g.hear refuses' changes = g.publishAll changes := by simp [Feed.hear, hlistened]
    rw [hf, hg]
    cases hclosed : f.closed with
    | true =>
      rw [publishAll_of_closed hclosed, publishAll_of_closed (h.closed ▸ hclosed)]
      exact ⟨_, _, _, h⟩
    | false => exact ⟨_, _, _, h.publishAll hclosed changes⟩
  · have hdeaf : ∀ other, heeded other = true →
        f.stream? other = none ∧ g.stream? other = none := by
      intro other hother
      cases hempty : f.streams.isEmpty with
      | true => exact h.deaf (List.isEmpty_iff.1 hempty) hother
      | false =>
        have hempty' : g.streams.isEmpty = true := by simpa [hempty] using hlistened
        exact (h.symm.deaf (List.isEmpty_iff.1 hempty') hother).symm
    obtain ⟨all, hleft⟩ := h.left.hear refuses changes
    obtain ⟨all', hright⟩ := h.right.hear refuses' changes
    obtain ⟨_, _, hf⟩ := exists_hear f refuses changes
    obtain ⟨_, _, hg⟩ := exists_hear g refuses' changes
    rw [hf] at hleft ⊢
    rw [hg] at hright ⊢
    exact ⟨_, _, _, alike_of_deaf hleft hright h.width h.closed hdeaf⟩

/-- Both feeds may be closed. -/
theorem Alike.close (h : Alike heeded f g early early' late) :
    Alike heeded f.close g.close early early' late :=
  ⟨⟨h.left.published, h.left.kept⟩, ⟨h.right.published, h.right.kept⟩, h.width, rfl, h.abreast⟩

/-! ### Streams -/

/-- Streams may be started, ended and moved, as long as those that are heeded stay abreast. -/
theorem Alike.of_streams (h : Alike heeded f g early early' late)
    {streams streams' : List (String × Stream)}
    (habreast : ∀ other, heeded other = true → Abreast early.length early'.length late
      (stream? { f with streams } other) (stream? { g with streams := streams' } other)) :
    Alike heeded { f with streams } { g with streams := streams' } early early' late where
  left := ⟨h.left.published, h.left.kept⟩
  right := ⟨h.right.published, h.right.kept⟩
  width := h.width
  closed := h.closed
  abreast := habreast

theorem ne_of_heeded (hother : heeded other = true) (hname : heeded name = false) :
    other ≠ name := by
  rintro rfl
  rw [hother] at hname
  simp at hname

/-- What is done to a stream that is not heeded may be done in one feed only. -/
theorem Alike.of_left (h : Alike heeded f g early early' late) (hname : heeded name = false)
    {streams : List (String × Stream)}
    (hsame : ∀ other, other ≠ name → stream? { f with streams } other = f.stream? other) :
    Alike heeded { f with streams } g early early' late :=
  h.of_streams fun other hother => by
    rw [hsame other (ne_of_heeded hother hname)]
    exact h.abreast other hother

theorem Alike.subscribe_left (h : Alike heeded f g early early' late)
    (hname : heeded name = false) (pattern : Pattern) :
    Alike heeded (f.subscribe name pattern) g early early' late :=
  h.of_left hname fun _ hne => stream?_subscribe_of_ne hne.symm f pattern

theorem Alike.unsubscribe_left (h : Alike heeded f g early early' late)
    (hname : heeded name = false) : Alike heeded (f.unsubscribe name) g early early' late :=
  h.of_left hname fun _ hne => stream?_unsubscribe hne.symm f

theorem Alike.move_left (h : Alike heeded f g early early' late) (hname : heeded name = false)
    (position : Nat) : Alike heeded (f.move name position) g early early' late := by
  refine h.of_left hname fun other hne => ?_
  show (f.move name position).stream? other = f.stream? other
  rw [stream?_move]
  simp [hne]

theorem Alike.poll_left (h : Alike heeded f g early early' late) (hname : heeded name = false) :
    Alike heeded (f.poll name).2.2 g early early' late :=
  poll_preserves (P := fun f => Alike heeded f g early early' late)
    (fun _ position h => h.move_left hname position) h

theorem Alike.drain_left (h : Alike heeded f g early early' late) (hname : heeded name = false) :
    Alike heeded (f.drain name).2.2 g early early' late :=
  drainFor_preserves (P := fun f => Alike heeded f g early early' late)
    (fun _ position h => h.move_left hname position) h _

theorem stream?_unsubscribe_self (f : Feed) (name : String) :
    (f.unsubscribe name).stream? name = none := by
  simp [stream?, unsubscribe]

theorem Alike.unsubscribe (h : Alike heeded f g early early' late) (name : String) :
    Alike heeded (f.unsubscribe name) (g.unsubscribe name) early early' late := by
  refine h.of_streams fun other hother => ?_
  show Abreast _ _ _ ((f.unsubscribe name).stream? other) ((g.unsubscribe name).stream? other)
  by_cases hname : name = other
  · subst hname
    rw [stream?_unsubscribe_self, stream?_unsubscribe_self]
    exact .absent
  · rw [stream?_unsubscribe hname, stream?_unsubscribe hname]
    exact h.abreast other hother

/-- A new stream has the same before it in both feeds, which is nothing. -/
theorem Alike.subscribe (h : Alike heeded f g early early' late) (name : String)
    (pattern : Pattern) :
    Alike heeded (f.subscribe name pattern) (g.subscribe name pattern) early early' late := by
  refine h.of_streams fun other hother => ?_
  show Abreast _ _ _ ((f.subscribe name pattern).stream? other)
    ((g.subscribe name pattern).stream? other)
  by_cases hname : name = other
  · subst hname
    rw [stream?_subscribe, stream?_subscribe, h.left.published, h.right.published,
      List.length_append, List.length_append]
    exact .present pattern (Nat.le_refl _)
  · rw [stream?_subscribe_of_ne hname, stream?_subscribe_of_ne hname]
    exact h.abreast other hother

/-- A stream may be moved over changes that were published in both feeds. -/
theorem Alike.move (h : Alike heeded f g early early' late) (name : String) {read : Nat}
    (hread : read ≤ late.length) :
    Alike heeded (f.move name (early.length + read)) (g.move name (early'.length + read))
      early early' late := by
  refine h.of_streams fun other hother => ?_
  show Abreast _ _ _ ((f.move name _).stream? other) ((g.move name _).stream? other)
  have habreast := h.abreast other hother
  rw [stream?_move, stream?_move]
  by_cases hname : other = name
  · simp only [if_pos hname]
    generalize f.stream? other = s at habreast
    generalize g.stream? other = t at habreast
    cases habreast with
    | absent => exact .absent
    | present pattern _ => exact .present pattern hread
  · simpa [hname] using habreast

/-- Streams that are in neither feed may be heeded or not. -/
theorem Alike.of_gone (h : Alike heeded f g early early' late) {heeded' : String → Bool}
    (hgone : ∀ other, heeded' other = true → heeded other = false →
      f.stream? other = none ∧ g.stream? other = none) : Alike heeded' f g early early' late where
  left := h.left
  right := h.right
  width := h.width
  closed := h.closed
  abreast := fun other hother => by
    cases hheeded : heeded other with
    | true => exact h.abreast other hheeded
    | false =>
      obtain ⟨hf, hg⟩ := hgone other hother hheeded
      rw [hf, hg]
      exact .absent

/-! ### Reading -/

/-- A poll of a heeded stream tells the same. -/
theorem Alike.poll (h : Alike heeded f g early early' late) (hname : heeded name = true) :
    (f.poll name).1 = (g.poll name).1 ∧ (f.poll name).2.1 = (g.poll name).2.1
      ∧ Alike heeded (f.poll name).2.2 (g.poll name).2.2 early early' late := by
  have habreast := h.abreast name hname
  unfold Feed.poll
  generalize f.stream? name = s at habreast
  generalize g.stream? name = t at habreast
  cases habreast with
  | absent => exact ⟨rfl, rfl, h⟩
  | present pattern hread =>
    have hsince : f.since late = g.since late := by simp only [since, h.width, h.closed]
    simp only [h.left.read_eq hread, h.right.read_eq hread, hsince, true_and]
    have hle := (carries_since g late).position_read_le (s := ⟨pattern, _⟩) hread
    exact h.move name hle

/-- A drain of a heeded stream tells the same, however many polls are allowed in either feed. -/
theorem Alike.drainFor {fuel fuel' : Nat} (h : Alike heeded f g early early' late)
    (hname : heeded name = true) (hfuel : f.ahead name < fuel) (hfuel' : g.ahead name < fuel') :
    (f.drainFor fuel name).1 = (g.drainFor fuel' name).1
      ∧ (f.drainFor fuel name).2.1 = (g.drainFor fuel' name).2.1
      ∧ Alike heeded (f.drainFor fuel name).2.2 (g.drainFor fuel' name).2.2 early early' late := by
  induction fuel generalizing f g fuel' with
  | zero => exact absurd hfuel (Nat.not_lt_zero _)
  | succ fuel ih =>
    obtain _ | fuel' := fuel'
    · exact absurd hfuel' (Nat.not_lt_zero _)
    have hless := fun {c entries f'} =>
      @Carries.ahead_poll_lt f f' _ name h.left (fun _ => h.position_le hname) c entries
    have hless' := fun {c entries g'} =>
      @Carries.ahead_poll_lt g g' _ name h.right (fun _ => h.symm.position_le hname) c entries
    obtain ⟨hanswer, hentries, hnext⟩ := h.poll hname
    rw [Feed.drainFor, Feed.drainFor]
    generalize f.poll name = polled at hanswer hentries hnext hless ⊢
    generalize g.poll name = polled' at hanswer hentries hnext hless' ⊢
    obtain ⟨answer, entries, f'⟩ := polled
    obtain ⟨answer', entries', g'⟩ := polled'
    obtain rfl : answer = answer' := hanswer
    obtain rfl : entries = entries' := hentries
    obtain _ | crash | answer := answer
    · exact ⟨rfl, rfl, hnext⟩
    · exact ⟨rfl, rfl, hnext⟩
    · cases answer with
      | change c =>
        -- This poll has delivered a change, so fewer of them are left in both feeds.
        have hleft : f'.ahead name < f.ahead name := hless rfl
        have hright : g'.ahead name < g.ahead name := hless' rfl
        obtain ⟨hanswers, hmore, hrest⟩ := ih hnext
          (Nat.lt_of_lt_of_le hleft (Nat.le_of_lt_succ hfuel))
          (Nat.lt_of_lt_of_le hright (Nat.le_of_lt_succ hfuel'))
        refine ⟨?_, ?_, hrest⟩
        · simp only [hanswers]
        · simp only [hmore]
      | pending | ended => exact ⟨rfl, rfl, hnext⟩

theorem Alike.drain (h : Alike heeded f g early early' late) (hname : heeded name = true) :
    (f.drain name).1 = (g.drain name).1 ∧ (f.drain name).2.1 = (g.drain name).2.1
      ∧ Alike heeded (f.drain name).2.2 (g.drain name).2.2 early early' late :=
  h.drainFor hname (Nat.lt_succ_of_le (ahead_le_length f name))
    (Nat.lt_succ_of_le (ahead_le_length g name))

end KeyRelay.Feed
