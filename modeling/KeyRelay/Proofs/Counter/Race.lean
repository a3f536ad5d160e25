import Mathlib.Data.List.Basic
import KeyRelay.Counter.Race

set_option autoImplicit false

/-! # A raced counter is a counter

However callers interleave, and however often an exchange fails, the exchanges that succeed hand
out what the same number of undisturbed calls of `Counter.next` would, one after the other
(`Race.Sound.drawn`). An exchange only succeeds at the value the word has at that moment, so what a
caller has seen may be out of date and does no harm. From this it follows that no revision is handed
out twice and none is left out, and that a call which begins after another one has ended gets a
later revision (`Race.linearizable_run`). -/

namespace KeyRelay

/-! ## Calls one after the other -/

/-- What so many calls of `next` hand out, one after the other. -/
def Counter.draw : Nat → Counter → List Revision
  | 0, _ => []
  | calls + 1, c => c.next.1 :: draw calls c.next.2

namespace Counter

theorem draw_succ (calls : Nat) (c : Counter) :
    draw (calls + 1) c = draw calls c ++ [c.current + calls + 1] := by
  induction calls generalizing c with
  | zero => simp [draw, next]
  | succ calls ih =>
    have hlast : c.current + 1 + (calls : Int) + 1 = c.current + (calls + 1 : Nat) + 1 := by lia
    rw [draw, ih, draw, List.cons_append]
    simp only [next, hlast]

theorem mem_draw_iff (calls : Nat) (c : Counter) (v : Revision) :
    v ∈ draw calls c ↔ c.current < v ∧ v ≤ c.current + calls := by
  induction calls with
  | zero =>
    simp only [draw, List.not_mem_nil, false_iff]
    lia
  | succ calls ih =>
    rw [draw_succ, List.mem_append, ih, List.mem_singleton]
    lia

theorem pairwise_draw (calls : Nat) (c : Counter) : (draw calls c).Pairwise (· < ·) := by
  induction calls with
  | zero => exact .nil
  | succ calls ih =>
    rw [draw_succ]
    refine List.pairwise_append.2 ⟨ih, List.pairwise_singleton _ _, fun v hv w hw => ?_⟩
    obtain rfl := List.mem_singleton.1 hw
    have hle : v ≤ c.current + calls := ((mem_draw_iff calls c v).1 hv).2
    lia

end Counter

namespace Race

/-! ## What a race shows -/

/-- What can be told of the steps of a race. A failed exchange leaves no mark. -/
inductive Mark where
  /-- A call has begun. -/
  | began (caller : Nat)
  /-- A call has won a revision. -/
  | won (caller : Nat) (revision : Revision)
  /-- A call has ended and returned a revision. -/
  | ended (caller : Nat) (revision : Revision)
  deriving Repr, DecidableEq

namespace Mark

/-- The caller whose call it is. -/
def caller : Mark → Nat
  | .began i | .won i _ | .ended i _ => i

/-- The revision that was won. -/
def won? : Mark → Option Revision
  | .won _ revision => some revision
  | _ => none

/-- The mark shows that a call of this caller has got this revision. -/
def Gives (i : Nat) (revision : Revision) (m : Mark) : Prop :=
  m = .won i revision ∨ m = .ended i revision

def isBegan : Mark → Bool
  | .began _ => true
  | _ => false

end Mark

/-- The mark that a move leaves. -/
def mark? (r : Race) : Move → Option Mark
  | .load i =>
      match r.callers[i]? with
      | some ⟨.idle, _⟩ => some (.began i)
      | _ => none
  | .exchange i spurious =>
      match r.callers[i]? with
      | some ⟨.seen value, _⟩ => if !spurious ∧ r.word = value then some (.won i (value + 1)) else none
      | _ => none
  | .finish i =>
      match r.callers[i]? with
      | some ⟨.won revision, _⟩ => some (.ended i revision)
      | _ => none

/-- A race and the marks of its moves so far, oldest first. -/
structure Annals where
  race : Race
  marks : List Mark := []
  deriving Repr, DecidableEq

namespace Annals

/-- Carries out a move. -/
def step (a : Annals) (m : Move) : Annals := ⟨a.race.step m, a.marks ++ (a.race.mark? m).toList⟩

/-- Carries out moves one after the other. -/
def follow (a : Annals) (moves : List Move) : Annals := moves.foldl step a

/-- What so many callers come to from the start. -/
def run (callers : Nat) (moves : List Move) : Annals := follow { race := start callers } moves

/-- The revisions in the order in which they were won. -/
def wins (a : Annals) : List Revision := a.marks.filterMap (·.won?)

/-- How many calls have begun. -/
def calls (a : Annals) : Nat := a.marks.countP (·.isBegan)

theorem race_follow (a : Annals) (moves : List Move) :
    (a.follow moves).race = a.race.run moves := by
  induction moves generalizing a with
  | nil => rfl
  | cons m rest ih => exact ih (a.step m)

end Annals

/-- The revisions that a caller was given, the newest first: the one it has won and not yet
    returned, and those it has returned. -/
def Caller.held (c : Caller) : List Revision := c.pending ++ c.returned

/-- The revisions that were given to anybody. -/
def held (r : Race) : List Revision := r.callers.flatMap (·.held)

/-- The exchange of the call that is under way has not succeeded yet. -/
def Caller.isTrying (c : Caller) : Bool :=
  match c.stage with
  | .seen _ => true
  | _ => false

/-- The marks of a caller, who has its number: each call has begun, won a revision and returned it,
    and the last one may be under way. -/
def Caller.story (i : Nat) (c : Caller) : List Mark :=
  (c.returned.reverse.flatMap fun v => [.began i, .won i v, .ended i v])
    ++ match c.stage with
      | .idle => []
      | .seen _ => [.began i]
      | .won v => [.began i, .won i v]

/-! ## What a move does -/

/-- What a move makes of a race, and the marks it leaves. -/
inductive Stepping (r : Race) : Race → List Mark → Prop
  /-- It does not fit the stage of its caller. -/
  | aside : Stepping r r []
  | begin {i : Nat} {returned : List Revision} (hc : r.callers[i]? = some ⟨.idle, returned⟩) :
      Stepping r { r with callers := r.callers.set i ⟨.seen r.word, returned⟩ } [.began i]
  /-- The exchange fails, and shows the word. -/
  | fail {i : Nat} {value : Revision} {returned : List Revision}
      (hc : r.callers[i]? = some ⟨.seen value, returned⟩) :
      Stepping r { r with callers := r.callers.set i ⟨.seen r.word, returned⟩ } []
  /-- The exchange succeeds, and what was seen is what the word holds. -/
  | win {i : Nat} {returned : List Revision} (hc : r.callers[i]? = some ⟨.seen r.word, returned⟩) :
      Stepping r { word := r.word + 1, callers := r.callers.set i ⟨.won (r.word + 1), returned⟩ }
        [.won i (r.word + 1)]
  | finish {i : Nat} {revision : Revision} {returned : List Revision}
      (hc : r.callers[i]? = some ⟨.won revision, returned⟩) :
      Stepping r { r with callers := r.callers.set i ⟨.idle, revision :: returned⟩ }
        [.ended i revision]

theorem stepping_step (r : Race) (m : Move) : Stepping r (r.step m) (r.mark? m).toList := by
  cases m with
  | load i =>
    simp only [step, mark?]
    rcases hc : r.callers[i]? with _ | ⟨_ | _ | _, returned⟩
    case some.idle => exact .begin hc
    all_goals exact .aside
  | exchange i spurious =>
    simp only [step, mark?]
    rcases hc : r.callers[i]? with _ | ⟨_ | value | _, returned⟩
    case some.seen =>
      simp only
      by_cases hwins : !spurious ∧ r.word = value
      · rw [if_pos hwins, if_pos hwins]
        obtain rfl := hwins.2
        exact .win hc
      · rw [if_neg hwins, if_neg hwins]
        exact .fail hc
    all_goals exact .aside
  | finish i =>
    simp only [step, mark?]
    rcases hc : r.callers[i]? with _ | ⟨_ | _ | revision, returned⟩
    case some.won => exact .finish hc
    all_goals exact .aside

/-! ## Replacing a caller -/

section Replacing

variable {callers : List Caller} {i : Nat} {c d : Caller}

/-- A caller stands between others, and replacing it leaves these where they are. -/
theorem exists_callers_eq (hc : callers[i]? = some c) :
    ∃ before after, callers = before ++ c :: after
      ∧ ∀ d, callers.set i d = before ++ d :: after := by
  obtain ⟨hi, rfl⟩ := List.getElem?_eq_some_iff.1 hc
  refine ⟨callers.take i, callers.drop (i + 1), ?_, fun d => ?_⟩
  · rw [List.getElem_cons_drop, List.take_append_drop]
  · rw [List.set_eq_take_append_cons_drop, if_pos hi]

theorem held_set (hc : callers[i]? = some c) (hheld : d.held = c.held) :
    (callers.set i d).flatMap (·.held) = callers.flatMap (·.held) := by
  obtain ⟨before, after, hcallers, hset⟩ := exists_callers_eq hc
  rw [hset, hcallers, List.flatMap_append, List.flatMap_cons, hheld, List.flatMap_append,
    List.flatMap_cons]

theorem held_set_perm {v : Revision} (hc : callers[i]? = some c) (hheld : d.held = v :: c.held) :
    ((callers.set i d).flatMap (·.held)).Perm (v :: callers.flatMap (·.held)) := by
  obtain ⟨before, after, hcallers, hset⟩ := exists_callers_eq hc
  rw [hset, hcallers, List.flatMap_append, List.flatMap_cons, hheld, List.flatMap_append,
    List.flatMap_cons, List.cons_append]
  exact List.perm_middle

theorem countP_set (hc : callers[i]? = some c) :
    (callers.set i d).countP (·.isTrying) + c.isTrying.toNat
      = callers.countP (·.isTrying) + d.isTrying.toNat := by
  obtain ⟨before, after, hcallers, hset⟩ := exists_callers_eq hc
  rw [hset, hcallers, List.countP_append, List.countP_cons, List.countP_append, List.countP_cons]
  cases c.isTrying <;> cases d.isTrying <;> simp <;> omega

theorem of_getElem?_set {k : Nat} {e : Caller} (he : (callers.set i d)[k]? = some e) :
    k = i ∧ e = d ∨ callers[k]? = some e := by
  by_cases hk : i = k
  · subst hk
    rw [List.getElem?_set] at he
    simp only [ite_true] at he
    split at he
    · exact Or.inl ⟨rfl, (Option.some.inj he).symm⟩
    · simp at he
  · rw [List.getElem?_set_ne hk] at he
    exact Or.inr he

end Replacing

/-! ## What holds of every race -/

namespace Annals

/-- What callers were given is what was won, and that is what calls are handed out that come one
    after the other. -/
structure Sound (a : Annals) : Prop where
  drawn : ∃ calls : Nat, a.race.word = calls ∧ a.wins = Counter.draw calls {}
  held : a.race.held.Perm a.wins
  /-- A caller was given later revisions later. -/
  own : ∀ c ∈ a.race.callers, c.held.Pairwise (· > ·)
  seen_le : ∀ {value returned}, ⟨.seen value, returned⟩ ∈ a.race.callers → value ≤ a.race.word
  calls : a.race.word + a.race.callers.countP (·.isTrying) ≤ a.calls
  story : ∀ {i c}, a.race.callers[i]? = some c → a.marks.filter (·.caller = i) = c.story i

variable {a : Annals}

theorem Sound.mem_held_iff (h : a.Sound) (v : Revision) :
    v ∈ a.race.held ↔ 1 ≤ v ∧ v ≤ a.race.word := by
  obtain ⟨calls, hword, hwins⟩ := h.drawn
  rw [h.held.mem_iff, hwins, Counter.mem_draw_iff, hword]
  show (0 : Int) < v ∧ v ≤ 0 + calls ↔ _
  lia

theorem Sound.mem_held_of_mem (h : a.Sound) {c : Caller} (hc : c ∈ a.race.callers) {v : Revision}
    (hv : v ∈ c.held) : v ≤ a.race.word :=
  ((h.mem_held_iff v).1 (List.mem_flatMap.2 ⟨c, hc, hv⟩)).2

theorem sound_start (callers : Nat) : Sound { race := start callers } where
  drawn := ⟨0, rfl, rfl⟩
  held := by
    have hnone : (start callers).held = [] := by
      rw [Race.held, List.flatMap_eq_nil_iff]
      intro c hc
      obtain rfl := List.eq_of_mem_replicate hc
      rfl
    rw [hnone]
    exact .refl _
  own := by
    intro c hc
    obtain rfl := List.eq_of_mem_replicate hc
    exact .nil
  seen_le := by
    intro value returned hc
    have hfresh := List.eq_of_mem_replicate hc
    simp at hfresh
  calls := by
    have hnone : (start callers).callers.countP (·.isTrying) = 0 := by
      rw [List.countP_eq_zero]
      intro c hc
      obtain rfl := List.eq_of_mem_replicate hc
      simp [Caller.isTrying]
    rw [hnone]
    exact Int.le_refl 0
  story := by
    intro i c hc
    obtain rfl := List.eq_of_mem_replicate (List.mem_of_getElem? hc)
    rfl

/-- The stories of the others go on as they were. -/
theorem Sound.story_set (h : a.Sound) {i : Nat} {c d : Caller} (hc : a.race.callers[i]? = some c)
    {more : List Mark} (hmore : ∀ m ∈ more, m.caller = i) (hd : d.story i = c.story i ++ more)
    {k : Nat} {e : Caller} (he : (a.race.callers.set i d)[k]? = some e) :
    (a.marks ++ more).filter (·.caller = k) = e.story k := by
  rw [List.filter_append]
  by_cases hk : i = k
  · subst hk
    obtain ⟨hi, -⟩ := List.getElem?_eq_some_iff.1 hc
    rw [List.getElem?_set_self hi] at he
    obtain rfl := Option.some.inj he
    rw [hd, h.story hc, List.filter_eq_self.2 fun m hm => by simpa using hmore m hm]
  · rw [List.getElem?_set_ne hk] at he
    have hnone : more.filter (·.caller = k) = [] := by
      rw [List.filter_eq_nil_iff]
      intro m hm
      rw [hmore m hm]
      simpa using hk
    rw [hnone, List.append_nil, h.story he]

/-- A caller begins a call, fails to win, or returns what it has won. -/
theorem Sound.replace (h : a.Sound) {i : Nat} {c d : Caller} (hc : a.race.callers[i]? = some c)
    {more : List Mark} (hmore : ∀ m ∈ more, m.caller = i) (hd : d.story i = c.story i ++ more)
    (hheld : d.held = c.held) (hwins : more.filterMap (·.won?) = [])
    (hcalls : d.isTrying.toNat ≤ c.isTrying.toNat + more.countP (·.isBegan))
    (hseen : ∀ {value returned}, d = ⟨.seen value, returned⟩ → value ≤ a.race.word) :
    Sound ⟨{ a.race with callers := a.race.callers.set i d }, a.marks ++ more⟩ where
  drawn := by
    obtain ⟨calls, hword, hdrawn⟩ := h.drawn
    refine ⟨calls, hword, ?_⟩
    rw [wins, List.filterMap_append, hwins, List.append_nil]
    exact hdrawn
  held := by
    rw [wins, List.filterMap_append, hwins, List.append_nil, Race.held, held_set hc hheld]
    exact h.held
  own := by
    intro e he
    rcases List.mem_or_eq_of_mem_set he with he | rfl
    · exact h.own e he
    · rw [hheld]
      exact h.own c (List.mem_of_getElem? hc)
  seen_le := by
    intro value returned he
    rcases List.mem_or_eq_of_mem_set he with he | heq
    · exact h.seen_le he
    · exact hseen heq.symm
  calls := by
    have hcount := countP_set (d := d) hc
    have hbound := h.calls
    rw [Annals.calls, List.countP_append]
    simp only [Annals.calls] at hbound
    lia
  story := h.story_set hc hmore hd

/-- A caller whose exchange succeeds is handed out what the next call would be. -/
theorem Sound.win (h : a.Sound) {i : Nat} {returned : List Revision}
    (hc : a.race.callers[i]? = some ⟨.seen a.race.word, returned⟩) :
    Sound ⟨{ word := a.race.word + 1,
             callers := a.race.callers.set i ⟨.won (a.race.word + 1), returned⟩ },
           a.marks ++ [.won i (a.race.word + 1)]⟩ where
  drawn := by
    obtain ⟨calls, hword, hdrawn⟩ := h.drawn
    have hnext : a.race.word + 1 = (calls + 1 : Nat) := by lia
    refine ⟨calls + 1, hnext, ?_⟩
    rw [wins, List.filterMap_append, Counter.draw_succ]
    refine congrArg₂ _ hdrawn ?_
    show [a.race.word + 1] = [(0 : Int) + calls + 1]
    rw [hword, Int.zero_add]
  held := by
    rw [wins, List.filterMap_append, Race.held]
    refine (held_set_perm (v := a.race.word + 1) hc rfl).trans ?_
    exact (h.held.cons _).trans (List.perm_append_singleton _ _).symm
  own := by
    intro e he
    rcases List.mem_or_eq_of_mem_set he with he | rfl
    · exact h.own e he
    · -- What the caller has returned before is not above the word.
      have hin := List.mem_of_getElem? hc
      refine List.pairwise_cons.2 ⟨fun v hv => ?_, h.own _ hin⟩
      exact Int.lt_add_one_of_le (h.mem_held_of_mem hin hv)
  seen_le := by
    intro value returned he
    rcases List.mem_or_eq_of_mem_set he with he | heq
    · exact Int.le_trans (h.seen_le he) (Int.le_of_lt (Int.lt_succ _))
    · simp at heq
  calls := by
    have hcount := countP_set (d := ⟨.won (a.race.word + 1), returned⟩) hc
    have hbound := h.calls
    rw [Annals.calls, List.countP_append]
    simp only [Annals.calls, Caller.isTrying, Bool.toNat_true, Bool.toNat_false] at hbound hcount ⊢
    lia
  story := h.story_set hc (by simp [Mark.caller]) (by simp [Caller.story])

theorem Sound.step (h : a.Sound) (m : Move) : (a.step m).Sound := by
  have hstep := stepping_step a.race m
  rw [Annals.step]
  generalize a.race.step m = r at hstep
  generalize (a.race.mark? m).toList = more at hstep
  cases hstep with
  | aside => simpa using h
  | begin hc =>
    refine h.replace hc (by simp [Mark.caller]) (by simp [Caller.story]) rfl rfl ?_ ?_
    · simp [Caller.isTrying, Mark.isBegan]
    · intro value returned heq
      obtain ⟨hvalue, -⟩ := Caller.mk.inj heq
      exact Int.le_of_eq (Stage.seen.inj hvalue).symm
  | fail hc =>
    refine h.replace hc (by simp) (by simp [Caller.story]) rfl rfl ?_ ?_
    · simp [Caller.isTrying]
    · intro value returned heq
      obtain ⟨hvalue, -⟩ := Caller.mk.inj heq
      exact Int.le_of_eq (Stage.seen.inj hvalue).symm
  | win hc => exact h.win hc
  | finish hc =>
    refine h.replace hc (by simp [Mark.caller]) (by simp [Caller.story]) rfl rfl ?_ ?_
    · simp [Caller.isTrying]
    · simp

/-! ## Calls that come after others -/

/-- What a call is given is later than what was returned before it began. -/
structure Timely (a : Annals) : Prop where
  returned_le : ∀ {j v}, .ended j v ∈ a.marks → v ≤ a.race.word
  /-- The call is under way, and has won its revision. -/
  pending : ∀ {j v i w returned}, [.ended j v, .began i].Sublist a.marks →
    a.race.callers[i]? = some ⟨.won w, returned⟩ → v < w
  given : ∀ {j v i w m}, m.Gives i w → [.ended j v, .began i, m].Sublist a.marks → v < w

/-- Marks in this order, the last of which is new, or none of which is. -/
theorem sublist_snoc (early : List Mark) {marks : List Mark} {last m : Mark}
    (h : (early ++ [last]).Sublist (marks ++ [m])) :
    (early ++ [last]).Sublist marks ∨ early.Sublist marks ∧ last = m := by
  have hreverse := List.reverse_sublist.2 h
  rw [List.reverse_append, List.reverse_append] at hreverse
  cases hreverse with
  | cons _ hrest => exact Or.inl (List.reverse_sublist.1 (by simpa using hrest))
  | cons_cons _ hrest => exact Or.inr ⟨List.reverse_sublist.1 hrest, rfl⟩

theorem timely_start (callers : Nat) : Timely { race := start callers } where
  returned_le := by simp
  pending := by
    intro j v i w returned hmarks
    exact absurd (List.sublist_nil.1 hmarks) (by simp)
  given := by
    intro j v i w m _ hmarks
    exact absurd (List.sublist_nil.1 hmarks) (by simp)

/-- The caller begins a call or fails to win: it is given nothing. -/
theorem Timely.idle (h : a.Timely) {i : Nat} {d : Caller} {more : List Mark}
    (hd : ∀ w returned, d ≠ ⟨.won w, returned⟩) (hmore : more = [] ∨ more = [.began i]) :
    Timely ⟨{ a.race with callers := a.race.callers.set i d }, a.marks ++ more⟩ where
  returned_le := by
    intro j v hmem
    rcases List.mem_append.1 hmem with hmem | hmem
    · exact h.returned_le hmem
    · rcases hmore with rfl | rfl <;> simp at hmem
  pending := by
    intro j v k w returned hmarks hk
    rcases of_getElem?_set hk with ⟨-, heq⟩ | hk'
    · exact absurd heq.symm (hd w returned)
    rcases hmore with rfl | rfl
    · exact h.pending (by simpa using hmarks) hk'
    · rcases sublist_snoc [.ended j v] hmarks with hmarks | ⟨-, hlast⟩
      · exact h.pending hmarks hk'
      · -- The call that has just begun is one of this caller, who has not won.
        obtain rfl := Mark.began.inj hlast
        rw [List.getElem?_set_self (List.getElem?_eq_some_iff.1 hk').1] at hk
        exact absurd (Option.some.inj hk) (hd w returned)
  given := by
    intro j v k w m hgives hmarks
    rcases hmore with rfl | rfl
    · exact h.given hgives (by simpa using hmarks)
    · rcases sublist_snoc [.ended j v, .began k] hmarks with hmarks | ⟨-, rfl⟩
      · exact h.given hgives hmarks
      · simp [Mark.Gives] at hgives

/-- What is won is later than anything that was returned so far. -/
theorem Timely.win (h : a.Timely) (i : Nat) (returned : List Revision) :
    Timely ⟨{ word := a.race.word + 1,
              callers := a.race.callers.set i ⟨.won (a.race.word + 1), returned⟩ },
            a.marks ++ [.won i (a.race.word + 1)]⟩ where
  returned_le := by
    intro j v hmem
    rcases List.mem_append.1 hmem with hmem | hmem
    · exact Int.le_trans (h.returned_le hmem) (Int.le_of_lt (Int.lt_succ _))
    · simp at hmem
  pending := by
    intro j v k w returned' hmarks hk
    have hmarks' : [.ended j v, .began k].Sublist a.marks := by
      rcases sublist_snoc [.ended j v] hmarks with hmarks | ⟨-, hlast⟩
      · exact hmarks
      · simp at hlast
    rcases of_getElem?_set hk with ⟨-, heq⟩ | hk
    · obtain ⟨hstage, -⟩ := Caller.mk.inj heq
      obtain rfl := Stage.won.inj hstage
      exact Int.lt_add_one_of_le (h.returned_le (hmarks'.subset List.mem_cons_self))
    · exact h.pending hmarks' hk
  given := by
    intro j v k w m hgives hmarks
    rcases sublist_snoc [.ended j v, .began k] hmarks with hold | ⟨hold, rfl⟩
    · exact h.given hgives hold
    · rcases hgives with heq | heq
      · obtain ⟨-, rfl⟩ := Mark.won.inj heq
        exact Int.lt_add_one_of_le (h.returned_le (hold.subset List.mem_cons_self))
      · simp at heq

/-- A caller returns what it has won. -/
theorem Timely.finish (h : a.Timely) (hsound : a.Sound) {i : Nat} {revision : Revision}
    {returned : List Revision} (hc : a.race.callers[i]? = some ⟨.won revision, returned⟩) :
    Timely ⟨{ a.race with callers := a.race.callers.set i ⟨.idle, revision :: returned⟩ },
            a.marks ++ [.ended i revision]⟩ where
  returned_le := by
    intro j v hmem
    rcases List.mem_append.1 hmem with hmem | hmem
    · exact h.returned_le hmem
    · obtain ⟨-, rfl⟩ := Mark.ended.inj (List.mem_singleton.1 hmem)
      exact hsound.mem_held_of_mem (List.mem_of_getElem? hc) List.mem_cons_self
  pending := by
    intro j v k w returned' hmarks hk
    rcases of_getElem?_set hk with ⟨-, heq⟩ | hk
    · simp at heq
    · rcases sublist_snoc [.ended j v] hmarks with hmarks | ⟨-, hlast⟩
      · exact h.pending hmarks hk
      · simp at hlast
  given := by
    intro j v k w m hgives hmarks
    rcases sublist_snoc [.ended j v, .began k] hmarks with hold | ⟨hold, rfl⟩
    · exact h.given hgives hold
    · rcases hgives with heq | heq
      · simp at heq
      · obtain ⟨rfl, rfl⟩ := Mark.ended.inj heq
        exact h.pending hold hc

theorem Timely.step (h : a.Timely) (hsound : a.Sound) (m : Move) : (a.step m).Timely := by
  have hstep := stepping_step a.race m
  rw [Annals.step]
  generalize a.race.step m = r at hstep
  generalize (a.race.mark? m).toList = more at hstep
  cases hstep with
  | aside => simpa using h
  | begin hc => exact h.idle (by simp) (Or.inr rfl)
  | fail hc => exact h.idle (by simp) (Or.inl rfl)
  | @win i returned hc => exact h.win i returned
  | finish hc => exact h.finish hsound hc

theorem word_le_step (a : Annals) (m : Move) : a.race.word ≤ (a.step m).race.word := by
  have hstep := stepping_step a.race m
  show a.race.word ≤ (a.race.step m).word
  generalize a.race.step m = r at hstep
  generalize (a.race.mark? m).toList = more at hstep
  cases hstep with
  | win hc => exact Int.le_of_lt (Int.lt_succ _)
  | aside | begin hc | fail hc | finish hc => exact Int.le_refl _

/-! ## Whole races -/

theorem sound_follow (h : a.Sound) (moves : List Move) : (a.follow moves).Sound := by
  induction moves generalizing a with
  | nil => exact h
  | cons m rest ih => exact ih (h.step m)

theorem timely_follow (h : a.Timely) (hsound : a.Sound) (moves : List Move) :
    (a.follow moves).Timely := by
  induction moves generalizing a with
  | nil => exact h
  | cons m rest ih => exact ih (h.step hsound m) (hsound.step m)

theorem word_le_follow (a : Annals) (moves : List Move) :
    a.race.word ≤ (a.follow moves).race.word := by
  induction moves generalizing a with
  | nil => exact Int.le_refl _
  | cons m rest ih => exact Int.le_trans (word_le_step a m) (ih (a.step m))

/-- The callers share a counter as if each call of theirs were one step. -/
structure Linearizable (a : Annals) : Prop where
  /-- All revisions that were returned, or were won and are about to be, are different from each
      other, -/
  nodup : a.race.held.Nodup
  /-- and they are the numbers from one to what the word holds. -/
  mem_held_iff : ∀ v, v ∈ a.race.held ↔ 1 ≤ v ∧ v ≤ a.race.word
  /-- A caller is given later revisions later; those it was given are listed newest first. -/
  own : ∀ c ∈ a.race.callers, (c.pending ++ c.returned).Pairwise (· > ·)
  /-- A call that begins after another one has ended is given a later revision. -/
  later : ∀ j v i w m, m.Gives i w → [.ended j v, .began i, m].Sublist a.marks → v < w
  /-- Between its beginning and its end each call wins the revision that it returns, -/
  story : ∀ i c, a.race.callers[i]? = some c → a.marks.filter (·.caller = i) = c.story i
  /-- and in the order in which they are won, the revisions are what calls of `next` hand out that
      come one after the other. -/
  drawn : ∃ calls : Nat, a.race.word = calls ∧ a.wins = Counter.draw calls {}
  /-- No caller counts further than there are calls, so fewer than `2 ^ 63` of them stay within a
      signed word of 64 bits. -/
  word_le : a.race.word ≤ a.calls
  next_le : ∀ value returned, ⟨.seen value, returned⟩ ∈ a.race.callers → value + 1 ≤ a.calls

theorem Sound.linearizable (h : a.Sound) (htimely : a.Timely) : Linearizable a where
  nodup := by
    obtain ⟨calls, -, hdrawn⟩ := h.drawn
    rw [h.held.nodup_iff, hdrawn]
    exact (Counter.pairwise_draw calls {}).imp Int.ne_of_lt
  mem_held_iff := h.mem_held_iff
  own := h.own
  later := fun _ _ _ _ _ => htimely.given
  story := fun _ _ => h.story
  drawn := h.drawn
  word_le := by
    have hcalls := h.calls
    lia
  next_le := by
    intro value returned hc
    have hcalls := h.calls
    have hvalue := h.seen_le hc
    have htrying : 0 < a.race.callers.countP (·.isTrying) :=
      List.countP_pos_iff.2 ⟨_, hc, rfl⟩
    lia

/-- **The counter is linearizable.** However many callers take part, in whatever order they move,
    and whichever exchanges fail: at every moment the callers have been given what one counter gives
    to calls that come one after the other, and the word never goes back. -/
theorem linearizable_run (callers : Nat) (moves : List Move) :
    Linearizable (run callers moves)
      ∧ (run callers moves).race = (start callers).run moves
      ∧ ∀ more, (run callers moves).race.word ≤ (run callers (moves ++ more)).race.word := by
  have hsound := sound_follow (sound_start callers) moves
  have htimely := timely_follow (timely_start callers) (sound_start callers) moves
  refine ⟨hsound.linearizable htimely, race_follow _ moves, fun more => ?_⟩
  have happend : run callers (moves ++ more) = (run callers moves).follow more :=
    List.foldl_append
  rw [happend]
  exact word_le_follow _ more

end Annals

end Race

end KeyRelay
