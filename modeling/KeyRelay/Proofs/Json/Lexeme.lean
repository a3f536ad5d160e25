import Mathlib.Algebra.Group.Int.Defs
import Mathlib.Algebra.GroupWithZero.Nat
import Mathlib.Tactic.Common
import KeyRelay.Json.Lexeme
import KeyRelay.Json.Printer

set_option autoImplicit false

/-! # Words that are written and read

A string and a whole number are read back from the characters that are written for them, whatever
comes behind: every escape undoes itself (`readString_quotedChar`), and a number ends where its
digits end, if neither a point nor an exponent follows (`Ends`). -/

namespace KeyRelay.Json

/-! ## Strings -/

/-- The control characters without an escape of their own. -/
theorem hexWord?_control : ∀ n < 32,
    hexWord? '0' '0' (Nat.digitChar (n / 16)) (Nat.digitChar (n % 16)) = some n := by
  decide

/-- A character that stands for itself. -/
theorem readString_plain {c : Char} (hquote : c ≠ '"') (hslash : c ≠ '\\')
    (hcontrol : ¬ c.toNat < 32) (rest : List Char) :
    readString (c :: rest) = (readString rest).cons c := by
  rw [readString.eq_def]
  split
  case h_7 heq =>
    obtain ⟨rfl, rfl⟩ := List.cons.inj heq
    rw [if_neg hcontrol]
  all_goals simp_all

theorem readString_quotedChar (c : Char) (rest : List Char) :
    readString (Text.quotedChar c ++ rest) = (readString rest).cons c := by
  unfold Text.quotedChar
  -- The seven characters with an escape of one letter.
  iterate 7
    split
    · next h => subst h; rfl
  split
  · next hcontrol =>
    simp only [List.cons_append, List.nil_append]
    rw [readString, hexWord?_control c.toNat hcontrol]
    simp only
    rw [if_neg (by omega), if_neg (by omega), Char.ofNat_toNat]
  · exact readString_plain ‹_› ‹_› ‹_› rest

theorem readString_quotedTail (cs rest : List Char) :
    readString (Text.quotedTail cs ++ rest) = .ok (cs, rest) := by
  induction cs with
  | nil => rfl
  | cons c cs ih =>
    have htail : Text.quotedTail (c :: cs) ++ rest
        = Text.quotedChar c ++ (Text.quotedTail cs ++ rest) := by
      simp [Text.quotedTail]
    rw [htail, readString_quotedChar, ih]
    rfl

/-! ## Numbers -/

theorem isDigit_of_mem_toDigits {n : Nat} : ∀ c ∈ Nat.toDigits 10 n, c.isDigit = true :=
  fun _ hc => Nat.isDigit_of_mem_toDigits (by decide) (by decide) hc

theorem exists_toDigits_eq_cons (n : Nat) :
    ∃ d ds, Nat.toDigits 10 n = d :: ds ∧ d.isDigit = true := by
  obtain ⟨d, ds, hdigits⟩ := List.exists_cons_of_ne_nil (l := Nat.toDigits 10 n)
    Nat.toDigits_ne_nil
  refine ⟨d, ds, hdigits, isDigit_of_mem_toDigits (n := n) d ?_⟩
  rw [hdigits]
  exact List.mem_cons_self

/-- No number is written with a zero in front of further digits. -/
theorem eq_nil_of_toDigits {n : Nat} {ds : List Char} (h : Nat.toDigits 10 n = '0' :: ds) :
    ds = [] := by
  induction n using Nat.strongRecOn generalizing ds with
  | ind n ih =>
    by_cases hn : n < 10
    · rw [Nat.toDigits_of_lt_base hn] at h
      exact (List.cons.inj h).2.symm
    · rw [Nat.toDigits_of_base_le (by decide) (Nat.not_lt.1 hn)] at h
      -- What is in front of the last digit would begin with the zero too, and so would be zero.
      obtain ⟨d, front, hfront, -⟩ := exists_toDigits_eq_cons (n / 10)
      rw [hfront] at h
      obtain ⟨rfl, -⟩ := List.cons.inj h
      have hzero : n / 10 = 0 := by
        rw [← Nat.ofDigitChars_ten_toDigits (n := n / 10), hfront, ih (n / 10) (by omega) hfront]
        rfl
      omega

/-- What follows a number does not go on with it. -/
def Ends (rest : List Char) : Prop :=
  ∀ c ∈ rest.head?, c.isDigit = false ∧ c ≠ '.' ∧ c ≠ 'e' ∧ c ≠ 'E'

variable {rest : List Char}

theorem ends_nil : Ends [] := by simp [Ends]

theorem ends_comma : Ends (',' :: rest) := by simp [Ends]

theorem ends_bracket : Ends (']' :: rest) := by simp [Ends]

theorem ends_brace : Ends ('\x7d' :: rest) := by simp [Ends]

theorem takeWhile_toDigits (n : Nat) (hends : Ends rest) :
    (Nat.toDigits 10 n ++ rest).takeWhile Char.isDigit = Nat.toDigits 10 n := by
  rw [List.takeWhile_append_of_pos isDigit_of_mem_toDigits]
  cases rest with
  | nil => exact List.append_nil _
  | cons c rest =>
    have hc : ¬ c.isDigit = true := by simp [(hends c rfl).1]
    rw [List.takeWhile_cons_of_neg hc, List.append_nil]

theorem dropWhile_toDigits (n : Nat) (hends : Ends rest) :
    (Nat.toDigits 10 n ++ rest).dropWhile Char.isDigit = rest := by
  rw [List.dropWhile_append_of_pos isDigit_of_mem_toDigits]
  cases rest with
  | nil => rfl
  | cons c rest =>
    have hc : ¬ c.isDigit = true := by simp [(hends c rfl).1]
    rw [List.dropWhile_cons_of_neg hc]

/-- The digits of a number are taken as a whole. -/
theorem readNumber_toDigits (negative : Bool) (n : Nat) (hends : Ends rest) :
    readNumber negative (Nat.toDigits 10 n ++ rest)
      = (wholeNumber negative (Nat.toDigits 10 n)).map fun v => (v, rest) := by
  simp only [readNumber, takeWhile_toDigits n hends, dropWhile_toDigits n hends]
  split
  · next h _ => exact absurd h Nat.toDigits_ne_nil
  · next h _ => exact absurd h Nat.toDigits_ne_nil
  · next h => exact absurd (eq_nil_of_toDigits h) (by simp)
  · split
    · exact absurd rfl (hends '.' rfl).2.1
    · exact absurd rfl (hends 'e' rfl).2.2.1
    · exact absurd rfl (hends 'E' rfl).2.2.2
    · rfl

theorem readNumber_false {n : Nat} (hn : n < 2 ^ 64) (hends : Ends rest) :
    readNumber false (Nat.toDigits 10 n ++ rest) = .ok (.whole n, rest) := by
  have hwhole : wholeNumber false (Nat.toDigits 10 n) = .ok (.whole n) := by
    simp only [wholeNumber, Nat.ofDigitChars_ten_toDigits]
    exact if_pos ⟨rfl, hn⟩
  rw [readNumber_toDigits false n hends, hwhole]
  rfl

/-- A minus sign is followed by what is left of the number. Zero has none. -/
theorem readNumber_true {n : Nat} (hpos : 0 < n) (hn : n ≤ 2 ^ 63) (hends : Ends rest) :
    readNumber true (Nat.toDigits 10 n ++ rest) = .ok (.whole (-n), rest) := by
  have hwhole : wholeNumber true (Nat.toDigits 10 n) = .ok (.whole (-n)) := by
    simp only [wholeNumber, Nat.ofDigitChars_ten_toDigits]
    rw [if_neg (by simp)]
    exact if_pos ⟨trivial, hpos, hn⟩
  rw [readNumber_toDigits true n hends, hwhole]
  rfl

/-! ## Steps -/

theorem skipBlanks_cons {c : Char} (hc : isBlank c = false) (cs : List Char) :
    skipBlanks (c :: cs) = c :: cs := by
  rw [skipBlanks, List.dropWhile_cons_of_neg (by simp [hc])]

variable {c : Char}

/-- A character that opens a value. -/
def Opens (c : Char) : Prop := isBlank c = false ∧ c ≠ ']'

theorem nextItem_first (hc : Opens c) (cs : List Char) :
    nextItem true (c :: cs) = .ok (.at (c :: cs)) := by
  simp only [nextItem, skipBlanks_cons hc.1]
  split
  · simp_all
  · next heq => exact absurd (List.cons.inj heq).1 hc.2
  · next heq =>
    obtain ⟨rfl, rfl⟩ := List.cons.inj heq
    rfl

theorem nextItem_comma (hc : Opens c) (cs : List Char) :
    nextItem false (',' :: c :: cs) = .ok (.at (c :: cs)) := by
  have hcomma : skipBlanks (',' :: c :: cs) = ',' :: c :: cs := rfl
  simp only [nextItem, hcomma, Char.reduceEq, imp_self, Bool.false_eq_true, ↓reduceIte]
  rw [skipBlanks_cons hc.1]
  split
  · simp_all
  · next heq => exact absurd (List.cons.inj heq).1 hc.2
  · rfl

end KeyRelay.Json
