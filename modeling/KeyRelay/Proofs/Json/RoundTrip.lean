import KeyRelay.Json.Parser
import KeyRelay.Proofs.Json.Lexeme

set_option autoImplicit false

/-! # Values that are written and read

A value is read back from its compact text, if its numbers are whole and fit a word and if it does
not nest too deep (`parse_render`). This goes by induction on the value (`Fits`): whatever comes
behind the text of a part of it, that part is read and what comes behind is left
(`Fits.readsBack`). Every call of the reader consumes a character or is followed by one that does,
so twice as many calls as there are characters are enough. -/

namespace KeyRelay.Json

variable {fuel depth d : Nat} {rest cs ds : List Char} {first : Bool}

/-! ## The first character of a value -/

theorem readValue_null :
    readValue (fuel + 1) depth (Json.null.chars ++ rest) = .ok (.null, rest) := rfl

theorem readValue_bool (b : Bool) :
    readValue (fuel + 1) depth ((Json.bool b).chars ++ rest) = .ok (.bool b, rest) := by
  cases b <;> rfl

theorem readValue_quote (cs : List Char) :
    readValue (fuel + 1) depth ('"' :: cs)
      = (readString cs).map fun (s, rest) => (.string (String.ofList s), rest) := rfl

theorem readValue_minus (cs : List Char) :
    readValue (fuel + 1) depth ('-' :: cs)
      = (readNumber true cs).map fun (n, rest) => (.number n, rest) := rfl

theorem readValue_bracket (hdepth : 1 < depth) (cs : List Char) :
    readValue (fuel + 1) depth ('[' :: cs)
      = (readItems fuel (depth - 1) true cs).map fun (xs, rest) => (.array xs, rest) :=
  if_neg (Nat.not_le.2 hdepth)

theorem readValue_brace (hdepth : 1 < depth) (cs : List Char) :
    readValue (fuel + 1) depth ('\x7b' :: cs)
      = (readFields fuel (depth - 1) true cs).map fun (fs, rest) => (.object fs, rest) :=
  if_neg (Nat.not_le.2 hdepth)

theorem opens_of_isDigit {c : Char} (hc : c.isDigit = true) : Opens c := by
  have hne : ∀ {b : Char}, b.isDigit = false → c ≠ b := by
    rintro b hb rfl
    rw [hc] at hb
    simp at hb
  have hblank : isBlank c = false := by
    simp [isBlank, hne (b := ' ') (by decide), hne (b := '\n') (by decide),
      hne (b := '\t') (by decide), hne (b := '\r') (by decide)]
  exact ⟨hblank, hne (by decide)⟩

theorem readValue_digit {c : Char} (hc : c.isDigit = true) (cs : List Char) :
    readValue (fuel + 1) depth (c :: cs)
      = (readNumber false (c :: cs)).map fun (n, rest) => (.number n, rest) := by
  rw [readValue, skipBlanks_cons (opens_of_isDigit hc).1]
  split
  case h_9 heq =>
    obtain ⟨rfl, rfl⟩ := List.cons.inj heq
    rw [if_pos hc]
  all_goals simp_all

/-! ## One item or field more -/

theorem readItems_cons {x : Json} {xs : List Json} {more : List Char}
    (hnext : nextItem first cs = .ok (.at ds)) (hvalue : readValue fuel depth ds = .ok (x, more))
    (hrest : readItems fuel depth false more = .ok (xs, rest)) :
    readItems (fuel + 1) depth first cs = .ok (x :: xs, rest) := by
  simp only [readItems, hnext, hvalue, hrest]
  rfl

theorem readFields_cons {name : String} {x : Json} {fields : List (String × Json)}
    {more : List Char}
    (hnext : nextField first cs = .ok (.at (Text.quotedTail name.toList ++ ':' :: ds)))
    (hvalue : readValue fuel depth ds = .ok (x, more))
    (hrest : readFields fuel depth false more = .ok (fields, rest)) :
    readFields (fuel + 1) depth first cs = .ok ((name, x) :: fields, rest) := by
  have hcolon : readColon (':' :: ds) = .ok ds := rfl
  simp only [readFields, hnext, readString_quotedTail, hcolon, hvalue, hrest, String.ofList_toList]
  rfl

/-! ## Values -/

/-- The numbers in the value are whole and fit a word, and its lists and objects nest no deeper
    than this. -/
inductive Fits : Nat → Json → Prop where
  | null (d : Nat) : Fits d .null
  | bool (d : Nat) (b : Bool) : Fits d (.bool b)
  | whole (d : Nat) {value : Int} (hlow : -2 ^ 63 ≤ value) (hhigh : value < 2 ^ 64) :
      Fits d (.number (.whole value))
  | string (d : Nat) (s : String) : Fits d (.string s)
  | array {d : Nat} {items : List Json} (hitems : ∀ x ∈ items, Fits d x) :
      Fits (d + 1) (.array items)
  | object {d : Nat} {fields : List (String × Json)} (hfields : ∀ field ∈ fields, Fits d field.2) :
      Fits (d + 1) (.object fields)

/-- The value is read from its characters, and what comes behind them is left. -/
structure ReadsBack (d : Nat) (x : Json) : Prop where
  opens : ∃ c cs, x.chars = c :: cs ∧ Opens c
  read : ∀ {fuel depth : Nat} {rest : List Char}, 2 * x.chars.length ≤ fuel → d < depth →
    Ends rest → readValue fuel depth (x.chars ++ rest) = .ok (x, rest)

theorem ReadsBack.length_pos {x : Json} (h : ReadsBack d x) : 0 < x.chars.length := by
  obtain ⟨c, cs, hchars, -⟩ := h.opens
  rw [hchars]
  exact Nat.succ_pos _

/-- It is enough to say what one call of the reader does. -/
theorem readsBack_of_succ {x : Json} (hopens : ∃ c cs, x.chars = c :: cs ∧ Opens c)
    (hread : ∀ {fuel depth : Nat} {rest : List Char}, 2 * x.chars.length ≤ fuel + 1 → d < depth →
      Ends rest → readValue (fuel + 1) depth (x.chars ++ rest) = .ok (x, rest)) :
    ReadsBack d x where
  opens := hopens
  read := by
    intro fuel depth rest hfuel hdepth hends
    obtain ⟨c, cs, hchars, -⟩ := hopens
    obtain _ | fuel := fuel
    · simp [hchars] at hfuel
    · exact hread hfuel hdepth hends

theorem readsBack_ofNat (d : Nat) {n : Nat} (hn : n < 2 ^ 64) :
    ReadsBack d (.number (.whole n)) := by
  obtain ⟨c, cs, hchars, hc⟩ := exists_toDigits_eq_cons n
  refine readsBack_of_succ ⟨c, cs, hchars, opens_of_isDigit hc⟩ fun {fuel depth rest} _ _ hends => ?_
  show readValue (fuel + 1) depth (Nat.toDigits 10 n ++ rest) = _
  have hread := readNumber_false hn hends
  rw [hchars, List.cons_append] at hread ⊢
  rw [readValue_digit hc, hread]
  rfl

theorem readsBack_negSucc (d : Nat) {n : Nat} (hn : n + 1 ≤ 2 ^ 63) :
    ReadsBack d (.number (.whole (Int.negSucc n))) := by
  refine readsBack_of_succ ⟨'-', _, rfl, by decide, by decide⟩
    fun {fuel depth rest} _ _ hends => ?_
  show readValue (fuel + 1) depth ('-' :: (Nat.toDigits 10 (n + 1) ++ rest)) = _
  rw [readValue_minus, readNumber_true (Nat.succ_pos n) hn hends]
  rfl

theorem readsBack_whole (d : Nat) {value : Int} (hlow : -2 ^ 63 ≤ value) (hhigh : value < 2 ^ 64) :
    ReadsBack d (.number (.whole value)) := by
  cases value with
  | ofNat n =>
    have hn : (n : Int) < 2 ^ 64 := hhigh
    exact readsBack_ofNat d (by omega)
  | negSucc n => exact readsBack_negSucc d (by omega)

/-! ### Lists -/

variable {x : Json} {items : List Json}

/-- What is written of a list from here on, and its closing bracket; `first` before the first
    item. -/
def itemsFrom (first : Bool) (items : List Json) : List Char :=
  if first then itemsChars items else moreItemsChars items

theorem itemsFrom_nil (first : Bool) : itemsFrom first [] = [']'] := by
  cases first <;> rfl

theorem length_itemsFrom_cons (first : Bool) (x : Json) (items : List Json) :
    x.chars.length + (itemsFrom false items).length ≤ (itemsFrom first (x :: items)).length := by
  cases first <;> simp [itemsFrom, itemsChars, moreItemsChars]

theorem ends_itemsFrom (items : List Json) (rest : List Char) :
    Ends (itemsFrom false items ++ rest) := by
  cases items with
  | nil => exact ends_bracket
  | cons x items => exact ends_comma

theorem nextItem_itemsFrom (first : Bool) (hopens : ∃ c cs, x.chars = c :: cs ∧ Opens c) :
    nextItem first (itemsFrom first (x :: items) ++ rest)
      = .ok (.at (x.chars ++ (itemsFrom false items ++ rest))) := by
  obtain ⟨c, cs, hchars, hc⟩ := hopens
  have htext : x.chars ++ moreItemsChars items ++ rest
      = c :: (cs ++ (itemsFrom false items ++ rest)) := by
    simp [hchars, itemsFrom]
  rw [hchars]
  cases first with
  | true =>
    show nextItem true (x.chars ++ moreItemsChars items ++ rest) = _
    rw [htext, nextItem_first hc]
    rfl
  | false =>
    show nextItem false (',' :: (x.chars ++ moreItemsChars items ++ rest)) = _
    rw [htext, nextItem_comma hc]
    rfl

theorem readItems_itemsFrom (first : Bool) (h : ∀ x ∈ items, ReadsBack d x)
    (hfuel : 2 * (itemsFrom first items).length ≤ fuel + 1) (hdepth : d < depth) :
    readItems fuel depth first (itemsFrom first items ++ rest) = .ok (items, rest) := by
  induction items generalizing first fuel with
  | nil =>
    rw [itemsFrom_nil] at hfuel ⊢
    obtain _ | fuel := fuel
    · simp at hfuel
    · rfl
  | cons x items ih =>
    obtain ⟨hx, hitems⟩ := List.forall_mem_cons.1 h
    have hpos := hx.length_pos
    have hlength := length_itemsFrom_cons first x items
    have hmore : 0 < (itemsFrom false items).length := by
      cases items <;> simp [itemsFrom, moreItemsChars]
    obtain _ | fuel := fuel
    · omega
    exact readItems_cons (nextItem_itemsFrom first hx.opens)
      (hx.read (by omega) hdepth (ends_itemsFrom items rest))
      (ih false hitems (by omega))

theorem readsBack_array (h : ∀ x ∈ items, ReadsBack d x) : ReadsBack (d + 1) (.array items) := by
  refine readsBack_of_succ ⟨'[', _, rfl, by decide, by decide⟩
    fun {fuel depth rest} hfuel hdepth _ => ?_
  have hlength : (Json.array items).chars.length = (itemsFrom true items).length + 1 := rfl
  show readValue (fuel + 1) depth ('[' :: (itemsFrom true items ++ rest)) = _
  rw [readValue_bracket (by omega), readItems_itemsFrom true h (by omega) (by omega)]
  rfl

/-! ### Objects -/

variable {fields : List (String × Json)}

/-- What is written of an object from here on, and its closing brace; `first` before the first
    field. -/
def fieldsFrom (first : Bool) (fields : List (String × Json)) : List Char :=
  if first then fieldsChars fields else moreFieldsChars fields

theorem fieldsFrom_nil (first : Bool) : fieldsFrom first [] = ['\x7d'] := by
  cases first <;> rfl

theorem length_fieldsFrom_cons (first : Bool) (name : String) (x : Json)
    (fields : List (String × Json)) :
    x.chars.length + (fieldsFrom false fields).length + 2
      ≤ (fieldsFrom first ((name, x) :: fields)).length := by
  cases first with
  | true | false =>
    simp only [fieldsFrom, fieldsChars, moreFieldsChars, Text.quoted, List.length_append,
      List.length_cons, if_true, Bool.false_eq_true, if_false]
    omega

theorem ends_fieldsFrom (fields : List (String × Json)) (rest : List Char) :
    Ends (fieldsFrom false fields ++ rest) := by
  cases fields with
  | nil => exact ends_brace
  | cons field fields => exact ends_comma

theorem nextField_fieldsFrom (first : Bool) (name : String) :
    nextField first (fieldsFrom first ((name, x) :: fields) ++ rest)
      = .ok (.at (Text.quotedTail name.toList
          ++ ':' :: (x.chars ++ (fieldsFrom false fields ++ rest)))) := by
  have htext : Text.quoted name.toList ++ ':' :: x.chars ++ moreFieldsChars fields ++ rest
      = '"' :: (Text.quotedTail name.toList
          ++ ':' :: (x.chars ++ (fieldsFrom false fields ++ rest))) := by
    simp [Text.quoted, fieldsFrom]
  cases first with
  | true =>
    show nextField true (Text.quoted name.toList ++ ':' :: x.chars ++ moreFieldsChars fields ++ rest)
      = _
    rw [htext]
    rfl
  | false =>
    show nextField false
      (',' :: (Text.quoted name.toList ++ ':' :: x.chars ++ moreFieldsChars fields ++ rest)) = _
    rw [htext]
    rfl

theorem readFields_fieldsFrom (first : Bool) (h : ∀ field ∈ fields, ReadsBack d field.2)
    (hfuel : 2 * (fieldsFrom first fields).length ≤ fuel + 1) (hdepth : d < depth) :
    readFields fuel depth first (fieldsFrom first fields ++ rest) = .ok (fields, rest) := by
  induction fields generalizing first fuel with
  | nil =>
    rw [fieldsFrom_nil] at hfuel ⊢
    obtain _ | fuel := fuel
    · simp at hfuel
    · cases first <;> rfl
  | cons field fields ih =>
    obtain ⟨name, x⟩ := field
    obtain ⟨(hx : ReadsBack d x), hfields⟩ := List.forall_mem_cons.1 h
    have hlength := length_fieldsFrom_cons first name x fields
    obtain _ | fuel := fuel
    · omega
    exact readFields_cons (nextField_fieldsFrom first name)
      (hx.read (by omega) hdepth (ends_fieldsFrom fields rest))
      (ih false hfields (by omega))

theorem readsBack_object (h : ∀ field ∈ fields, ReadsBack d field.2) :
    ReadsBack (d + 1) (.object fields) := by
  refine readsBack_of_succ ⟨'\x7b', _, rfl, by decide, by decide⟩
    fun {fuel depth rest} hfuel hdepth _ => ?_
  have hlength : (Json.object fields).chars.length = (fieldsFrom true fields).length + 1 := rfl
  show readValue (fuel + 1) depth ('\x7b' :: (fieldsFrom true fields ++ rest)) = _
  rw [readValue_brace (by omega), readFields_fieldsFrom true h (by omega) (by omega)]
  rfl

theorem Fits.readsBack (h : Fits d x) : ReadsBack d x := by
  induction h with
  | null d =>
    exact readsBack_of_succ ⟨'n', _, rfl, by decide, by decide⟩ fun _ _ _ => readValue_null
  | bool d b =>
    refine readsBack_of_succ ?_ fun _ _ _ => readValue_bool b
    cases b with
    | false => exact ⟨'f', _, rfl, by decide, by decide⟩
    | true => exact ⟨'t', _, rfl, by decide, by decide⟩
  | whole d hlow hhigh => exact readsBack_whole d hlow hhigh
  | string d s =>
    refine readsBack_of_succ ⟨'"', _, rfl, by decide, by decide⟩
      fun {fuel depth rest} _ _ _ => ?_
    show readValue (fuel + 1) depth ('"' :: (Text.quotedTail s.toList ++ rest)) = _
    rw [readValue_quote, readString_quotedTail]
    exact congrArg (fun s => Except.ok (Json.string s, rest)) String.ofList_toList
  | array _ ih => exact readsBack_array ih
  | object _ ih => exact readsBack_object ih

/-! ## Texts -/

/-- **The way back.** A value is read from its compact text. -/
theorem parse_render (h : Fits d x) (hdepth : d < depthLimit) : parse x.render = .ok x := by
  have hread : readValue (2 * x.chars.length + 3) depthLimit (x.chars ++ []) = .ok (x, []) :=
    h.readsBack.read (Nat.le_add_right _ _) hdepth ends_nil
  rw [List.append_nil] at hread
  simp only [parse, render, String.toList_ofList, hread]
  rfl

end KeyRelay.Json
