import KeyRelay.KeyValue.Reading
import KeyRelay.Proofs.Json.RoundTrip
import KeyRelay.Record

set_option autoImplicit false

/-! # Raw pairs and their JSON form

A raw pair is noted as its compact JSON text, the bytes as numbers. Both ways back lead to the same
pair (`KeyValue.Survives`): the text is read on the way through it, one field after the other, and
the fields of the value are looked at one by one. So the text tells pairs apart. A record is written
as an object that has the text of its pair in it, behind both revisions; that text is read as a
value (`Json.parse_render`), from which all three parts are taken. -/

namespace KeyRelay.KeyValue

open Json

/-- The JSON form of a byte. -/
def byteJson (b : UInt8) : Json := .number (.whole b.toNat)

theorem toJson_eq (kv : KeyValue) :
    kv.toJson = .object [("key", .string kv.key), ("value", .array (kv.value.map byteJson))] := rfl

/-! ## Bytes -/

theorem byteOf_toNat (b : UInt8) : byteOf (.whole b.toNat) = .ok b := by
  have hb : b.toNat < 256 := b.toNat_lt
  have hrange : (0 : Int) ≤ b.toNat ∧ (b.toNat : Int) < 256 := by omega
  rw [byteOf, if_pos hrange, Int.toNat_natCast, UInt8.ofNat_toNat]

theorem byteJson_chars (b : UInt8) : (byteJson b).chars = Nat.toDigits 10 b.toNat := rfl

theorem exists_byteJson_chars (b : UInt8) :
    ∃ c cs, (byteJson b).chars = c :: cs ∧ c.isDigit = true := exists_toDigits_eq_cons b.toNat

theorem opens_byteJson (b : UInt8) : ∃ c cs, (byteJson b).chars = c :: cs ∧ Opens c := by
  obtain ⟨c, cs, hchars, hc⟩ := exists_byteJson_chars b
  exact ⟨c, cs, hchars, opens_of_isDigit hc⟩

variable {rest cs ds : List Char} {first : Bool} {fuel : Nat}

theorem readByte_digit {c : Char} (hc : c.isDigit = true) (cs : List Char) :
    readByte (c :: cs) = (readNumber false (c :: cs)).bind fun (n, rest) =>
      (byteOf n).map fun b => (b, rest) := by
  rw [readByte, skipBlanks_cons (opens_of_isDigit hc).1]
  split
  · simp_all
  · simp_all
  · next heq =>
    obtain ⟨rfl, rfl⟩ := List.cons.inj heq
    rw [if_pos hc]
    rfl

theorem readByte_byteJson (b : UInt8) (hends : Ends rest) :
    readByte ((byteJson b).chars ++ rest) = .ok (b, rest) := by
  obtain ⟨c, cs, hchars, hc⟩ := exists_byteJson_chars b
  have hb : b.toNat < 2 ^ 64 := Nat.lt_trans b.toNat_lt (by decide)
  have hread := readNumber_false hb hends
  rw [← byteJson_chars, hchars, List.cons_append] at hread
  rw [hchars, List.cons_append, readByte_digit hc, hread]
  simp only [Except.bind, byteOf_toNat, Except.map]

theorem readBytes_cons {b : UInt8} {bytes : List UInt8} {more : List Char}
    (hnext : nextItem first cs = .ok (.at ds)) (hbyte : readByte ds = .ok (b, more))
    (hrest : readBytes fuel false more = .ok (bytes, rest)) :
    readBytes (fuel + 1) first cs = .ok (b :: bytes, rest) := by
  simp only [readBytes, hnext, hbyte, hrest]
  rfl

theorem readBytes_itemsFrom (first : Bool) (bytes : List UInt8) (hfuel : bytes.length < fuel) :
    readBytes fuel first (itemsFrom first (bytes.map byteJson) ++ rest) = .ok (bytes, rest) := by
  induction bytes generalizing first fuel with
  | nil =>
    obtain _ | fuel := fuel
    · exact absurd hfuel (Nat.not_lt_zero _)
    · cases first <;> rfl
  | cons b bytes ih =>
    obtain _ | fuel := fuel
    · exact absurd hfuel (Nat.not_lt_zero _)
    exact readBytes_cons (nextItem_itemsFrom first (opens_byteJson b))
      (readByte_byteJson b (ends_itemsFrom _ rest)) (ih false (Nat.lt_of_succ_lt_succ hfuel))

/-- Every byte takes a character at least. -/
theorem length_le_itemsFrom (first : Bool) (bytes : List UInt8) :
    bytes.length ≤ (itemsFrom first (bytes.map byteJson)).length := by
  induction bytes generalizing first with
  | nil => exact Nat.zero_le _
  | cons b bytes ih =>
    have hlength := length_itemsFrom_cons first (byteJson b) (bytes.map byteJson)
    have hb : 0 < (byteJson b).chars.length := Nat.length_toDigits_pos
    have hrest := ih false
    rw [List.map_cons, List.length_cons]
    omega

theorem readValue_bytes (bytes : List UInt8) (rest : List Char) :
    readValue ((Json.array (bytes.map byteJson)).chars ++ rest) = .ok (bytes, rest) := by
  show readBytes ((itemsFrom true (bytes.map byteJson) ++ rest).length + 1) true
    (itemsFrom true (bytes.map byteJson) ++ rest) = _
  refine readBytes_itemsFrom true bytes (Nat.lt_succ_of_le ?_)
  rw [List.length_append]
  exact Nat.le_trans (length_le_itemsFrom true bytes) (Nat.le_add_right _ _)

/-! ## From the text -/

theorem readColon_colon (cs : List Char) : readColon (':' :: cs) = .ok cs := rfl

theorem readKey_quote (key : Key) (rest : List Char) :
    readKey ('"' :: (Text.quotedTail key.toList ++ rest)) = .ok (key, rest) := by
  show (readString (Text.quotedTail key.toList ++ rest)).map _ = _
  rw [readString_quotedTail]
  exact congrArg (fun key => Except.ok (key, rest)) String.ofList_toList

theorem readFields_key (key : Key) {value : Option (List UInt8)} {more : List Char}
    (hnext : nextField first cs = .ok (.at (Text.quotedTail "key".toList
      ++ ':' :: '"' :: (Text.quotedTail key.toList ++ more)))) :
    readFields (fuel + 1) first none value cs = readFields fuel false (some key) value more := by
  have hname : String.ofList "key".toList = "key" := String.ofList_toList
  rw [readFields, hnext]
  simp only [readString_quotedTail, bind, Except.bind, hname, readColon_colon, readKey_quote]
  rfl

theorem readFields_value {key : Option Key} (bytes : List UInt8) {more : List Char}
    (hnext : nextField first cs = .ok (.at (Text.quotedTail "value".toList
      ++ ':' :: ((Json.array (bytes.map byteJson)).chars ++ more)))) :
    readFields (fuel + 1) first key none cs = readFields fuel false key (some bytes) more := by
  have hname : String.ofList "value".toList = "value" := String.ofList_toList
  rw [readFields, hnext]
  simp only [readString_quotedTail, bind, Except.bind, hname, readColon_colon, readValue_bytes]
  rfl

/-- The characters of a raw pair. -/
theorem chars_toJson (kv : KeyValue) :
    kv.toJson.chars
      = '\x7b' :: '"' :: (Text.quotedTail "key".toList
          ++ ':' :: '"' :: (Text.quotedTail kv.key.toList
            ++ ',' :: '"' :: (Text.quotedTail "value".toList
              ++ ':' :: ((Json.array (kv.value.map byteJson)).chars ++ ['\x7d'])))) := by
  simp [toJson_eq, Json.chars, fieldsChars, moreFieldsChars, Text.quoted]

theorem readFields_toJson (kv : KeyValue) (k : Nat) {cs : List Char}
    (hcs : kv.toJson.chars = '\x7b' :: cs) :
    readFields (k + 3) true none none cs = .ok (kv, []) := by
  obtain ⟨-, rfl⟩ := List.cons.inj (hcs.symm.trans (chars_toJson kv))
  rw [readFields_key kv.key rfl, readFields_value kv.value rfl]
  rfl

/-- A raw pair is read from its text. -/
theorem parse_render (kv : KeyValue) : parse kv.toJson.render = .ok kv := by
  obtain ⟨cs, hcs⟩ : ∃ cs, kv.toJson.chars = '\x7b' :: cs := ⟨_, rfl⟩
  obtain ⟨k, hk⟩ : ∃ k, cs.length + 1 = k + 3 := by
    have hlength := congrArg List.length (hcs.symm.trans (chars_toJson kv))
    simp only [List.length_cons, List.length_append] at hlength
    exact ⟨cs.length - 2, by omega⟩
  have hread : read kv.toJson.chars = .ok (kv, []) := by
    rw [hcs]
    show readFields (cs.length + 1) true none none cs = _
    rw [hk, readFields_toJson kv k hcs]
  rw [parse, render, String.toList_ofList, hread]
  rfl

/-! ## From the value -/

theorem mapM_byteOfJson (bytes : List UInt8) :
    (bytes.map byteJson).mapM byteOfJson = .ok bytes := by
  induction bytes with
  | nil => rfl
  | cons b bytes ih =>
    have hb : byteOfJson (byteJson b) = .ok b := byteOf_toNat b
    rw [List.map_cons, List.mapM_cons, ih, hb]
    rfl

/-- A raw pair is taken from its value. -/
theorem ofJson_toJson (kv : KeyValue) : ofJson kv.toJson = .ok kv := by
  have hbytes : bytesOf (.array (kv.value.map byteJson)) = .ok kv.value :=
    mapM_byteOfJson kv.value
  show ofObject none none [("key", .string kv.key), ("value", .array (kv.value.map byteJson))] = _
  simp [ofObject, keyOf, hbytes, ofFields, bind, Except.bind]

/-! ## Fields in key order -/

theorem sortedItems_bytes (bytes : List UInt8) :
    sortedItems (bytes.map byteJson) = bytes.map byteJson := by
  induction bytes with
  | nil => rfl
  | cons b bytes ih =>
    rw [List.map_cons, sortedItems, ih]
    rfl

theorem sorted_toJson (kv : KeyValue) : kv.toJson.sorted = kv.toJson := by
  have hbefore : ¬ Key.Before "value" "key" := by decide
  simp [toJson_eq, sorted, sortedFields, sortedItems_bytes, insertField, hbefore]

/-! ## Records -/

/-- The JSON form of a record of a raw pair. -/
def recordJson (kv : KeyValue) (create modify : Revision) : Json :=
  .object
    [("create_revision", .number (.whole create)), ("modify_revision", .number (.whole modify)),
      ("value", kv.toJson)]

variable (kv : KeyValue) (create modify : Revision)

theorem sorted_recordJson : (recordJson kv create modify).sorted = recordJson kv create modify := by
  have hmodify : ¬ Key.Before "modify_revision" "create_revision" := by decide
  have hvalue : ¬ Key.Before "value" "create_revision" ∧ ¬ Key.Before "value" "modify_revision" := by
    decide
  simp [recordJson, sorted, sortedFields, sorted_toJson, insertField, hmodify, hvalue]

theorem fits_byteJson (b : UInt8) : Fits 0 (byteJson b) := by
  have hb : b.toNat < 256 := b.toNat_lt
  exact .whole 0 (by omega) (by omega)

theorem fits_toJson : Fits 2 kv.toJson := by
  have hbytes : Fits 1 (.array (kv.value.map byteJson)) := by
    refine .array fun x hx => ?_
    obtain ⟨b, -, rfl⟩ := List.mem_map.1 hx
    exact fits_byteJson b
  rw [toJson_eq]
  refine .object fun field hfield => ?_
  rcases List.mem_cons.1 hfield with rfl | hfield
  · exact .string 1 kv.key
  · obtain rfl := List.mem_singleton.1 hfield
    exact hbytes

theorem fits_recordJson (hcreate : -2 ^ 63 ≤ create ∧ create < 2 ^ 63)
    (hmodify : -2 ^ 63 ≤ modify ∧ modify < 2 ^ 63) : Fits 3 (recordJson kv create modify) := by
  refine .object fun field hfield => ?_
  rcases List.mem_cons.1 hfield with rfl | hfield
  · exact .whole 2 hcreate.1 (Int.lt_trans hcreate.2 (by decide))
  rcases List.mem_cons.1 hfield with rfl | hfield
  · exact .whole 2 hmodify.1 (Int.lt_trans hmodify.2 (by decide))
  · obtain rfl := List.mem_singleton.1 hfield
    exact fits_toJson kv

/-- A whole number is written in plain decimal notation. -/
theorem chars_whole (value : Int) : (Number.whole value).chars = (toString value).toList := by
  cases value with
  | ofNat n =>
    show Nat.toDigits 10 n = (toString n).toList
    rw [Nat.toString_eq_ofList_toDigits, String.toList_ofList]
  | negSucc n =>
    show '-' :: Nat.toDigits 10 (n + 1) = ("-" ++ toString (n + 1)).toList
    simp

/-- The text of a record has the text of its raw pair in it. -/
theorem render_recordJson : (recordJson kv create modify).render
    = "\x7b\"create_revision\":" ++ toString create ++ ",\"modify_revision\":" ++ toString modify
      ++ ",\"value\":" ++ kv.toJson.render ++ "\x7d" := by
  apply String.toList_inj.1
  simp [recordJson, render, Json.chars, fieldsChars, moreFieldsChars, chars_whole, Text.quoted,
    Text.quotedTail, Text.quotedChar]

/-! ## The whole way -/

/-- Raw pairs survive being written. -/
structure Survives (kv : KeyValue) : Prop where
  /-- What is noted of a raw pair is the compact text of its JSON form. -/
  logValue : (Item.raw kv).toJson = .ok kv.toJson ∧ (Item.raw kv).logValue = kv.toJson.render
  /-- The pair is read from this text, -/
  parse : parse (Item.raw kv).logValue = .ok kv
  /-- and taken from its JSON form, the fields of which are in key order. -/
  ofJson : kv.toJson.sorted = kv.toJson ∧ ofJson kv.toJson = .ok kv
  /-- No other pair has this text. -/
  injective : ∀ other, (Item.raw other).logValue = (Item.raw kv).logValue → other = kv
  /-- The text of a record has both revisions and the text of the pair in it. It is read as the
      value that was written, with the fields in key order, and the value has it all. -/
  record : ∀ create modify : Int64, ∃ json,
    Record.toJson ⟨.raw kv, create.toInt, modify.toInt⟩ = .ok json
    ∧ json.render = "\x7b\"create_revision\":" ++ toString create.toInt
        ++ ",\"modify_revision\":" ++ toString modify.toInt
        ++ ",\"value\":" ++ (Item.raw kv).logValue ++ "\x7d"
    ∧ Json.parse json.render = .ok json ∧ json.sorted = json
    ∧ json.field? "create_revision" = some (.number (.whole create.toInt))
    ∧ json.field? "modify_revision" = some (.number (.whole modify.toInt))
    ∧ (json.field? "value").map KeyValue.ofJson = some (.ok kv)

theorem logValue_raw : (Item.raw kv).logValue = kv.toJson.render := rfl

theorem parse_logValue : parse (Item.raw kv).logValue = .ok kv := parse_render kv

/-- A quote and a control character in the key are written as escapes. -/
example : (Item.raw ⟨"/\"\x01", [0, 255]⟩).logValue
    = "\x7b\"key\":\"/\\\"\\u0001\",\"value\":[0,255]\x7d" := by decide

/-- **Writing and reading.** -/
theorem survives : Survives kv where
  logValue := ⟨rfl, logValue_raw kv⟩
  parse := parse_logValue kv
  ofJson := ⟨sorted_toJson kv, ofJson_toJson kv⟩
  injective := by
    intro other h
    have hother := parse_logValue other
    rw [h, parse_logValue kv] at hother
    exact (Except.ok.inj hother).symm
  record := by
    intro create modify
    refine ⟨recordJson kv create.toInt modify.toInt, rfl, ?_, ?_, ?_, rfl, rfl, ?_⟩
    · rw [logValue_raw, render_recordJson]
    · exact Json.parse_render (fits_recordJson kv _ _ ⟨create.le_toInt, create.toInt_lt⟩
        ⟨modify.le_toInt, modify.toInt_lt⟩) (by decide)
    · exact sorted_recordJson kv _ _
    · exact congrArg some (ofJson_toJson kv)

end KeyRelay.KeyValue
