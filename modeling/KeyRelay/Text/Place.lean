set_option autoImplicit false

/-! # Places at the end of messages

A message may end in the place that it is about, a line and a column. Such a place is shown in
plain decimal notation, and it is not shown at all if its line is zero, since lines count from
one. The place is looked for behind the last mention of a line; what does not read as a place of
two 64-bit numbers is part of the message. -/

namespace KeyRelay.Text

/-- What comes before the number of a line. -/
def lineMark : List Char := " at line ".toList

/-- What comes before the number of a column. -/
def columnMark : List Char := " column ".toList

/-- What is left behind a mark. -/
def behindMark? (mark cs : List Char) : Option (List Char) :=
  if mark.isPrefixOf cs then some (cs.drop mark.length) else none

/-- The parts before and behind the last occurrence of a mark. -/
def cutLast (mark : List Char) : List Char → Option (List Char × List Char)
  | [] => none
  | c :: rest =>
      match cutLast mark rest with
      | some (before, behind) => some (c :: before, behind)
      | none => (behindMark? mark (c :: rest)).map fun behind => ([], behind)

/-- The number that the digits stand for, if there are any and it fits a 64-bit word. -/
def word? (digits : List Char) : Option Nat :=
  let value := Nat.ofDigitChars 10 digits 0
  if digits ≠ [] ∧ value < Nat.pow 2 64 then some value else none

/-- The line and the column of a place, from behind the mark of the line to the end. -/
def place? (cs : List Char) : Option (Nat × Nat) := do
  let column ← behindMark? columnMark (cs.dropWhile Char.isDigit)
  if column.all Char.isDigit then
    return (← word? (cs.takeWhile Char.isDigit), ← word? column)
  else none

/-- A place in a message. -/
def placeChars (line column : Nat) : List Char :=
  lineMark ++ Nat.toDigits 10 line ++ columnMark ++ Nat.toDigits 10 column

/-- A message with the place at its end as it is to be shown. -/
def settlePlace (message : String) : String :=
  match cutLast lineMark message.toList with
  | none => message
  | some (before, behind) =>
      match place? behind with
      | none => message
      | some (0, _) => String.ofList before
      | some (line, column) => String.ofList (before ++ placeChars line column)

end KeyRelay.Text
