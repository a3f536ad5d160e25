import KeyRelay.Text.Hidden

set_option autoImplicit false

/-! # Texts and values in messages

A message shows a text between double quotes, with a backslash before quotes and backslashes,
short escapes for the usual controls, and every other hidden character by its number in braces. A
value with named fields is shown by its own name and by these fields in braces. -/

namespace KeyRelay.Text

/-- One character inside a quoted text. -/
def literalChar (c : Char) : List Char :=
  if c = '\x00' then ['\\', '0']
  else if c = '\t' then ['\\', 't']
  else if c = '\r' then ['\\', 'r']
  else if c = '\n' then ['\\', 'n']
  else if c = '\\' then ['\\', '\\']
  else if c = '"' then ['\\', '"']
  else if isHidden c then ['\\', 'u', '\x7b'] ++ Nat.toDigits 16 c.toNat ++ ['\x7d']
  else [c]

/-- A text as a message quotes it. -/
def literal (text : String) : String :=
  String.ofList ('"' :: text.toList.flatMap literalChar ++ ['"'])

/-- A value with named fields as a message shows it. -/
def fielded (name : String) (fields : List (String × String)) : String :=
  name ++ " \x7b " ++ ", ".intercalate (fields.map fun (field, value) => field ++ ": " ++ value)
    ++ " \x7d"

end KeyRelay.Text
