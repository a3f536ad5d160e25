set_option autoImplicit false

/-! # JSON strings, written

A quote and a backslash are written after a backslash, the five controls that have a short escape
by that escape, every other control below the space as four lower-case hexadecimal digits, and
everything else as it is. -/

namespace KeyRelay.Text

/-- One character inside a JSON string. -/
def quotedChar (c : Char) : List Char :=
  if c = '"' then ['\\', '"']
  else if c = '\\' then ['\\', '\\']
  else if c = '\x08' then ['\\', 'b']
  else if c = '\t' then ['\\', 't']
  else if c = '\n' then ['\\', 'n']
  else if c = '\x0c' then ['\\', 'f']
  else if c = '\r' then ['\\', 'r']
  else if c.toNat < 32 then
    ['\\', 'u', '0', '0', Nat.digitChar (c.toNat / 16), Nat.digitChar (c.toNat % 16)]
  else [c]

/-- The characters of a JSON string after its opening quote, the closing quote included. -/
def quotedTail (cs : List Char) : List Char := cs.flatMap quotedChar ++ ['"']

/-- A JSON string with both quotes. -/
def quoted (cs : List Char) : List Char := '"' :: quotedTail cs

end KeyRelay.Text
