import KeyRelay.Key

set_option autoImplicit false

/-! # Watch patterns

A pattern that ends in a star stands for the keys that begin with what is left of it without that
one star; any other pattern stands for itself. -/

namespace KeyRelay

/-- Which keys a watcher wants to hear of. -/
abbrev Pattern := String

namespace Pattern

/-- What comes before the star at the end of a pattern. -/
def stem? (pattern : Pattern) : Option Key :=
  if pattern.toList.getLast? = some '*' then some (String.ofList pattern.toList.dropLast)
  else none

/-- The pattern stands for the key. -/
def accepts (pattern : Pattern) (key : Key) : Bool :=
  match pattern.stem? with
  | some stem => Key.beginsWith key stem
  | none => key = pattern

end Pattern

end KeyRelay
