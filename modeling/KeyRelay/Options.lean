set_option autoImplicit false

/-! # Options

What an adapter is told when it is made: whether log entries go to a logger of its own, and how
many changes a watch stream may fall behind. The building functions keep the capacity at one at
least; a capacity that is set directly is taken as it is. -/

namespace KeyRelay

/-- The options of an adapter. -/
structure Options where
  /-- The adapter has a logger of its own. -/
  logger : Bool := false
  watchCapacity : Nat := 1024
  deriving Repr, DecidableEq, Inhabited

namespace Options

/-- Gives the adapter a logger of its own. -/
def withLogger (o : Options) : Options := { o with logger := true }

/-- Asks for a watch capacity of at least one. -/
def withWatchCapacity (o : Options) (capacity : Nat) : Options :=
  { o with watchCapacity := max capacity 1 }

/-- Sets the watch capacity as it is given. -/
def setWatchCapacity (o : Options) (capacity : Nat) : Options :=
  { o with watchCapacity := capacity }

/-- The fields and their values in text. -/
def shown (o : Options) : List String :=
  ["logger: " ++ toString o.logger, "watch_capacity: " ++ toString o.watchCapacity]

/-- The options on one line. -/
def render (o : Options) : String :=
  "AdapterOptions \x7b " ++ ", ".intercalate o.shown ++ " \x7d"

/-- The options with a line for each. -/
def renderLines (o : Options) : String :=
  "AdapterOptions \x7b\n" ++ String.join (o.shown.map fun line => "    " ++ line ++ ",\n")
    ++ "\x7d"

end Options

end KeyRelay
