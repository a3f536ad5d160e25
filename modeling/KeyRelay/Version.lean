import KeyRelay.Json.Printer

set_option autoImplicit false

/-! # The version that is reported to clients -/

namespace KeyRelay

/-- The version of the server and of the cluster's protocol. -/
structure Version where
  server : String
  cluster : String
  deriving Repr, DecidableEq

namespace Version

/-- The version that clients are told. -/
def current : Version := ⟨"3.5.0-pre", "3.5.0"⟩

/-- The JSON form of a version. -/
def toJson (v : Version) : Json :=
  .object [("etcdserver", .string v.server), ("etcdcluster", .string v.cluster)]

end Version

end KeyRelay
