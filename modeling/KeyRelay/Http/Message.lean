set_option autoImplicit false

/-! # Requests and responses -/

namespace KeyRelay.Http

/-- What a client asks: a method, in the case in which it was sent, and a target. -/
structure Request where
  method : String
  target : String
  deriving Repr, DecidableEq

/-- What it is answered. -/
structure Response where
  status : Nat
  headers : List (String × String)
  body : String
  deriving Repr, DecidableEq

/-- The phrase that goes with a status. -/
def reason : Nat → String
  | 200 => "OK"
  | 404 => "Not Found"
  | 405 => "Method Not Allowed"
  | 500 => "Internal Server Error"
  | 503 => "Service Unavailable"
  | _ => ""

/-- The headers of a response, each as one line, in the order of the lines. -/
def Response.headerLines (r : Response) : List String :=
  (r.headers.map fun (name, value) => name ++ ": " ++ value).mergeSort

end KeyRelay.Http
