import KeyRelay.Http.Target
import KeyRelay.LogEntry
import KeyRelay.Version

set_option autoImplicit false

/-! # The routes

There is one route, the version, and its path has to be given exactly. It can be read and probed;
any other method is told so. Each request is noted when it comes in, when its handling starts and
when it is answered. -/

namespace KeyRelay.Http

/-- The path of the version. -/
def versionPath : String := "/version"

/-- The methods of the version's route. -/
def allowed : String := "GET,HEAD"

/-- A response without a body. -/
def emptyResponse (status : Nat) (headers : List (String × String)) : Response :=
  { status, headers := headers ++ [("content-length", "0")], body := "" }

/-- The version as a response. -/
def versionResponse : Response :=
  let body := Version.current.toJson.render
  { status := 200
    headers :=
      [("content-type", "application/json"), ("content-length", toString body.utf8ByteSize)]
    body }

/-- The response to a request. Methods are told apart by case. -/
def respond (r : Request) : Response :=
  if (Target.ofText r.target).path ≠ versionPath then emptyResponse 404 []
  else if r.method = "GET" then versionResponse
  else if r.method = "HEAD" then { versionResponse with body := "" }
  else emptyResponse 405 [("allow", allowed)]

/-- What is noted of a request. -/
def entries (r : Request) : List LogEntry :=
  [.requested r.method (Target.ofText r.target).render, .requestStarted,
    .requestFinished (respond r).status]

/-- The status line of a response. -/
def Response.statusLine (r : Response) : String :=
  "HTTP/1.1 " ++ toString r.status ++ " " ++ reason r.status

end KeyRelay.Http
