set_option autoImplicit false

/-! # Request targets

A target is a path with perhaps a query, as it stands on the server; the same behind a scheme and
an authority; or an authority alone. A fragment is not part of a target. The path behind an
authority is at least a slash. Nothing is decoded and nothing is brought into a normal form, but
that the two common schemes are known in any case and are shown in lower case. -/

namespace KeyRelay.Http

/-- What a request is addressed to. -/
inductive Target where
  | origin (path : String) (query : Option String)
  | absolute (scheme host path : String) (query : Option String)
  | authority (text : String)
  deriving Repr, DecidableEq

namespace Target

/-! ## Reading -/

/-- The part before the first character of this kind, and the part behind that character if there
    is one. -/
def cut (mark : Char) (cs : List Char) : List Char × Option (List Char) :=
  match cs.dropWhile (· ≠ mark) with
  | [] => (cs, none)
  | _ :: behind => (cs.takeWhile (· ≠ mark), some behind)

/-- The path and the query of what follows an authority, without the fragment. -/
def pathAndQuery (cs : List Char) : String × Option String :=
  let (path, query) := cut '?' (cut '#' cs).1
  (String.ofList path, query.map String.ofList)

/-- A character that may stand in a scheme. -/
def inScheme (c : Char) : Bool :=
  c.isAlphanum || c = '+' || c = '-' || c = '.' || c = '~'

/-- A character that ends an authority. -/
def endsAuthority (c : Char) : Bool := c = '/' || c = '?' || c = '#'

/-- The two common schemes in lower case, and any other one as it is. -/
def canonicalScheme (scheme : String) : String :=
  let lower := scheme.map Char.toLower
  if lower = "http" ∨ lower = "https" then lower else scheme

/-- Reads a target. -/
def ofText (text : String) : Target :=
  let cs := text.toList
  if cs.head? = some '/' ∨ text = "*" then
    let (path, query) := pathAndQuery cs
    .origin path query
  else
    match cs.dropWhile inScheme with
    | ':' :: '/' :: '/' :: rest =>
        let (path, query) := pathAndQuery (rest.dropWhile fun c => !endsAuthority c)
        .absolute (canonicalScheme (String.ofList (cs.takeWhile inScheme)))
          (String.ofList (rest.takeWhile fun c => !endsAuthority c))
          (if path = "" then "/" else path) query
    | _ => .authority text

/-! ## Showing -/

/-- A query behind its question mark. -/
def renderQuery : Option String → String
  | none => ""
  | some query => "?" ++ query

/-- The text of a target. -/
def render : Target → String
  | .origin path query => path ++ renderQuery query
  | .absolute scheme host path query =>
      scheme ++ "://" ++ host ++ path ++ renderQuery query
  | .authority text => text

/-- The path on the server; an authority alone has none. -/
def path : Target → String
  | .origin path _ => path
  | .absolute _ _ path _ => path
  | .authority _ => ""

end Target

end KeyRelay.Http
