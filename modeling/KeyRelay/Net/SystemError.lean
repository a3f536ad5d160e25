import KeyRelay.Text.Literal

set_option autoImplicit false

/-! # Errors of the operating system

An error is known by its number, by its kind, or by a kind with a text of its own. Of the numbers
only those have a text and a kind here that binding an address and serving on it bring. -/

namespace KeyRelay.Net

/-- The kinds of system error that occur while binding and serving. -/
inductive ErrorKind where
  | addrInUse
  | addrNotAvailable
  | permissionDenied
  | connectionReset
  | connectionRefused
  | brokenPipe
  | timedOut
  | unexpectedEof
  | interrupted
  | notFound
  | invalidData
  | other
  deriving Repr, DecidableEq

/-- The kinds by name. -/
def ErrorKind.table : List (String × ErrorKind) :=
  [("AddrInUse", .addrInUse), ("AddrNotAvailable", .addrNotAvailable),
    ("PermissionDenied", .permissionDenied), ("ConnectionReset", .connectionReset),
    ("ConnectionRefused", .connectionRefused), ("BrokenPipe", .brokenPipe),
    ("TimedOut", .timedOut), ("UnexpectedEof", .unexpectedEof), ("Interrupted", .interrupted),
    ("NotFound", .notFound), ("InvalidData", .invalidData), ("Other", .other)]

/-- The name of a kind. -/
def ErrorKind.name : ErrorKind → String
  | .addrInUse => "AddrInUse"
  | .addrNotAvailable => "AddrNotAvailable"
  | .permissionDenied => "PermissionDenied"
  | .connectionReset => "ConnectionReset"
  | .connectionRefused => "ConnectionRefused"
  | .brokenPipe => "BrokenPipe"
  | .timedOut => "TimedOut"
  | .unexpectedEof => "UnexpectedEof"
  | .interrupted => "Interrupted"
  | .notFound => "NotFound"
  | .invalidData => "InvalidData"
  | .other => "Other"

/-- The kind of this name. -/
def ErrorKind.ofName? (name : String) : Option ErrorKind :=
  (table.find? fun (n, _) => n = name).map (·.2)

/-- The wording of a kind. -/
def ErrorKind.message : ErrorKind → String
  | .addrInUse => "address in use"
  | .addrNotAvailable => "address not available"
  | .permissionDenied => "permission denied"
  | .connectionReset => "connection reset"
  | .connectionRefused => "connection refused"
  | .brokenPipe => "broken pipe"
  | .timedOut => "timed out"
  | .unexpectedEof => "unexpected end of file"
  | .interrupted => "operation interrupted"
  | .notFound => "entity not found"
  | .invalidData => "invalid data"
  | .other => "other error"

/-- An error of the operating system. -/
inductive SystemError where
  | numbered (number : Int)
  | ofKind (kind : ErrorKind)
  | described (kind : ErrorKind) (text : String)
  deriving Repr, DecidableEq

/-- The system's wording for an error number. -/
def numberText (number : Int) : String :=
  match number with
  | 1 => "Operation not permitted"
  | 2 => "No such file or directory"
  | 13 => "Permission denied"
  | 98 => "Address already in use"
  | 99 => "Cannot assign requested address"
  | 104 => "Connection reset by peer"
  | 111 => "Connection refused"
  | n => "Unknown error " ++ toString n

/-- The kind of the error that has this number. -/
def numberKind? (number : Int) : Option ErrorKind :=
  match number with
  | 1 | 13 => some .permissionDenied
  | 2 => some .notFound
  | 98 => some .addrInUse
  | 99 => some .addrNotAvailable
  | 104 => some .connectionReset
  | 111 => some .connectionRefused
  | _ => none

/-- The wording of a system error. -/
def SystemError.message : SystemError → String
  | .numbered number => numberText number ++ " (os error " ++ toString number ++ ")"
  | .ofKind kind => kind.message
  | .described _ text => text

/-- A system error as the log shows it, its kind included. -/
def SystemError.detailed : SystemError → String
  | .numbered number =>
      Text.fielded "Os"
        [("code", toString number),
          ("kind", ((numberKind? number).map ErrorKind.name).getD "Uncategorized"),
          ("message", Text.literal (numberText number))]
  | .ofKind kind => "Kind(" ++ kind.name ++ ")"
  | .described kind text =>
      Text.fielded "Custom" [("kind", kind.name), ("error", Text.literal text)]

end KeyRelay.Net
