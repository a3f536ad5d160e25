import KeyRelay.Json.Basic
import KeyRelay.Json.Lexeme

set_option autoImplicit false

/-! # Names of a closed set

A member of a closed set is written as its name, or as an object whose only field has that name
and the content null. A set is given by its table of names, in the order in which a message lists
them. -/

namespace KeyRelay.Json

/-- A value as messages name it. -/
def found : Json → Found
  | .null => .null
  | .bool value => .bool value
  | .number value => foundAt.ofNumber value
  | .string value => .string value
  | .array _ => .sequence
  | .object _ => .map

/-- The member of this name. -/
def named {α : Type} (table : List (String × α)) (name : String) : Except ReadError α :=
  match table.find? fun (n, _) => n = name with
  | some (_, member) => .ok member
  | none => .error (.unknownVariant name (table.map (·.1)))

/-- A null that is asked for as the content of a member. -/
def readUnit (cs : List Char) : Except ReadError (List Char) :=
  match skipBlanks cs with
  | [] => .error .noValue
  | 'n' :: rest => readWord ['u', 'l', 'l'] rest
  | rest => .error (mismatch "unit" rest)

/-- Past the closing brace of an object that has had its only field. -/
def readOnlyFieldEnd (cs : List Char) : Except ReadError (List Char) :=
  match skipBlanks cs with
  | [] => .error .openObject
  | '\x7d' :: rest => .ok rest
  | _ => .error .unexpected

/-- A member of a closed set at the start of a text. The name is looked up as soon as it is
    read. -/
def readVariant {α : Type} (table : List (String × α)) (cs : List Char) :
    Except ReadError (α × List Char) :=
  match skipBlanks cs with
  | [] => .error .noValue
  | '"' :: rest => do
      let (name, rest) ← readString rest
      let member ← named table (String.ofList name)
      return (member, rest)
  | '\x7b' :: rest => do
      match ← nextField true rest with
      | .finished _ => throw .unexpected
      | .at rest =>
          let (name, rest) ← readString rest
          let member ← named table (String.ofList name)
          let rest ← readColon rest
          let rest ← readUnit rest
          let rest ← readOnlyFieldEnd rest
          return (member, rest)
  | _ => .error .unexpected

/-- Reads a text as a member of a closed set. -/
def parseVariant {α : Type} (table : List (String × α)) (text : String) : Except ReadError α :=
  readEnd (readVariant table text.toList)

/-- Takes a value as a member of a closed set. -/
def toVariant {α : Type} (table : List (String × α)) : Json → Except ReadError α
  | .string name => named table name
  | .object [(name, content)] => do
      let member ← named table name
      if content = .null then return member else throw (.wrongType content.found "unit")
  | .object _ => .error (.wrongValue .map "map with a single key")
  | value => .error (.wrongType value.found "string or map")

end KeyRelay.Json
