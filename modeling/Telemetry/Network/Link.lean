import Telemetry.Network.Connection

/-!
# Links to a key-value store

A link connects when it is first used and keeps the connection as long as every call succeeds. After
a failed call the next one starts on a new connection. If the store has several databases, the link
selects one on every new connection before it sends anything else, and a connection on which that
was refused is not used. A call waits for its answer as long as it takes: on a connection that stays
silent it has no result.
-/
namespace Telemetry

open Resp (Value)

/-- A link to an address. -/
structure Link where
  address : String
  connection? : Option Connection := none

/-- Whether an answer acknowledges a command. -/
def acknowledged : Value → Except Failure Unit
  | .simple _ | .integer _ => .ok ()
  | .error text => .error (.sink text)
  | v => .error (.sink ("unexpected reply " ++ v.quoted))

namespace Link

/-- A command as an array of texts. -/
def command (words : List String) : Value := .array (words.map Value.text)

/-- Selects a database on a new connection; none if the other side stays silent. -/
def select (net : Network) (database? : Option Nat) (c : Connection) (w : Wire) :
    Option (Except Failure Connection) × Wire :=
  match database? with
  | none => (some (.ok c), w)
  | some database =>
    match c.call net (command ["SELECT", toString database]) w with
    | (.nothing, w) => (none, w)
    | (.failed failure, w) => (some (.error failure), w)
    | (.value v c, w) => (some ((acknowledged v).map fun _ => c), w)

/-- The connection of a link: the one it has, or a new one. -/
def connect (net : Network) (l : Link) (database? : Option Nat) (w : Wire) :
    Option (Except Failure Connection) × Wire :=
  match l.connection? with
  | some c => (some (.ok c), w)
  | none =>
    match Connection.open? net l.address w with
    | (.error failure, w) => (some (.error failure), w)
    | (.ok c, w) => select net database? c w

/-- Sends a request and waits for its answer; none if the other side stays silent. -/
def call (net : Network) (l : Link) (database? : Option Nat) (request : Value) (w : Wire) :
    Option (Except Failure Value) × Link × Wire :=
  match l.connect net database? w with
  | (none, w) => (none, { l with connection? := none }, w)
  | (some (.error failure), w) => (some (.error failure), { l with connection? := none }, w)
  | (some (.ok c), w) =>
    match c.call net request w with
    | (.nothing, w) => (none, { l with connection? := none }, w)
    | (.failed failure, w) => (some (.error failure), { l with connection? := none }, w)
    | (.value v c, w) => (some (.ok v), { l with connection? := some c }, w)

/-- Sends a command and waits for it to be acknowledged; none if the other side stays silent. A
refused command leaves the connection in use. -/
def perform (net : Network) (l : Link) (database? : Option Nat) (request : Value) (w : Wire) :
    Option (Except Failure Unit) × Link × Wire :=
  match l.call net database? request w with
  | (none, l, w) => (none, l, w)
  | (some (.error failure), l, w) => (some (.error failure), l, w)
  | (some (.ok v), l, w) => (some (acknowledged v), l, w)

end Link

end Telemetry
