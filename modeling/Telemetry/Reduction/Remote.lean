import Telemetry.Network.Link
import Telemetry.Number.Integer
import Telemetry.Reduction.Sink

/-!
# Sinks and reducers behind a link

A sink writes to a key-value store with `SET`, `DEL` and `MSET`, a reducer is asked to combine
stored values with `REDUCE`. A sink whose database has a number selects it on every connection; any
other name of a database is only a label. An empty batch is not sent.
-/
namespace Telemetry

open Resp (Value)

/-- A sink at an address. -/
structure RemoteSink where
  /-- The name of the database. -/
  database : String
  link : Link

namespace RemoteSink

/-- A sink that has not been used. -/
def ofAddress (address database : String) : RemoteSink := ⟨database, { address := address }⟩

/-- The number of the database, if it has one. -/
def selects? (s : RemoteSink) : Option Nat := (IntegerRange.word32.parseNat s.database).toOption

/-- Sends a command; none if the other side stays silent. -/
def perform (net : Network) (s : RemoteSink) (words : List Value) (w : Wire) :
    Option (Except Failure Unit) × RemoteSink × Wire :=
  let (r, link, w) := s.link.perform net s.selects? (.array words) w
  (r, { s with link := link }, w)

/-- Stores a value. -/
def put (net : Network) (s : RemoteSink) (key : String) (value : Bytes) (w : Wire) :
    Option (Except Failure Unit) × RemoteSink × Wire :=
  s.perform net [.text "SET", .text key, .bulk value] w

/-- Deletes a key. -/
def erase (net : Network) (s : RemoteSink) (key : String) (w : Wire) :
    Option (Except Failure Unit) × RemoteSink × Wire :=
  s.perform net [.text "DEL", .text key] w

/-- Stores several values. -/
def multiPut (net : Network) (s : RemoteSink) (entries : List (String × Bytes)) (w : Wire) :
    Option (Except Failure Unit) × RemoteSink × Wire :=
  if entries.isEmpty then (some (.ok ()), s, w)
  else s.perform net
    (.text "MSET" :: entries.flatMap fun (key, value) => [.text key, .bulk value]) w

/-- Deletes several keys. -/
def multiErase (net : Network) (s : RemoteSink) (keys : List String) (w : Wire) :
    Option (Except Failure Unit) × RemoteSink × Wire :=
  if keys.isEmpty then (some (.ok ()), s, w)
  else s.perform net (.text "DEL" :: keys.map Value.text) w

end RemoteSink

/-- A reducer at an address. -/
structure RemoteReducer where
  provider : UInt16
  link : Link

namespace RemoteReducer

/-- A reducer that has not been used. -/
def ofAddress (address : String) (provider : UInt16) : RemoteReducer :=
  ⟨provider, { address := address }⟩

/-- The command for a request. -/
def command (r : ReduceRequest) : Value :=
  Link.command ["REDUCE", r.ns, r.name, r.key, toString r.shard, r.operator.name, toString r.cohort]

/-- Passes a request on; none if the other side stays silent. -/
def reduce (net : Network) (r : RemoteReducer) (request : ReduceRequest) (w : Wire) :
    Option (Except Failure Unit) × RemoteReducer × Wire :=
  let (outcome, link, w) := r.link.perform net none (command request) w
  (outcome, { r with link := link }, w)

end RemoteReducer

end Telemetry
