import Telemetry.Network.Connection
import Telemetry.Protocol.Frame
import Telemetry.Text.Duration

/-!
# Endpoints

An endpoint exchanges requests and replies with one server, one exchange after the other. It
connects when it is first used. Pushes that come before a reply go into the region of the exchange.
An exchange that fails, for whatever reason, drops the connection, so that nothing that belongs to
it can reach a later one.
-/
namespace Telemetry

open Resp (Value)

/-- A lazily connected link to a server. -/
structure Endpoint where
  address : String
  /-- How long an exchange may take. -/
  timeoutMs : Nat
  connection? : Option Connection := none

/-- What an exchange yields: the reply, and the region as the pushes left it. -/
structure Reply where
  frame : Frame
  region? : Option Region

/-- Puts a push into the region of an exchange. -/
def takePush (region? : Option Region) (push : Push) : Except Failure (Option Region) :=
  match region? with
  | none => .error (.transport ("unsolicited bulk push for region " ++ toString push.region.toNat))
  | some region => (region.accept push).map some

namespace Endpoint

/-- The failure of an exchange that took too long. -/
def timedOut (e : Endpoint) : Failure :=
  .transport (e.address ++ " did not answer within " ++ Text.milliseconds e.timeoutMs)

/-- Takes frames off a connection up to the reply. -/
def awaitReply (e : Endpoint) (region? : Option Region) (c : Connection) :
    Except Failure (Reply × Connection) :=
  match _h : c.receive with
  | .nothing => .error e.timedOut
  | .failed failure => .error failure
  | .value v c' =>
    match Frame.ofValue v with
    | .error failure => .error failure
    | .ok (.bulk push) =>
      match takePush region? push with
      | .error failure => .error failure
      | .ok region? => e.awaitReply region? c'
    | .ok frame => .ok (⟨frame, region?⟩, c')
termination_by c.inbox.length
decreasing_by exact Connection.inbox_length_lt_of_receive ‹_›

/-- The connection of an endpoint: the one it has, or a new one. -/
def connect (net : Network) (e : Endpoint) (w : Wire) : Except Failure Connection × Wire :=
  match e.connection? with
  | some c => (.ok c, w)
  | none => Connection.open? net e.address w

/-- Sends a request and waits for the reply. -/
def exchange (net : Network) (e : Endpoint) (request : Value) (region? : Option Region) (w : Wire) :
    Except Failure Reply × Endpoint × Wire :=
  match e.connect net w with
  | (.error failure, w) => (.error failure, { e with connection? := none }, w)
  | (.ok c, w) =>
    let (c, w) := c.send net request w
    match e.awaitReply region? c with
    | .error failure => (.error failure, { e with connection? := none }, w)
    | .ok (reply, c) => (.ok reply, { e with connection? := some c }, w)

end Endpoint

end Telemetry
