import Telemetry.Network.Wire
import Telemetry.Resp.Codec

/-!
# Connections

A connection sends values and takes whole values off what comes in. A value that is not whole when
the other side closes the connection, or that cannot be one, is a failure.
-/
namespace Telemetry

open Resp (Value)

/-- A connection to an address. -/
structure Connection where
  number : Nat
  address : String
  /-- What came in and was not taken off yet. -/
  inbox : Bytes := []
  /-- What comes behind the inbox. -/
  ending : Ending := .silent

/-- What is at the front of a connection. -/
inductive Receipt where
  | value (v : Value) (c : Connection)
  /-- No whole value, and nothing more for now. -/
  | nothing
  | failed (failure : Failure)

namespace Connection

/-- Connects to an address. -/
def open? (net : Network) (address : String) (w : Wire) : Except Failure Connection × Wire :=
  match w.connect net address with
  | (.error detail, w) => (.error (.transport ("connect " ++ address ++ ": " ++ detail)), w)
  | (.ok number, w) => (.ok { number := number, address := address }, w)

/-- Sends a value. What comes in on it goes behind what came in before, unless the other side is
gone. A connection on which it cannot be sent has broken, and what came in before is lost as well. -/
def send (net : Network) (c : Connection) (v : Value) (w : Wire) : Connection × Wire :=
  let (delivery, w) := w.send net c.number v.encode
  match delivery.loss? with
  | some detail => ({ c with inbox := [], ending := .failed detail }, w)
  | none =>
    if c.ending = .silent then
      ({ c with inbox := c.inbox ++ delivery.bytes, ending := delivery.ending }, w)
    else (c, w)

/-- Takes a value off. -/
def receive (c : Connection) : Receipt :=
  match Resp.Codec.decode .peer c.inbox with
  | .error failure => .failed failure
  | .ok (some (v, rest)) => .value v { c with inbox := rest }
  | .ok none =>
    match c.ending with
    | .silent => .nothing
    | .failed detail => .failed (.transport (c.address ++ ": " ++ detail))
    | .closed =>
      if c.inbox.isEmpty then .failed (.transport (c.address ++ " closed the connection"))
      else .failed (.transport (c.address ++ ": bytes remaining on stream"))

theorem inbox_length_lt_of_receive {c c' : Connection} {v : Value}
    (h : c.receive = .value v c') : c'.inbox.length < c.inbox.length := by
  unfold receive at h
  split at h
  · cases h
  · cases h
    exact Resp.Codec.length_lt_of_decode ‹_›
  · split at h
    · cases h
    · cases h
    · split at h <;> cases h

/-- Sends a value and takes the next one off. -/
def call (net : Network) (c : Connection) (v : Value) (w : Wire) : Receipt × Wire :=
  let (c, w) := c.send net v w
  (c.receive, w)

end Connection

end Telemetry
