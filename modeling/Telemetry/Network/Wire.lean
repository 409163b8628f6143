import Telemetry.Bytes

/-!
# The wire

What a program did on the network is a list of events. A network is what it answers after any such
list: whether a connection is made, and what is delivered on it. So a network can be a running
server, a peer that breaks every rule, or a mixture that changes from moment to moment.

## Main definitions

* `Network`: the other side of all connections.
* `Wire`: the events so far, with the numbers that were given to connections and to receive regions.
-/
namespace Telemetry

/-- How a delivery ends. -/
inductive Ending where
  /-- Nothing more comes for now. -/
  | silent
  /-- The other side closed the connection in good order. -/
  | closed
  /-- The connection broke. -/
  | failed (detail : String)
deriving DecidableEq, Repr

/-- What comes in on a connection after something was sent on it. -/
structure Delivery where
  bytes : Bytes := []
  ending : Ending := .silent
  /-- Why it could not be sent after all, if so. -/
  loss? : Option String := none

/-- Something a program did on the network. -/
inductive WireEvent where
  | opened (address : String)
  | refused (address : String)
  | sent (connection : Nat) (bytes : Bytes)
deriving DecidableEq, Repr

/-- The other side of all connections. The events it looks back on are given newest first. -/
structure Network where
  /-- Why no connection to an address is made, if so. -/
  refusal? : List WireEvent → String → Option String
  /-- What comes in on a connection on which something was just sent. -/
  deliver : List WireEvent → Nat → Delivery

/-- The network on which no connection is made. -/
def Network.unreachable (detail : String → String) : Network :=
  { refusal? := fun _ address => some (detail address)
    deliver := fun _ _ => {} }

/-- What happened on the network, and the numbers that were given out. -/
structure Wire where
  /-- The events so far, newest first. -/
  events : List WireEvent := []
  /-- The number of connections that were made. -/
  connections : Nat := 0
  /-- The number of receive regions that were set aside. -/
  regions : Nat := 0

namespace Wire

/-- The wire after one more event. -/
def record (w : Wire) (e : WireEvent) : Wire := { w with events := e :: w.events }

/-- Tries to connect to an address: the number of the connection, or why there is none. -/
def connect (net : Network) (address : String) (w : Wire) : Except String Nat × Wire :=
  match net.refusal? w.events address with
  | some detail => (.error detail, w.record (.refused address))
  | none =>
    (.ok w.connections, { w.record (.opened address) with connections := w.connections + 1 })

/-- Sends bytes on a connection. -/
def send (net : Network) (connection : Nat) (bytes : Bytes) (w : Wire) : Delivery × Wire :=
  let w := w.record (.sent connection bytes)
  (net.deliver w.events connection, w)

/-- The number of the next receive region. No two regions have the same. -/
def nextRegion (w : Wire) : UInt64 × Wire :=
  (UInt64.ofNat (w.regions + 1), { w with regions := w.regions + 1 })

end Wire

/-- What was sent on a connection, oldest first, given the events newest first. -/
def sentOn (connection : Nat) (events : List WireEvent) : List Bytes :=
  (events.filterMap fun
    | .sent c bytes => if c = connection then some bytes else none
    | _ => none).reverse

end Telemetry
