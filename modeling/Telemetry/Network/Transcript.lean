import Telemetry.Network.Wire
import Telemetry.Protocol.Frame
import Telemetry.Resp.Codec

/-!
# Transcripts

A transcript keeps what a real network answered so far, in the order in which it was asked. It is
itself a network, on which the same calls can be played again; `Transcript.next?` is the first thing
they do that the transcript has no answer for. So a call is carried out on a real network by playing
it, doing what comes next, adding the answer, and playing it once more, until nothing is left to do.
-/
namespace Telemetry

/-- What a network answered so far. -/
structure Transcript where
  /-- Why each attempt to connect was refused, if it was; oldest first. -/
  attempts : List (Option String) := []
  /-- What came in after each thing that was sent, oldest first. -/
  deliveries : List Delivery := []

/-- Whether an event is an attempt to connect. -/
def WireEvent.isAttempt : WireEvent → Bool
  | sent _ _ => false
  | _ => true

namespace Transcript

/-- The transcript as a network. What it has no answer for is refused or stays silent. -/
def network (t : Transcript) : Network :=
  { refusal? := fun events _ =>
      (t.attempts[events.countP WireEvent.isAttempt]?).getD (some "not tried yet")
    deliver := fun events _ =>
      (t.deliveries[events.countP (fun e => !e.isAttempt) - 1]?).getD {} }

/-- The first of some events, oldest first, that is behind the answers. -/
def firstBehind (attempts deliveries : Nat) : List WireEvent → Option WireEvent
  | [] => none
  | e :: rest =>
    match e.isAttempt, attempts, deliveries with
    | true, 0, _ | false, _, 0 => some e
    | true, attempts + 1, deliveries => firstBehind attempts deliveries rest
    | false, attempts, deliveries + 1 => firstBehind attempts deliveries rest

/-- What is to be done next to carry out what happened on a wire. -/
def next? (t : Transcript) (w : Wire) : Option WireEvent :=
  firstBehind t.attempts.length t.deliveries.length w.events.reverse

/-- The transcript with the answer to another attempt to connect. -/
def addAttempt (t : Transcript) (refusal? : Option String) : Transcript :=
  { t with attempts := t.attempts ++ [refusal?] }

/-- The transcript with another delivery. -/
def addDelivery (t : Transcript) (d : Delivery) : Transcript :=
  { t with deliveries := t.deliveries ++ [d] }

end Transcript

/-- Whether a value is a push, which comes before the reply. -/
def isPush (v : Resp.Value) : Bool :=
  match Frame.ofValue v with
  | .ok (.bulk _) => true
  | _ => false

/-- Whether what came in holds all that a caller waits for: a value that is no push, or bytes that
cannot be one. -/
def holdsReply (bytes : Bytes) : Bool :=
  let drained := Resp.Codec.drain .peer bytes
  drained.failure?.isSome || drained.values.any fun v => !isPush v

end Telemetry
