import Telemetry.Provider.Answer
import Telemetry.Resp.Codec

/-!
# Sessions

A session is what a server keeps for one connection: the bytes of a request that is not whole yet.
Whole requests are answered in the order in which they come in. Bytes that cannot be a request are
answered with one rejection, and then the session has ended, because there is no telling where the
next request would begin.
-/
namespace Telemetry

/-- The state of a server's end of a connection. -/
structure Session where
  inbox : Bytes := []
  ended : Bool := false

/-- The bytes of frames, one behind the other. -/
def encodeFrames (frames : List Frame) : Bytes := frames.flatMap fun f => f.toValue.encode

namespace Session

/-- The rejection of bytes that cannot be a request. -/
def rejection (failure : Failure) : Frame := .rejected .transport failure.message

/-- Takes in bytes and answers the requests that they complete. -/
def feed (lookup : UInt16 → Option Provider) (s : Session) (chunk : Bytes) : List Frame × Session :=
  if s.ended then ([], s)
  else
    let drained := Resp.Codec.feed .request s.inbox chunk
    (drained.values.flatMap (answerValue lookup) ++ (drained.failure?.map rejection).toList,
      { inbox := drained.rest, ended := drained.failure?.isSome })

/-- What is answered when the client sends no more: a rejection if it stopped inside a request. -/
def finish (s : Session) : List Frame :=
  if s.ended || s.inbox.isEmpty then []
  else [rejection (.io "bytes remaining on stream")]

/-- The session after several chunks. -/
def after (lookup : UInt16 → Option Provider) (chunks : List Bytes) : Session :=
  chunks.foldl (fun s chunk => (s.feed lookup chunk).2) {}

end Session

end Telemetry
