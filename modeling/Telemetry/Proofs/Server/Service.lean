import Telemetry.Proofs.Network.Events
import Telemetry.Proofs.Server.Replies
import Telemetry.Proofs.Server.Routing

/-!
# A server on the network

A network serves an address if a server answers there, whatever else the network does elsewhere. On
a connection on which nothing but whole requests was sent, the server answers every further request
as if it were the first.

## Main statements

* `Server.serves_network`: a server's own network serves its address.
* `Server.reply_request`: what comes back for a request between requests.
* `Server.Reachable.reads_replies_iff`: which streams of requests a server answers so that its
  replies are read back.
-/
namespace Telemetry

open Resp (Value)

variable {lookup : UInt16 → Option Provider} {chunks : List Bytes} {r : Request}

/-- Whether a server answers at an address. -/
structure Network.Serves (net : Network) (address : String) (s : Server) : Prop where
  accepts : s.accepting = true → ∀ events, net.refusal? events address = none
  delivers : ∀ events n, (openedTo events)[n]? = some address →
    net.deliver events n = s.reply (sentOn n events)

theorem Server.serves_network (s : Server) (address : String) :
    (s.network address).Serves address s where
  accepts h events := by simp [network, h]
  delivers _ _ _ := rfl

namespace Session

/-- Whether chunks leave a session between two requests, whoever answers them. -/
def Between (chunks : List Bytes) : Prop := ∀ lookup, after lookup chunks = {}

theorem between_nil : Between [] := fun _ => rfl

theorem after_append (chunks : List Bytes) (chunk : Bytes) :
    after lookup (chunks ++ [chunk]) = ((after lookup chunks).feed lookup chunk).2 := by
  rw [after, List.foldl_append]
  rfl

theorem drain_request (hr : r.KeepsBounds) :
    Resp.Codec.drain .request r.toValue.encode = ⟨[r.toValue], none, []⟩ := by
  have ha := Request.admits_toValue hr
  have hp := Value.parse_encode_append ha (Value.fits_of_admits (by decide) (by decide) ha) []
  rw [List.append_nil] at hp
  rw [Resp.Codec.drain_of_value hp, Resp.Codec.drain_nil]
  rfl

/-- Between requests, a request is answered and nothing is kept of it. -/
theorem feed_request (hr : r.KeepsBounds) :
    feed lookup {} r.toValue.encode = (r.answer lookup, {}) := by
  rw [Session.feed, if_neg (by decide), Resp.Codec.feed, List.nil_append, drain_request hr]
  simp only [List.flatMap_cons, List.flatMap_nil, answerValue, Request.ofValue_toValue]
  simp

theorem Between.append (h : Between chunks) (hr : r.KeepsBounds) :
    Between (chunks ++ [r.toValue.encode]) := by
  intro lookup
  rw [after_append, h lookup, feed_request hr]

end Session

/-- Between requests, the frames for a request come back and the connection stays open. -/
theorem Server.reply_request (s : Server) (h : Session.Between chunks) (hr : r.KeepsBounds) :
    s.reply (chunks ++ [r.toValue.encode])
      = { bytes := encodeFrames (r.answer s.provider?), ending := .silent } := by
  rw [reply, List.getLast?_concat, List.dropLast_concat]
  simp only [h s.provider?, Session.feed_request hr]
  rfl

/-- Whatever was done to a server and its providers, its replies are read back unless a carriage
return gets into a rejection. -/
theorem Server.Reachable.reads_replies_iff {s : Server} (hs : s.Reachable) (chunks : List Bytes)
    (stops : Bool) (hbounds : ∀ f ∈ Session.replies s.provider? chunks stops, f.KeepsBounds) :
    readFrames (encodeFrames (Session.replies s.provider? chunks stops))
        = some (Session.replies s.provider? chunks stops) ↔
      (∀ v ∈ (Resp.Codec.feedAll .request .empty chunks).values, ∀ failure text,
        Request.ofValue v = .error failure → Request.Repeated text failure →
          Text.IsOneLine text) ∧
      (Resp.Codec.feedAll .request .empty chunks).failure? ≠ some Resp.Codec.crFailure := by
  refine Session.reads_replies_iff chunks stops fun f hf => ⟨hbounds f hf, ?_⟩
  exact Session.isNamed_of_mem_replies (fun _ _ => hs.isNamed) hf

end Telemetry
