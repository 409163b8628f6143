import Telemetry.Proofs.Client.Reached
import Telemetry.Proofs.Client.Received
import Telemetry.Proofs.Protocol.Regions
import Mathlib

/-!
# What a fetch yields

A request for samples goes through a writer, a reader with the bounds on requests, the provider, a
second writer and a reader with the bounds on replies, and its answer through a region. All of that
together yields the newest samples of the metric, bit for bit, or says what was wrong first: the
provider, the token or the metric.

## Main definitions

* `Server.fetched`: what a server has for a fetch.

## Main statements

* `Endpoint.awaitReply_pushes`: an answer is read up to its reply.
* `Client.Reached.fetch_eq`: a fetch yields what the server has.
* `Client.Reached.fetch_served`: so it does of every server there can be.
-/
namespace Telemetry

open Resp (Limits Value)

variable {net : Network} {address : String} {s : Server} {w : Wire} {c : Client} {r : Request}
  {region? : Option Region} {f : Frame} {pushes : List Push} {count : Nat}

/-- The samples that a server has for a fetch, or what is wrong with it. -/
def Server.fetched (s : Server) (token : Option String) (provider : UInt16) (metric : MetricId)
    (count : Nat) : Except Failure Fetched :=
  match s.provider? provider with
  | none => .error (.invalidProvider "fetch")
  | some p =>
    if p.token = none ∨ token = p.token then
      match p.find? metric with
      | none => .error (.invalidMetric "fetch")
      | some m =>
        let k := min (min count p.settings.maxFetchCount) m.buffer.window.length
        .ok { samples := m.buffer.window.drop (m.buffer.window.length - k)
              actualCount := k
              name := m.name
              ns := m.ns }
    else .error .invalidToken

/-! ## Reading an answer -/

namespace Endpoint

variable {e : Endpoint}

/-- An answer is read up to its reply, and its pushes go into the region one after the other. -/
theorem awaitReply_pushes (hf : f.IsReply) (hb : f.KeepsBounds) (hn : f.IsNamed)
    (hp : ∀ push ∈ pushes, push.payload.length ≤ Limits.peer.maxBulk) (l : Connection) :
    e.awaitReply region? { l with inbox := encodeFrames (pushes.map .bulk ++ [f]) }
      = (pushes.foldlM takePush region?).map
          fun region? => (⟨f, region?⟩, { l with inbox := [] }) := by
  have hend : f.EndsExchange := by
    rintro push rfl
    exact hf
  refine awaitReply_of_reads hend (Connection.reads_encodeFrames ?_ l)
  intro f' hmem
  rcases List.mem_append.mp hmem with hmem | hmem
  · obtain ⟨push, hpush, rfl⟩ := List.mem_map.mp hmem
    exact ⟨hp push hpush, trivial, trivial⟩
  · rw [List.mem_singleton.mp hmem]
    exact ⟨hb, hn, hf.isOneLine⟩

/-- A request through an endpoint in step is answered by the server. -/
theorem exchange_eq (hw : w.Consistent) (he : e.InStep address w) (ha : e.address = address)
    (hnet : net.Serves address s) (hopen : s.accepting = true) (hr : r.KeepsBounds)
    (region? : Option Region) :
    ∃ l : Connection, (e.exchange net r.toValue region? w).1
      = (e.awaitReply region? { l with inbox := encodeFrames (r.answer s.provider?) }).map
          Prod.fst := by
  obtain ⟨l, w', hl⟩ : ∃ l w', e.connect net w = (.ok l, w') := by
    unfold connect Connection.open? Wire.connect
    split
    · exact ⟨_, _, rfl⟩
    · rw [ha, hnet.accepts hopen]
      exact ⟨_, _, rfl⟩
  obtain ⟨hla, hstep, -, -⟩ := connect_ok hw he hl
  have hsend := (Connection.send_request hnet hstep (hla.trans ha) hr).1
  refine ⟨l, ?_⟩
  unfold exchange
  simp only [hl, hsend]
  split
  · rename_i hawait
    rw [hawait]
    rfl
  · rename_i hawait
    rw [hawait]
    rfl

end Endpoint

/-! ## Reading an answer into a region -/

/-- A count of samples that fit into one push is a small number. -/
theorem lt_of_fits_push (h : count * Sample.packedLength ≤ Limits.peer.maxBulk) :
    count < 2 ^ 63 := by
  have hpeer : Limits.peer.maxBulk < 2 ^ 63 := by decide
  have hpos : 0 < Sample.packedLength := by decide
  have := Nat.le_mul_of_pos_right count hpos
  omega

theorem not_ofNat_neg (h : count < 2 ^ 63) : ¬ Int64.ofNat count < 0 := by
  rw [Int64.lt_iff_toInt_lt, Int64.toInt_ofNat_of_lt h]
  simp

/-- Whether a region can take the pushes before a reply, and what is read of them then. -/
inductive Region.Yields (region : Region) (count : Nat) :
    List Frame → Except Failure Fetched → Prop where
  | intro (pushes : List Push) {f : Frame} {filled : Region} (isReply : f.IsReply)
      (keepsBounds : f.KeepsBounds) (isNamed : f.IsNamed)
      (payload : ∀ push ∈ pushes, push.payload.length ≤ Limits.peer.maxBulk)
      (taken : pushes.foldlM takePush (some region) = .ok (some filled)) :
      region.Yields count (pushes.map .bulk ++ [f]) (Client.readFetched count filled f)

namespace Client

variable {samples : List Sample}

theorem readFetched_fetchFailed {status : Status} {failure : Failure} {region : Region}
    (h : status.toFailure? "fetch" = some failure) :
    readFetched count region (.fetchFailed status) = .error failure := by
  rw [Frame.fetchFailed, readFetched, Status.check, h]

theorem readFetched_packAll (hle : samples.length ≤ count) (hcount : count < 2 ^ 63) (id : UInt64)
    (capacity : Nat) (name ns : String) :
    readFetched count ⟨id, capacity, Sample.packAll samples⟩
        (.fetch .success (Int64.ofNat samples.length) name ns)
      = .ok ⟨samples, samples.length, name, ns⟩ := by
  have hlt := hle.trans_lt hcount
  rw [readFetched]
  simp only [Status.check, Status.toFailure?, readSamples, if_neg (not_ofNat_neg hlt),
    Int64.toInt_ofNat_of_lt hlt, Int.toNat_natCast, if_neg (Nat.not_lt.mpr hle),
    Region.samples_packAll]
  rfl

end Client

theorem Region.Yields.awaitReply {region : Region} {frames : List Frame}
    {result : Except Failure Fetched} (h : region.Yields count frames result) (e : Endpoint)
    (l : Connection) :
    ∃ reply l', e.awaitReply (some region) { l with inbox := encodeFrames frames }
        = .ok (reply, l') ∧
      Client.readFetched count (reply.region?.getD region) reply.frame = result := by
  cases h with
  | intro pushes isReply keepsBounds isNamed payload taken =>
    rw [Endpoint.awaitReply_pushes isReply keepsBounds isNamed payload, taken]
    exact ⟨_, _, rfl, rfl⟩

/-- A failed fetch fails for the client as well. -/
theorem Region.yields_fetchFailed {status : Status} {failure : Failure}
    (h : status.toFailure? "fetch" = some failure) (region : Region) :
    region.Yields count [.fetchFailed status] (.error failure) := by
  rw [← Client.readFetched_fetchFailed h]
  exact .intro [] trivial trivial (Frame.isNamed_fetchFailed status) nofun rfl

namespace Provider

variable {p : Provider} {m : Metric} {id : UInt64}

/-- What is delivered of a metric is read, bit for bit. -/
theorem yields_deliver (hm : m.IsNamed)
    (hcount : count * Sample.packedLength ≤ Limits.peer.maxBulk) (p : Provider) :
    Region.Yields ⟨id, count * Sample.packedLength, []⟩ count
      (p.deliver m count (Region.descriptor ⟨id, count * Sample.packedLength, []⟩))
      (.ok ⟨p.newest m count, p.delivered m count, m.name, m.ns⟩) := by
  have hlimit : count * Sample.packedLength ≤ allocationLimit := hcount.trans (by decide)
  have hle : (p.newest m count).length ≤ count := p.length_newest m count ▸ p.delivered_le m count
  have hread := Client.readFetched_packAll hle (lt_of_fits_push hcount) id
    (count * Sample.packedLength) m.name m.ns
  rw [p.deliver_eq m (Region.sampleCapacity_descriptor hlimit)]
  rw [p.length_newest] at hread
  rw [← hread]
  split
  · -- nothing is pushed, and the region stays empty
    rename_i hnone
    have hnil : p.newest m count = [] := by
      rw [← List.length_eq_zero_iff, p.length_newest, hnone]
    rw [hnil]
    exact .intro [] trivial trivial ⟨hm.1, hm.2⟩ nofun rfl
  · refine .intro [_] trivial trivial ⟨hm.1, hm.2⟩ ?_ ?_
    · intro push hpush
      rw [List.mem_singleton.mp hpush, Sample.length_packAll]
      exact (Nat.mul_le_mul_right _ hle).trans hcount
    · rw [List.foldlM_cons, takePush]
      simp only [Region.descriptor, Region.accept_packAll hle]
      rfl

end Provider

/-- The answer to a fetch is read as what the server has. -/
theorem Server.yields_fetch (hnamed : ∀ number p, s.provider? number = some p → p.IsNamed)
    (hcount : count * Sample.packedLength ≤ Limits.peer.maxBulk) (id : UInt64) (provider : UInt16)
    (metric : MetricId) (token : Option String) :
    Region.Yields ⟨id, count * Sample.packedLength, []⟩ count
      ((Request.fetch provider metric (Int64.ofNat count)
        (Region.descriptor ⟨id, count * Sample.packedLength, []⟩) token).answer s.provider?)
      (s.fetched token provider metric count) := by
  have hlt := lt_of_fits_push hcount
  unfold Request.answer fetched
  simp only [Request.provider]
  cases hp : s.provider? provider with
  | none => exact Region.yields_fetchFailed rfl _
  | some p =>
    simp only [Provider.answerFetch, p.authorize_eq]
    by_cases htoken : p.token = none ∨ token = p.token
    · simp only [if_pos htoken, if_neg (not_ofNat_neg hlt)]
      cases hm : p.find? metric with
      | none => exact Region.yields_fetchFailed rfl _
      | some m =>
        have hnames : m.IsNamed := Registry.All.of_find? (hnamed _ _ hp) hm
        simp only [Int64.toInt_ofNat_of_lt hlt, Int.toNat_natCast]
        exact p.yields_deliver hnames hcount
    · simp only [if_neg htoken]
      exact Region.yields_fetchFailed rfl _

/-! ## The whole fetch -/

namespace Client

/-- The number of samples that a client asks for. -/
def asked (c : Client) (requested : Int64) : Nat :=
  (max 0 (min requested.toInt c.maxFetchCount)).toNat

theorem clampCount_eq (h : c.maxFetchCount < 2 ^ 63) (requested : Int64) :
    clampCount c.maxFetchCount requested = some (c.asked requested) := by
  have h' : c.maxFetchCount < 0x8000000000000000 := h
  rw [clampCount, if_pos h', asked]
  congr 1
  omega

theorem exchange_fst {e : Endpoint} {n : Nat} (he : c.endpoints[n]? = some e) :
    (c.exchange net n r region? w).1 = (e.exchange net r.toValue region? w).1 := by
  rw [exchange, he]

theorem exchange_eq_ok {reply : Reply} {n : Nat}
    (h : (c.exchange net n r region? w).1 = .ok reply) :
    ∃ e, c.endpoints[n]? = some e ∧ (e.exchange net r.toValue region? w).1 = .ok reply := by
  cases he : c.endpoints[n]? with
  | none =>
    rw [exchange, he] at h
    cases h
  | some e => exact ⟨e, rfl, (exchange_fst he).symm.trans h⟩

theorem fetchThrough_eq (h : c.InStep address w) (hnet : net.Serves address s)
    (hopen : s.accepting = true) (hnamed : ∀ number p, s.provider? number = some p → p.IsNamed)
    {e : Endpoint} {n : Nat} (he : c.endpoints[n]? = some e) (ha : e.address = address)
    (hcount : count * Sample.packedLength ≤ Limits.peer.maxBulk) (x : Handle) :
    (c.fetchThrough net x n count w).1 = s.fetched c.token x.provider x.metric count := by
  have hlimit : count * Sample.packedLength ≤ allocationLimit := hcount.trans (by decide)
  have hnumbered := h.nextRegion
  have hyields := Server.yields_fetch hnamed hcount w.nextRegion.1 x.provider x.metric c.token
  unfold fetchThrough
  simp only [Region.ofCount_eq_ok hlimit]
  obtain ⟨l, hl⟩ := Endpoint.exchange_eq (r := .fetch ..) hnumbered.consistent
    (hnumbered.endpoints n e he) ha hnet hopen h.token (some _)
  obtain ⟨reply, l', hawait, hread⟩ := hyields.awaitReply e l
  rw [exchange_fst he, hl, hawait]
  exact hread

/-- A fetch through a handle in use goes to the address of the handle. -/
theorem Reached.exists_fetch_eq (hreached : Reached address c w) {i : Nat} {h : Handle}
    (hh : c.handles[i]? = some h) (hrefs : 0 < h.refs) (hbound : c.maxFetchCount < 2 ^ 63)
    (net : Network) (requested : Int64) :
    ∃ n e, c.endpoints[n]? = some e ∧ e.address = h.address ∧
      (c.fetch net i requested w).1 = some (c.fetchThrough net h n (c.asked requested) w).1 := by
  obtain ⟨n, e, hn, he, hea⟩ := hreached.inStep.handles i h hh hrefs
  refine ⟨n, e, he, hea, ?_⟩
  rw [Client.fetch, hh]
  simp only [hn, clampCount_eq hbound]

/-- A gauge with three samples. -/
def gauge : Metric where
  id := ⟨5⟩
  ns := "cpu"
  name := "load"
  description := ""
  tags := .empty
  operator := .null
  buffer := ⟨.gauge, 4, #[⟨⟨1⟩, ⟨10⟩, 0⟩, ⟨⟨2⟩, ⟨20⟩, 0⟩, ⟨⟨3⟩, ⟨30⟩, 1⟩], by decide, by decide⟩
  context := none

/-- A server with one provider, which has the gauge and wants a token. -/
def guarded : Server where
  providers := #[{
    id := 7
    token := some "secret"
    finalizeOnShutdown := false
    settings := {}
    registry := (Registry.empty 4).setShard ⟨5⟩ [(⟨5⟩, gauge)] 1
    backends := {}
    engine := {}
    interval? := none }]
  routes := [(7, 0)]

/-- A client that shows the token and has opened a handle to the gauge. -/
def opened : Client where
  token := some "secret"
  handles := #[{ address := "host:1", provider := 7, metric := ⟨5⟩, endpoint? := some 0 }]
  endpoints := #[{ address := "host:1", timeoutMs := 10000 }]
  known := [("host:1", 0)]
  openHandles := 1

/-- Whatever was done to the server and its providers, a fetch yields what the server has. -/
theorem Reached.fetch_served (hreached : Reached address c w) (hs : s.Reachable)
    (hnet : net.Serves address s) (hopen : s.accepting = true) {i : Nat} {h : Handle}
    (hh : c.handles[i]? = some h) (hrefs : 0 < h.refs) (ha : h.address = address)
    (hbound : c.maxFetchCount < 2 ^ 63) (requested : Int64)
    (hcount : c.asked requested * Sample.packedLength ≤ Limits.peer.maxBulk) :
    (c.fetch net i requested w).1
      = some (s.fetched c.token h.provider h.metric (c.asked requested)) := by
  obtain ⟨n, e, he, hea, hfetch⟩ := hreached.exists_fetch_eq hh hrefs hbound net requested
  have hnamed : ∀ number p, s.provider? number = some p → p.IsNamed := fun _ _ => hs.isNamed
  rw [hfetch, fetchThrough_eq hreached.inStep hnet hopen hnamed he (hea.trans ha) hcount h]

end Client

end Telemetry
