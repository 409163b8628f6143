import Telemetry.Proofs.Client.Fetch

/-!
# Fetches from any server

Whatever the other side sends, a fetch fails or returns what the last push to its own region held. The
peer chooses the number of pushes, their regions and sizes, and the number of samples that it
announces; what keeps all of this in bounds is that a region could be set aside for as many samples
as were asked for.

## Main definitions

* `Client.readFetched?`: the reading of a reply in words of sixty-four bits.
* `Client.Hears`: what comes off the connection in the exchange of a fetch.
* `Client.IsSafe`: what can be said of the result of a fetch.

## Main statements

* `Client.fetch_of_hears`: the result of a fetch, from what it hears.
* `Client.isSafe_fetch`: every fetch has a result, and a safe one.
-/
namespace Telemetry

open Resp (Limits)

/-! ## Words -/

/-- A product of two words of sixty-four bits; none if it overflows. -/
def mulWord? (a b : Nat) : Option Nat := if a * b < 2 ^ 64 then some (a * b) else none

/-- Unpacks samples; none if bytes are read that are not there. -/
def Sample.unpackAll? (input : Bytes) : Option (Except Failure (List Sample)) :=
  if input.length % packedLength = 0 then
    (Bytes.readMany unpack [] (input.length / packedLength) input).map fun (samples, _) =>
      .ok samples
  else some (unpackAll input)

/-- The first samples in a region; none if their size overflows, or if bytes are taken that are not
there. -/
def Region.samples? (r : Region) (count : Nat) : Option (Except Failure (List Sample)) :=
  (mulWord? count Sample.packedLength).bind fun needed =>
    if r.data.length < needed then some (r.samples count)
    else (r.data.splitAt? needed).bind fun (front, _) => Sample.unpackAll? front

/-- What the reply to a fetch yields; none if the size of the samples overflows, or if bytes are taken
that are not there. -/
def Client.readFetched? (count : Nat) (region : Region) (reply : Frame) :
    Option (Except Failure Fetched) :=
  match reply with
  | .fetch .success announced name ns =>
    if announced < 0 ∨ count < announced.toInt.toNat then some (readFetched count region reply)
    else (region.samples? announced.toInt.toNat).map fun r => r.map fun samples =>
      ⟨samples, announced.toInt.toNat, name, ns⟩
  | _ => some (readFetched count region reply)

theorem Sample.unpackAll?_eq (input : Bytes) : unpackAll? input = some (unpackAll input) := by
  rw [unpackAll?]
  split
  · rename_i hwhole
    have hlength : input.length = input.length / packedLength * packedLength :=
      (Nat.div_mul_cancel (Nat.dvd_of_mod_eq_zero hwhole)).symm
    obtain ⟨samples, hread⟩ := isRecord.exists_readMany_of_le hlength.ge
    unfold unpackAll
    simp only [hread, hwhole, Option.map_some]
  · rfl

variable {region : Region} {count : Nat}

theorem Region.samples?_eq (h : count * Sample.packedLength < 2 ^ 64) (r : Region) :
    r.samples? count = some (r.samples count) := by
  rw [samples?, mulWord?, if_pos h, Option.bind_some]
  by_cases hlt : r.data.length < count * Sample.packedLength
  · rw [if_pos hlt]
  · have hfront : (r.data.take (count * Sample.packedLength)).length
        = count * Sample.packedLength := List.length_take_of_le (Nat.le_of_not_lt hlt)
    rw [if_neg hlt, Bytes.splitAt?, if_pos hfront]
    simp only [Option.bind_some, Sample.unpackAll?_eq, Region.samples, if_neg hlt]

/-- Nothing overflows in reading a reply if the size of as many samples as were asked for does not. -/
theorem Client.readFetched?_eq (h : count * Sample.packedLength < 2 ^ 64) (region : Region)
    (reply : Frame) : readFetched? count region reply = some (readFetched count region reply) := by
  unfold readFetched?
  split
  · rename_i announced name ns
    by_cases hbad : announced < 0 ∨ count < announced.toInt.toNat
    · rw [if_pos hbad]
    · rw [not_or, not_lt] at hbad
      have hsize : announced.toInt.toNat * Sample.packedLength < 2 ^ 64 :=
        (Nat.mul_le_mul_right _ hbad.2).trans_lt h
      rw [if_neg (by simpa using hbad), Region.samples?_eq hsize, Option.map_some, readFetched]
      simp only [Status.check, Status.toFailure?, readSamples, if_neg hbad.1,
        if_neg (Nat.not_lt.mpr hbad.2)]
  · rfl

/-! ## Reading a reply -/

theorem Region.samples_eq_ok {r : Region} {samples : List Sample} (h : r.samples count = .ok samples) :
    samples.length = count ∧ count * Sample.packedLength ≤ r.data.length ∧
      Sample.unpackAll (r.data.take (count * Sample.packedLength)) = .ok samples := by
  rw [Region.samples] at h
  split at h
  · cases h
  · rename_i hle
    rw [Nat.not_lt] at hle
    obtain ⟨samples', hunpack, hlength⟩ :=
      Sample.unpackAll_of_length (List.length_take_of_le hle)
    rw [hunpack] at h
    cases h
    exact ⟨hlength, hle, hunpack⟩

namespace Client

variable {reply : Frame} {fetched : Fetched} {status : Status}

/-- Only a successful reply to a fetch yields samples, as many as it announces and no more than were
asked for. -/
theorem readFetched_eq_ok (h : readFetched count region reply = .ok fetched) :
    ∃ announced : Int64, reply = .fetch .success announced fetched.name fetched.ns ∧
      announced.toInt = fetched.actualCount ∧ fetched.actualCount ≤ count ∧
      region.samples fetched.actualCount = .ok fetched.samples := by
  cases reply with
  | fetch status announced name ns =>
    rw [readFetched] at h
    split at h
    · cases h
    · rename_i hcheck
      obtain ⟨samples, hsamples, rfl⟩ := Failure.map_eq_ok_iff.mp h
      rw [readSamples] at hsamples
      split at hsamples
      · cases hsamples
      · rename_i hnonneg
        simp only at hsamples
        split at hsamples
        · cases hsamples
        · rename_i hle
          have hstatus : status = .success := by
            cases status <;> first | rfl | cases hcheck
          have hcast : announced.toInt = (announced.toInt.toNat : Int) := by
            rw [Int64.lt_iff_toInt_lt, Int64.toInt_zero] at hnonneg
            omega
          subst hstatus
          exact ⟨announced, rfl, hcast, Nat.le_of_not_lt hle, hsamples⟩
  | list | bulk | rejected => cases h

theorem toFailure?_of_ne (h : status ≠ .success) (context : String) :
    ∃ failure, status.toFailure? context = some failure := by
  cases status <;> first | exact absurd rfl h | exact ⟨_, rfl⟩

theorem readFetched_fetch_of_ne (h : status ≠ .success) (announced : Int64) (name ns : String) :
    ∃ failure, readFetched count region (.fetch status announced name ns) = .error failure ∧
      failure.status = status := by
  obtain ⟨failure, hfailure⟩ := toFailure?_of_ne h "fetch"
  refine ⟨failure, ?_, Status.status_of_toFailure? hfailure⟩
  rw [readFetched, Status.check, hfailure]

theorem readFetched_rejected (status : Status) (message : String) :
    ∃ failure, readFetched count region (.rejected status message) = .error failure ∧
      (status ≠ .success → failure.status = status) := by
  refine ⟨rejection "fetch" status message, rfl, ?_⟩
  intro h
  obtain ⟨failure, hfailure⟩ := toFailure?_of_ne h "fetch"
  rw [rejection, hfailure]
  exact Status.status_of_toFailure? hfailure

/-! ## The whole fetch -/

variable {net : Network} {c : Client} {i : Nat} {requested : Int64} {w : Wire} {pushes : List Push}

/-- What comes off the connection in the exchange of a fetch: some pushes, and the first frame that is
none. The region is the one that was set aside. -/
structure Hears (net : Network) (c : Client) (i : Nat) (requested : Int64) (w : Wire)
    (region : Region) (pushes : List Push) (reply : Frame) : Prop where
  region_eq : Region.ofCount w.nextRegion.1 (c.asked requested) = .ok region
  endsExchange : reply.EndsExchange
  reads : ∃ h n e l w' l', c.handles[i]? = some h ∧ h.endpoint? = some n ∧
    c.endpoints[n]? = some e ∧ e.connect net w.nextRegion.2 = (.ok l, w') ∧
    (l.send net (Request.fetch h.provider h.metric (Int64.ofNat (c.asked requested))
      region.descriptor c.token).toValue w').1.Reads (pushes.map .bulk ++ [reply]) l'

/-- A fetch makes of what it hears what the pushes make of the region and the reply of both. -/
theorem fetch_of_hears (hbound : c.maxFetchCount < 2 ^ 63)
    (h : Hears net c i requested w region pushes reply) :
    (c.fetch net i requested w).1 = some ((pushes.foldlM takePush (some region)).bind fun region? =>
      readFetched (c.asked requested) (region?.getD region) reply) := by
  obtain ⟨x, n, e, l, w', l', hx, hn, he, hl, hreads⟩ := h.reads
  have hexchange : e.awaitReply (some region) _ = _ :=
    Endpoint.awaitReply_of_reads h.endsExchange hreads
  rw [fetch, hx]
  simp only [hn, clampCount_eq hbound, fetchThrough, h.region_eq, exchange_fst he]
  congr 1
  rw [Endpoint.exchange, hl]
  simp only [hexchange]
  cases pushes.foldlM takePush (some region) with
  | error failure => rfl
  | ok region? => rfl

/-- A fetch that succeeds heard a reply, and its region took every push before it. -/
theorem hears_of_fetch (hbound : c.maxFetchCount < 2 ^ 63)
    (h : (c.fetch net i requested w).1 = some (.ok fetched)) :
    ∃ region pushes reply, Hears net c i requested w region pushes reply ∧
      ∀ push ∈ pushes, region.Takes push := by
  rw [fetch] at h
  split at h
  · cases h
  · rename_i x hx
    split at h
    · cases h
    · rename_i n hn
      rw [clampCount_eq hbound] at h
      simp only [fetchThrough] at h
      split at h
      · cases h
      · rename_i region hregion
        obtain ⟨reply, hreply, -⟩ := Failure.bind_eq_ok_iff.mp (Option.some.inj h)
        obtain ⟨e, he, hexchange⟩ := exchange_eq_ok hreply
        obtain ⟨l, w', l', hl, hawait⟩ := Endpoint.exchange_eq_ok hexchange
        obtain ⟨pushes, hreads, hend, hfold⟩ := Endpoint.reads_of_awaitReply hawait
        exact ⟨region, pushes, reply.frame,
          ⟨hregion, hend, x, n, e, l, w', l', hx, hn, he, hl, hreads⟩,
          Region.takes_of_foldlM hfold⟩

/-- What can be said of the result of a fetch, whatever the other side sent. -/
structure IsSafe (net : Network) (c : Client) (i : Nat) (requested : Int64) (w : Wire)
    (r : Except Failure Fetched) : Prop where
  /-- Samples come with a successful reply, and are those at the front of the last push. All pushes
  before the reply were for the region of the fetch and fitted it. -/
  ok : ∀ fetched, r = .ok fetched → ∃ region pushes announced,
    Hears net c i requested w region pushes (.fetch .success announced fetched.name fetched.ns) ∧
    announced.toInt = fetched.actualCount ∧
    fetched.samples.length = fetched.actualCount ∧ fetched.actualCount ≤ c.asked requested ∧
    (∀ push ∈ pushes, push.region = region.id ∧ push.payload.length ≤ region.capacity) ∧
    (0 < fetched.actualCount → ∃ push, pushes.getLast? = some push ∧
      24 * fetched.actualCount ≤ push.payload.length ∧
      Sample.unpackAll (push.payload.take (24 * fetched.actualCount)) = .ok fetched.samples)
  /-- A status that is no success is the one of the failure. -/
  failed : ∀ region pushes status announced name ns,
    Hears net c i requested w region pushes (.fetch status announced name ns) →
    (∀ push ∈ pushes, region.Takes push) → status ≠ .success →
    ∃ failure, r = .error failure ∧ failure.status = status
  rejected : ∀ region pushes status message,
    Hears net c i requested w region pushes (.rejected status message) →
    ∃ failure, r = .error failure ∧
      ((∀ push ∈ pushes, region.Takes push) → status ≠ .success → failure.status = status)
  /-- A push that is for another region or does not fit fails the fetch. -/
  refused : ∀ region pushes reply, Hears net c i requested w region pushes reply →
    (∃ push ∈ pushes, ¬ region.Takes push) → ∃ failure, r = .error failure
  /-- Nothing overflows and no bytes are taken that are not there. -/
  checked : ∀ region pushes reply, Hears net c i requested w region pushes reply →
    (∀ push ∈ pushes, region.Takes push) →
    readFetched? (c.asked requested) (region.after pushes) reply = some r
  /-- The numbers in the request are those of the region. -/
  request : ∀ region pushes reply, Hears net c i requested w region pushes reply →
    (Int64.ofNat (c.asked requested)).toInt = c.asked requested ∧
    region.capacity = 24 * c.asked requested ∧ region.descriptor.length.toNat = region.capacity

theorem fetch_of_takes (hbound : c.maxFetchCount < 2 ^ 63)
    (h : Hears net c i requested w region pushes reply) (htakes : ∀ push ∈ pushes, region.Takes push) :
    (c.fetch net i requested w).1
      = some (readFetched (c.asked requested) (region.after pushes) reply) := by
  rw [fetch_of_hears hbound h, Region.foldlM_takePush htakes]
  rfl

theorem fetch_of_not_takes (hbound : c.maxFetchCount < 2 ^ 63)
    (h : Hears net c i requested w region pushes reply)
    (hnot : ∃ push ∈ pushes, ¬ region.Takes push) :
    ∃ failure, (c.fetch net i requested w).1 = some (.error failure) := by
  obtain ⟨failure, hfailure⟩ := Region.exists_error_of_not_takes hnot
  refine ⟨failure, ?_⟩
  rw [fetch_of_hears hbound h, hfailure]
  rfl

/-- A region was set aside for a size that can be allocated. -/
theorem Hears.capacity (h : Hears net c i requested w region pushes reply) :
    region.capacity = c.asked requested * Sample.packedLength ∧
      region.capacity ≤ allocationLimit ∧ region.data = [] := by
  have hregion := h.region_eq
  rw [Region.ofCount] at hregion
  split_ifs at hregion with hword hlimit
  cases hregion
  exact ⟨rfl, Nat.le_of_not_lt hlimit, rfl⟩

theorem exists_result (hbound : c.maxFetchCount < 2 ^ 63) (net : Network) (i : Nat)
    (requested : Int64) (w : Wire) : ∃ r, (c.fetch net i requested w).1 = some r := by
  rw [fetch]
  split
  · exact ⟨_, rfl⟩
  · split
    · exact ⟨_, rfl⟩
    · rw [clampCount_eq hbound]
      exact ⟨_, rfl⟩

/-- What a region holds behind some pushes, if it holds anything, is what the last of them brought. -/
theorem exists_last_of_pos (hdata : region.data = [])
    (hpos : 0 < (region.after pushes).data.length) :
    ∃ push, pushes.getLast? = some push ∧ (region.after pushes).data = push.payload := by
  cases hlast : pushes.getLast? with
  | none => simp [Region.after, hlast, hdata] at hpos
  | some push => exact ⟨push, rfl, by rw [Region.after, hlast]; rfl⟩

/-- What a reply yields is at the front of the last push. -/
theorem Hears.exists_last_of_fetched (h : Hears net c i requested w region pushes reply)
    (hfetched : readFetched (c.asked requested) (region.after pushes) reply = .ok fetched) :
    ∃ announced : Int64, reply = .fetch .success announced fetched.name fetched.ns ∧
      announced.toInt = fetched.actualCount ∧ fetched.samples.length = fetched.actualCount ∧
      fetched.actualCount ≤ c.asked requested ∧
      (0 < fetched.actualCount → ∃ push, pushes.getLast? = some push ∧
        24 * fetched.actualCount ≤ push.payload.length ∧
        Sample.unpackAll (push.payload.take (24 * fetched.actualCount)) = .ok fetched.samples) := by
  obtain ⟨announced, hreply, hcount, hle, hsamples⟩ := readFetched_eq_ok hfetched
  obtain ⟨hlength, hroom, hunpack⟩ := Region.samples_eq_ok hsamples
  refine ⟨announced, hreply, hcount, hlength, hle, fun hpos => ?_⟩
  have hsize : 0 < Sample.packedLength := by decide
  have hneeded : fetched.actualCount * Sample.packedLength = 24 * fetched.actualCount :=
    Nat.mul_comm _ _
  obtain ⟨push, hlast, hdata⟩ := exists_last_of_pos h.capacity.2.2
    ((Nat.mul_pos hpos hsize).trans_le hroom)
  rw [hdata, hneeded] at hroom hunpack
  exact ⟨push, hlast, hroom, hunpack⟩

/-- The region is small enough for its size and its number of samples to be written as they are. -/
theorem Hears.numbers (h : Hears net c i requested w region pushes reply)
    (hbound : c.maxFetchCount < 2 ^ 63) :
    (Int64.ofNat (c.asked requested)).toInt = c.asked requested ∧
      region.capacity = 24 * c.asked requested ∧
      region.descriptor.length.toNat = region.capacity := by
  obtain ⟨hcapacity, hlimit, -⟩ := h.capacity
  have hword : allocationLimit < UInt64.size := by decide
  have hsmall : c.asked requested < 2 ^ 63 := by
    rw [asked]
    omega
  refine ⟨Int64.toInt_ofNat_of_lt hsmall, hcapacity.trans (Nat.mul_comm _ _), ?_⟩
  exact UInt64.toNat_ofNat_of_lt' (by omega)

/-- Every fetch has a result, and a safe one, from whatever the other side sends. -/
theorem isSafe_fetch (hbound : c.maxFetchCount < 2 ^ 63) (net : Network) (i : Nat)
    (requested : Int64) (w : Wire) :
    ∃ r, (c.fetch net i requested w).1 = some r ∧ IsSafe net c i requested w r := by
  obtain ⟨r, hr⟩ := exists_result hbound net i requested w
  refine ⟨r, hr, ?_⟩
  have hread : ∀ {region pushes reply}, Hears net c i requested w region pushes reply →
      (∀ push ∈ pushes, region.Takes push) →
      r = readFetched (c.asked requested) (region.after pushes) reply := by
    intro region pushes reply hhears htakes
    exact Option.some.inj (hr.symm.trans (fetch_of_takes hbound hhears htakes))
  have hrefused : ∀ {region pushes reply}, Hears net c i requested w region pushes reply →
      (∃ push ∈ pushes, ¬ region.Takes push) → ∃ failure, r = .error failure := by
    intro region pushes reply hhears hnot
    obtain ⟨failure, hfailure⟩ := fetch_of_not_takes hbound hhears hnot
    exact ⟨failure, Option.some.inj (hr.symm.trans hfailure)⟩
  constructor
  case ok =>
    intro fetched hok
    obtain ⟨region, pushes, reply, hhears, htakes⟩ := hears_of_fetch hbound (hok ▸ hr)
    have hfetched := (hread hhears htakes).symm.trans hok
    obtain ⟨announced, rfl, hcount, hlength, hle, hlast⟩ := hhears.exists_last_of_fetched hfetched
    exact ⟨region, pushes, announced, hhears, hcount, hlength, hle, htakes, hlast⟩
  case failed =>
    intro region pushes status announced name ns hhears htakes hstatus
    rw [hread hhears htakes]
    exact readFetched_fetch_of_ne hstatus announced name ns
  case rejected =>
    intro region pushes status message hhears
    by_cases htakes : ∀ push ∈ pushes, region.Takes push
    · obtain ⟨failure, hfailure, hstatus⟩ := readFetched_rejected status message
      exact ⟨failure, (hread hhears htakes).trans hfailure, fun _ => hstatus⟩
    · obtain ⟨failure, hfailure⟩ := hrefused hhears (by simpa using htakes)
      exact ⟨failure, hfailure, fun h => absurd h htakes⟩
  case refused =>
    intro region pushes reply hhears hnot
    exact hrefused hhears hnot
  case checked =>
    intro region pushes reply hhears htakes
    obtain ⟨hcapacity, hlimit, -⟩ := hhears.capacity
    have hword : allocationLimit < 2 ^ 64 := by decide
    rw [hread hhears htakes]
    exact readFetched?_eq (by omega) _ _
  case request =>
    intro region pushes reply hhears
    exact hhears.numbers hbound

/-- Two pushes, the second of which replaces the first. -/
def replaced : List Push :=
  [⟨1, Sample.packAll [⟨⟨1⟩, ⟨10⟩, 0⟩, ⟨⟨2⟩, ⟨20⟩, 0⟩]⟩, ⟨1, Sample.packAll [⟨⟨3⟩, ⟨30⟩, 1⟩]⟩]

/-- A peer that sends them and then announces one sample. -/
def restless : Network where
  refusal? _ _ := none
  deliver _ _ :=
    { bytes := encodeFrames (replaced.map .bulk ++ [.fetch .success 1 "load" "cpu"]) }

theorem isSafe_fetch_restless :
    ∃ r, (opened.fetch restless 0 2 {}).1 = some r ∧ IsSafe restless opened 0 2 {} r ∧
      Hears restless opened 0 2 {} ⟨1, 48, []⟩ replaced (.fetch .success 1 "load" "cpu") ∧
      r = .ok ⟨[⟨⟨3⟩, ⟨30⟩, 1⟩], 1, "load", "cpu"⟩ := by
  obtain ⟨r, hr, hsafe⟩ := isSafe_fetch (c := opened) (by decide) restless 0 2 {}
  have hframes : ∀ f ∈ replaced.map Frame.bulk ++ [Frame.fetch .success 1 "load" "cpu"],
      f.KeepsBounds ∧ f.IsNamed ∧ f.IsOneLine := by
    intro f hmem
    simp only [replaced, List.map_cons, List.map_nil, List.cons_append, List.nil_append,
      List.mem_cons, List.not_mem_nil, or_false] at hmem
    rcases hmem with rfl | rfl | rfl
    · exact ⟨show _ ≤ Limits.peer.maxBulk by decide, trivial, trivial⟩
    · exact ⟨show _ ≤ Limits.peer.maxBulk by decide, trivial, trivial⟩
    · exact ⟨trivial, show _ ≤ maxNameLength ∧ _ ≤ maxNamespaceLength by decide, trivial⟩
  have hhears : Hears restless opened 0 2 {} ⟨1, 48, []⟩ replaced
      (.fetch .success 1 "load" "cpu") := by
    have hreads := Connection.reads_encodeFrames hframes ⟨0, "host:1", [], .silent⟩
    exact ⟨rfl, nofun, _, 0, _, _, _, _, rfl, rfl, rfl, rfl, hreads⟩
  have htakes : ∀ push ∈ replaced, Region.Takes ⟨1, 48, []⟩ push := by decide
  refine ⟨r, hr, hsafe, hhears, ?_⟩
  exact Option.some.inj (hr.symm.trans (fetch_of_takes (by decide) hhears htakes))

end Client

end Telemetry
