import Telemetry.Proofs.Client.Fetch
import Telemetry.Proofs.Network.Answers
import Mathlib

/-!
# The count that a fetch asks for

A fetch asks for what is wanted, but for no fewer samples than none and for no more than the
client's bound. The bound may be any word, and it is compared as a signed one. So a bound of
`2 ^ 63` or more leaves nothing between it and zero: such a client fetches nothing at all, whatever
is wanted.

## Main definitions

* `Client.Asks`: what can become of a fetch that asks for a count.

## Main statements

* `Client.asks_fetch`: below that bound a fetch asks for the count between zero and the bound.
* `Client.fetch_of_le`: from that bound on it has no result and does nothing.
* `Client.exists_asks_iff`: both together.
-/
namespace Telemetry

/-- Room is refused because the size is no word, or because nobody could set it aside. -/
theorem Region.of_ofCount_error {id : UInt64} {count : Nat} {failure : Failure}
    (h : Region.ofCount id count = .error failure) :
    ∃ text, failure = .invalidArgs text ∨ failure = .allocation text := by
  unfold ofCount at h
  simp only at h
  split_ifs at h
  · cases h
    exact ⟨_, .inl rfl⟩
  · cases h
    exact ⟨_, .inr rfl⟩

/-- An exchange that gets a connection sends its request on it, and nothing else. -/
theorem Endpoint.wire_exchange {net : Network} {e : Endpoint} {w w' : Wire} {l : Connection}
    (h : e.connect net w = (.ok l, w')) (request : Resp.Value) (region? : Option Region) :
    (e.exchange net request region? w).2.2 = w'.record (.sent l.number request.encode) := by
  rw [exchange, h]
  simp only
  split
  · exact l.wire_send net request w'
  · exact l.wire_send net request w'

theorem Endpoint.exchange_of_error {net : Network} {e : Endpoint} {w w' : Wire} {failure : Failure}
    (h : e.connect net w = (.error failure, w')) (request : Resp.Value) (region? : Option Region) :
    e.exchange net request region? w = (.error failure, { e with connection? := none }, w') := by
  rw [exchange, h]

namespace Client

variable {net : Network} {c : Client} {i n : Nat} {x : Handle} {e : Endpoint} {w : Wire}
  {requested : Int64}

/-- What can become of a fetch that asks for a count: its result and the wire behind it. -/
inductive Asks (net : Network) (c : Client) (x : Handle) (e : Endpoint) (count : Int64) (w : Wire) :
    Option (Except Failure Fetched) → Wire → Prop where
  /-- There is no room for so many samples, and nothing is done. -/
  | noRoom (failure : Failure)
      (hregion : Region.ofCount w.nextRegion.1 count.toInt.toNat = .error failure)
      (hfailure : ∃ text, failure = .invalidArgs text ∨ failure = .allocation text) :
      Asks net c x e count w (some (.error failure)) w
  /-- There is no connection on which to ask. -/
  | unreached (region : Region) (failure : Failure) (w' : Wire)
      (hregion : Region.ofCount w.nextRegion.1 count.toInt.toNat = .ok region)
      (hconnect : e.connect net w.nextRegion.2 = (.error failure, w')) :
      Asks net c x e count w (some (.error failure)) w'
  /-- The request is sent, and something comes of it. -/
  | sent (region : Region) (l : Connection) (w' : Wire) (r : Except Failure Fetched)
      (hregion : Region.ofCount w.nextRegion.1 count.toInt.toNat = .ok region)
      (hconnect : e.connect net w.nextRegion.2 = (.ok l, w')) :
      Asks net c x e count w (some r) (w'.record (.sent l.number
        (Request.fetch x.provider x.metric count region.descriptor c.token).toValue.encode))

/-- The count is sent as it is. -/
theorem toInt_asked (hbound : c.maxFetchCount < 2 ^ 63) (requested : Int64) :
    (Int64.ofNat (c.asked requested)).toInt
      = max 0 (min requested.toInt (c.maxFetchCount : Int)) := by
  have hlt : c.asked requested < 2 ^ 63 := by
    rw [asked]
    omega
  rw [Int64.toInt_ofNat_of_lt hlt, asked]
  omega

theorem asks_fetch (hx : c.handles[i]? = some x) (hn : x.endpoint? = some n)
    (he : c.endpoints[n]? = some e) (hbound : c.maxFetchCount < 2 ^ 63) (net : Network)
    (requested : Int64) (w : Wire) :
    Asks net c x e (Int64.ofNat (c.asked requested)) w (c.fetch net i requested w).1
      (c.fetch net i requested w).2.2 := by
  have hcount : (Int64.ofNat (c.asked requested)).toInt.toNat = c.asked requested := by
    rw [toInt_asked hbound, asked]
  rw [fetch, hx]
  simp only [hn, clampCount_eq hbound, fetchThrough]
  cases hregion : Region.ofCount w.nextRegion.1 (c.asked requested) with
  | error failure =>
    rw [← hcount] at hregion
    exact .noRoom failure hregion (Region.of_ofCount_error hregion)
  | ok region =>
    rw [← hcount] at hregion
    simp only [exchange, he]
    rcases hconnect : e.connect net w.nextRegion.2 with ⟨failure | l, w'⟩
    · simp only [Endpoint.exchange_of_error hconnect]
      exact .unreached region failure w' hregion hconnect
    · rw [Endpoint.wire_exchange hconnect]
      exact .sent region l w' _ hregion hconnect

/-- There is no count between zero and a bound that is negative as a signed word. -/
theorem fetch_of_le (hx : c.handles[i]? = some x) (hn : x.endpoint? = some n)
    (hbound : 2 ^ 63 ≤ c.maxFetchCount) (net : Network) (requested : Int64) (w : Wire) :
    c.fetch net i requested w = (none, c, w) := by
  have hnone : clampCount c.maxFetchCount requested = none := if_neg (Nat.not_lt.mpr hbound)
  rw [fetch, hx]
  simp only [hn, hnone]

/-- A fetch through a handle in use asks for the count between zero and the client's bound that is
nearest to what is wanted if and only if the bound is below `2 ^ 63`. With any other bound it has no
result, and nothing is sent. -/
theorem exists_asks_iff (hx : c.handles[i]? = some x) (hn : x.endpoint? = some n)
    (he : c.endpoints[n]? = some e) (net : Network) (requested : Int64) (w : Wire) :
    ((∃ count : Int64, count.toInt = max 0 (min requested.toInt (c.maxFetchCount : Int)) ∧
        Asks net c x e count w (c.fetch net i requested w).1 (c.fetch net i requested w).2.2) ↔
      c.maxFetchCount < 2 ^ 63) ∧
    (2 ^ 63 ≤ c.maxFetchCount → c.fetch net i requested w = (none, c, w)) := by
  refine ⟨⟨?_, fun hbound => ?_⟩, fun hbound => fetch_of_le hx hn hbound net requested w⟩
  · rintro ⟨count, -, hasks⟩
    by_contra hbound
    rw [fetch_of_le hx hn (Nat.not_lt.mp hbound)] at hasks
    cases hasks
  · exact ⟨_, toInt_asked hbound requested, asks_fetch hx hn he hbound net requested w⟩

/-- A client with a handle at `host:1` and the given bound. -/
def openedWith (bound : Nat) : Client :=
  { opened with maxFetchCount := bound }

/-- With the largest word as its bound, which is to say with none, the client has no result. With
the largest signed word it asks for the five samples that are wanted. -/
theorem exists_asks_iff_unbounded :
    (openedWith (2 ^ 64 - 1)).fetch (guarded.network "host:1") 0 5 {}
        = (none, openedWith (2 ^ 64 - 1), {}) ∧
      ∃ count : Int64, count.toInt = 5 ∧
        Asks (guarded.network "host:1") (openedWith (2 ^ 63 - 1))
          { address := "host:1", provider := 7, metric := ⟨5⟩, endpoint? := some 0 }
          { address := "host:1", timeoutMs := 10000 } count {}
          ((openedWith (2 ^ 63 - 1)).fetch (guarded.network "host:1") 0 5 {}).1
          ((openedWith (2 ^ 63 - 1)).fetch (guarded.network "host:1") 0 5 {}).2.2 := by
  have hfive : (5 : Int64).toInt = 5 := by decide
  refine ⟨(exists_asks_iff rfl rfl rfl _ 5 {}).2 (by decide), ?_⟩
  obtain ⟨count, hcount, hasks⟩ := (exists_asks_iff (c := openedWith (2 ^ 63 - 1)) (i := 0) rfl rfl
    rfl (guarded.network "host:1") 5 {}).1.mpr (by decide)
  exact ⟨count, by rw [hcount, hfive]; decide, hasks⟩

end Client

end Telemetry
