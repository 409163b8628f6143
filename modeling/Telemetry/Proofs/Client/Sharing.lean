import Telemetry.Proofs.Client.References
import Telemetry.Proofs.Entries
import Mathlib

/-!
# Shared endpoints

A client remembers the endpoint of every address that is in use, so that handles to one address
share it. What it remembers of an address that is not in use is out of date, stays until some other
address is new, and is never believed: whether an endpoint still lives is asked of the handles.

## Main definitions

* `Client.Call`, `Client.performAll`: calls on a client and its handles, one after the other.
* `Client.Unused`: whether no handle in use has an address.
* `Client.Remembers`: the invariant that every call preserves.
* `Client.SharesEndpoints`: what holds of the endpoints of all handles.

## Main statements

* `Client.Remembers.endpointFor_cases`: an address is in use, or it gets a new endpoint.
* `Client.Remembers.perform`: every call preserves the invariant.
* `Client.performAll_sharesEndpoints`: what holds after any calls.
-/
namespace Telemetry

variable {net : Network} {w : Wire}

/-- An exchange leaves an endpoint at its address. -/
theorem Endpoint.address_exchange (net : Network) (e : Endpoint) (request : Resp.Value)
    (region? : Option Region) (w : Wire) :
    (e.exchange net request region? w).2.1.address = e.address := by
  unfold exchange
  split
  · rfl
  · simp only
    split <;> rfl

namespace Client

/-! ## Calls -/

/-- A call on a client or on one of its handles. -/
inductive Call where
  | openHandle (address : String) (provider : UInt16) (metric : MetricId)
  | addRef (handle : Nat)
  | release (handle : Nat)
  | list (address : String) (provider : UInt16) (max : UInt64)
  | fetch (handle : Nat) (wanted : Int64)

/-- The client and the wire behind a call. -/
def Call.perform (net : Network) (s : Client × Wire) : Call → Client × Wire
  | openHandle address provider metric =>
    match s.1.openHandle address provider metric with
    | .ok (_, c) => (c, s.2)
    | .error _ => s
  | addRef handle =>
    match s.1.addRef handle with
    | .ok c => (c, s.2)
    | .error _ => s
  | release handle =>
    match s.1.release handle with
    | .ok c => (c, s.2)
    | .error _ => s
  | list address provider max => (s.1.list net address provider max s.2).2
  | fetch handle wanted => (s.1.fetch net handle wanted s.2).2

/-- The client and the wire behind calls, one after the other. -/
def performAll (net : Network) (s : Client × Wire) (calls : List Call) : Client × Wire :=
  calls.foldl (Call.perform net) s

variable {c c' : Client} {address : String} {i n : Nat} {x y : Handle} {r : Request}

/-! ## What is remembered -/

/-- Whether no handle in use has an address. -/
def Unused (c : Client) (address : String) : Prop :=
  ∀ (i : Nat) (x : Handle), c.handles[i]? = some x → 0 < x.refs → x.address ≠ address

/-- The invariant of a client: what it remembers of an address is an endpoint for it, a handle that
is not in use has no endpoint, and the endpoint of one that is in use is remembered. -/
structure Remembers (c : Client) : Prop where
  known : ∀ a n, (a, n) ∈ c.known → ∃ e : Endpoint, c.endpoints[n]? = some e ∧ e.address = a
  closed : ∀ (i : Nat) (x : Handle), c.handles[i]? = some x → x.refs = 0 → x.endpoint? = none
  inUse : ∀ (i : Nat) (x : Handle), c.handles[i]? = some x → 0 < x.refs →
    ∃ n, x.endpoint? = some n ∧ c.known.lookup x.address = some n

theorem remembers_start (hhandles : c.handles = #[]) (hknown : c.known = []) : c.Remembers where
  known a n ha := by simp [hknown] at ha
  closed i x hi := by simp [hhandles] at hi
  inUse i x hi := by simp [hhandles] at hi

/-- A handle that has an endpoint is in use. -/
theorem Remembers.pos_of_endpoint? (h : c.Remembers) (hx : c.handles[i]? = some x)
    (hn : x.endpoint? = some n) : 0 < x.refs := by
  rw [Nat.pos_iff_ne_zero]
  intro hrefs
  rw [h.closed i x hx hrefs] at hn
  cases hn

/-- The endpoint of a handle is one for its address. -/
theorem Remembers.exists_endpoint (h : c.Remembers) (hx : c.handles[i]? = some x)
    (hn : x.endpoint? = some n) :
    c.known.lookup x.address = some n ∧
      ∃ e : Endpoint, c.endpoints[n]? = some e ∧ e.address = x.address := by
  obtain ⟨m, hm, hlookup⟩ := h.inUse i x hx (h.pos_of_endpoint? hx hn)
  obtain rfl : n = m := Option.some.inj (hn.symm.trans hm)
  exact ⟨hlookup, h.known _ _ (Entries.mem_of_lookup hlookup)⟩

theorem holds_iff : c.holds n = true ↔
    ∃ (i : Nat) (x : Handle), c.handles[i]? = some x ∧ x.endpoint? = some n := by
  rw [holds, Array.any_eq_true]
  constructor
  · rintro ⟨i, hi, hx⟩
    exact ⟨i, c.handles[i], Array.getElem?_eq_getElem hi, of_decide_eq_true hx⟩
  · rintro ⟨i, x, hx, hn⟩
    obtain ⟨hi, rfl⟩ := Array.getElem?_eq_some_iff.mp hx
    exact ⟨i, hi, decide_eq_true hn⟩

/-- If a handle in use has the address, its endpoint is found. Otherwise a new one is made, also if
one is remembered. -/
theorem Remembers.endpointFor_cases (h : c.Remembers) (address : String) :
    (∃ (i : Nat) (x : Handle) (n : Nat), c.handles[i]? = some x ∧ 0 < x.refs ∧
      x.address = address ∧ x.endpoint? = some n ∧ c.endpointFor address = (n, c)) ∨
    c.Unused address ∧ c.endpointFor address = c.newEndpoint address := by
  by_cases hunused : c.Unused address
  · refine .inr ⟨hunused, ?_⟩
    unfold endpointFor
    split
    · rename_i n hlookup
      refine if_neg fun hholds => ?_
      obtain ⟨i, x, hx, hn⟩ := holds_iff.mp hholds
      -- an endpoint is for one address only, so the handle that holds this one has the address
      obtain ⟨-, e, he, hea⟩ := h.exists_endpoint hx hn
      obtain ⟨d, hd, hda⟩ := h.known _ _ (Entries.mem_of_lookup hlookup)
      obtain rfl : e = d := Option.some.inj (he.symm.trans hd)
      exact hunused i x hx (h.pos_of_endpoint? hx hn) (hea.symm.trans hda)
    · rfl
  · obtain ⟨i, x, hx, hrefs, rfl⟩ : ∃ (i : Nat) (x : Handle), c.handles[i]? = some x ∧
        0 < x.refs ∧ x.address = address := by
      simpa [Unused] using hunused
    obtain ⟨n, hn, hlookup⟩ := h.inUse i x hx hrefs
    refine .inl ⟨i, x, n, hx, hrefs, rfl, hn, ?_⟩
    rw [endpointFor, hlookup]
    exact if_pos (holds_iff.mpr ⟨i, x, hx, hn⟩)

/-! ## Endpoints -/

/-- To make an endpoint for an address that is not in use forgets none that is in use. -/
theorem remembers_newEndpoint (h : c.Remembers) (hunused : c.Unused address) :
    (c.newEndpoint address).2.Remembers where
  known a n ha := by
    rcases List.mem_cons.mp ha with ha | ha
    · cases ha
      exact ⟨_, getElem?_newEndpoint_iff.mpr (.inr ⟨rfl, rfl⟩), rfl⟩
    · obtain ⟨e, he, hea⟩ := h.known a n (List.mem_of_mem_filter ha)
      exact ⟨e, getElem?_newEndpoint_iff.mpr (.inl he), hea⟩
  closed := h.closed
  inUse i x hx hrefs := by
    obtain ⟨n, hn, hlookup⟩ := h.inUse i x hx hrefs
    have hne : x.address ≠ address := hunused i x hx hrefs
    have hkept : c.holds n = true := holds_iff.mpr ⟨i, x, hx, hn⟩
    refine ⟨n, hn, ?_⟩
    change ((address, _) :: c.known.filter _).lookup x.address = some n
    rw [List.lookup_cons, beq_eq_false_iff_ne.mpr hne]
    exact Entries.lookup_filter_of_pos hlookup (by simp [hne, hkept])

theorem remembers_endpointFor (h : c.Remembers) (address : String) :
    (c.endpointFor address).2.Remembers ∧
      (c.endpointFor address).2.known.lookup address = some (c.endpointFor address).1 := by
  rcases h.endpointFor_cases address with ⟨i, x, n, hx, -, rfl, hn, heq⟩ | ⟨hunused, heq⟩
  · rw [heq]
    exact ⟨h, (h.exists_endpoint hx hn).1⟩
  · rw [heq]
    exact ⟨remembers_newEndpoint h hunused, List.lookup_cons_self⟩

/-- An exchange changes an endpoint, but not its address. -/
theorem remembers_exchange (h : c.Remembers) (net : Network) (n : Nat) (r : Request)
    (region? : Option Region) (w : Wire) : (c.exchange net n r region? w).2.1.Remembers := by
  unfold exchange
  split
  · exact h
  · rename_i e he
    refine ⟨fun a m hm => ?_, h.closed, h.inUse⟩
    obtain ⟨d, hd, rfl⟩ := h.known a m hm
    exact exists_getElem?_setEndpoint he (e.address_exchange net r.toValue region? w) hd

/-! ## Handles -/

theorem remembers_push (h : c.Remembers) (hhandles : c'.handles = c.handles.push x)
    (hendpoints : c'.endpoints = c.endpoints) (hknown : c'.known = c.known) (hrefs : 0 < x.refs)
    (hx : ∃ n, x.endpoint? = some n ∧ c.known.lookup x.address = some n) : c'.Remembers := by
  have hmem : ∀ (i : Nat) (y : Handle), c'.handles[i]? = some y →
      y = x ∨ c.handles[i]? = some y := by
    intro i y hi
    rw [hhandles, Array.getElem?_push] at hi
    split at hi
    · exact .inl (Option.some.inj hi).symm
    · exact .inr hi
  refine ⟨?_, fun i y hi hzero => ?_, fun i y hi hpos => ?_⟩
  · rw [hknown, hendpoints]
    exact h.known
  · rcases hmem i y hi with rfl | hi
    · omega
    · exact h.closed i y hi hzero
  · rw [hknown]
    rcases hmem i y hi with rfl | hi
    · exact hx
    · exact h.inUse i y hi hpos

/-- A handle keeps its endpoint as long as it is in use. -/
theorem remembers_setHandle (h : c.Remembers) (hx : c.handles[i]? = some x)
    (hclosed : y.refs = 0 → y.endpoint? = none)
    (hinUse : 0 < y.refs → 0 < x.refs ∧ y.endpoint? = x.endpoint? ∧ y.address = x.address) :
    (c.setHandle i y).Remembers := by
  have hmem : ∀ (j : Nat) (z : Handle), (c.setHandle i y).handles[j]? = some z →
      z = y ∨ c.handles[j]? = some z := by
    intro j z hj
    by_cases hij : i = j
    · subst hij
      exact .inl (Option.some.inj ((getElem?_setHandle_self hx y).symm.trans hj)).symm
    · exact .inr ((getElem?_setHandle_of_ne c hij y).symm.trans hj)
  refine ⟨h.known, fun j z hj hzero => ?_, fun j z hj hpos => ?_⟩
  · rcases hmem j z hj with rfl | hj
    · exact hclosed hzero
    · exact h.closed j z hj hzero
  · rcases hmem j z hj with rfl | hj
    · obtain ⟨hrefs, hendpoint, haddress⟩ := hinUse hpos
      rw [hendpoint, haddress]
      exact h.inUse i x hx hrefs
    · exact h.inUse j z hj hpos

theorem dropEndpoint_setHandle (hx : c.handles[i]? = some x) (y : Handle) :
    (c.setHandle i y).dropEndpoint i = c.setHandle i { y with endpoint? := none } := by
  rw [dropEndpoint, getElem?_setHandle_self hx]
  simp only [setHandle, Array.setIfInBounds_setIfInBounds]

/-- A release drops a reference, and with the last one the endpoint. -/
theorem release_cases (h : c.release i = .ok c') :
    ∃ x k, c.handles[i]? = some x ∧ x.refs = k + 1 ∧
      (k = 0 ∧ c' = (c.setHandle i { x with refs := 0, endpoint? := none }).countClosed ∨
        0 < k ∧ c' = c.setHandle i { x with refs := k }) := by
  obtain ⟨⟨last, c₁⟩, hdrop, rfl⟩ := Failure.map_eq_ok_iff.mp h
  unfold dropRef at hdrop
  split at hdrop
  · cases hdrop
  · rename_i x hx
    split at hdrop
    · cases hdrop
    · rename_i k hrefs
      cases hdrop
      refine ⟨x, k, hx, hrefs, ?_⟩
      rcases Nat.eq_zero_or_pos k with rfl | hpos
      · refine .inl ⟨rfl, ?_⟩
        change ((c.setHandle i { x with refs := 0 }).dropEndpoint i).countClosed = _
        rw [dropEndpoint_setHandle hx]
      · refine .inr ⟨hpos, ?_⟩
        simp [hpos.ne']

theorem remembers_openHandle (h : c.Remembers) {provider : UInt16} {metric : MetricId}
    (ho : c.openHandle address provider metric = .ok (i, c')) : c'.Remembers := by
  obtain ⟨hfor, hlookup⟩ := remembers_endpointFor h address
  unfold openHandle at ho
  split at ho
  · cases ho
  · cases ho
    exact remembers_push hfor rfl rfl rfl Nat.one_pos ⟨_, rfl, hlookup⟩

theorem remembers_addRef (h : c.Remembers) (ho : c.addRef i = .ok c') : c'.Remembers := by
  unfold addRef at ho
  split at ho
  · cases ho
  · rename_i x hx
    split at ho
    · cases ho
    · rename_i hrefs
      cases ho
      exact remembers_setHandle h hx (fun hzero => by simp at hzero)
        fun _ => ⟨Nat.pos_of_ne_zero hrefs, rfl, rfl⟩

theorem remembers_release (h : c.Remembers) (ho : c.release i = .ok c') : c'.Remembers := by
  obtain ⟨x, k, hx, hrefs, ⟨-, rfl⟩ | ⟨hpos, rfl⟩⟩ := release_cases ho
  · have hset : (c.setHandle i { x with refs := 0, endpoint? := none }).Remembers :=
      remembers_setHandle h hx (fun _ => rfl) fun hpos => absurd hpos (Nat.lt_irrefl 0)
    exact ⟨hset.known, hset.closed, hset.inUse⟩
  · exact remembers_setHandle h hx (fun hzero => absurd hzero hpos.ne')
      fun _ => ⟨by omega, rfl, rfl⟩

theorem remembers_fetch (h : c.Remembers) (net : Network) (i : Nat) (wanted : Int64) (w : Wire) :
    (c.fetch net i wanted w).2.1.Remembers := by
  unfold fetch
  split
  · exact h
  · split
    · exact h
    · split
      · exact h
      · simp only [fetchThrough]
        split
        · exact h
        · exact remembers_exchange h ..

/-- Every call preserves the invariant. -/
theorem Remembers.perform {s : Client × Wire} (h : s.1.Remembers) (net : Network) (call : Call) :
    (call.perform net s).1.Remembers := by
  cases call with
  | openHandle address provider metric =>
    cases ho : s.1.openHandle address provider metric with
    | error failure => simpa only [Call.perform, ho] using h
    | ok opened => simpa only [Call.perform, ho] using remembers_openHandle h ho
  | addRef i =>
    cases ho : s.1.addRef i with
    | error failure => simpa only [Call.perform, ho] using h
    | ok c => simpa only [Call.perform, ho] using remembers_addRef h ho
  | release i =>
    cases ho : s.1.release i with
    | error failure => simpa only [Call.perform, ho] using h
    | ok c => simpa only [Call.perform, ho] using remembers_release h ho
  | list address provider max =>
    exact remembers_exchange (remembers_endpointFor h address).1 ..
  | fetch i wanted => exact remembers_fetch h net i wanted s.2

theorem Remembers.performAll {s : Client × Wire} (h : s.1.Remembers) (net : Network)
    (calls : List Call) : (performAll net s calls).1.Remembers := by
  induction calls generalizing s with
  | nil => exact h
  | cons call calls ih => exact ih (h.perform net call)

/-! ## What holds of all endpoints -/

/-- How the handles of a client share endpoints. -/
structure SharesEndpoints (c : Client) : Prop where
  /-- Handles in use have the same endpoint if and only if they have the same address. -/
  shared : ∀ (i j : Nat) (x y : Handle), c.handles[i]? = some x → c.handles[j]? = some y →
    0 < x.refs → 0 < y.refs → (x.endpoint? = y.endpoint? ↔ x.address = y.address)
  /-- The endpoint of a handle in use is for its address and is remembered. -/
  remembered : ∀ (i : Nat) (x : Handle), c.handles[i]? = some x → 0 < x.refs →
    ∃ (n : Nat) (e : Endpoint), x.endpoint? = some n ∧ c.endpoints[n]? = some e ∧
      e.address = x.address ∧ c.known.lookup x.address = some n
  /-- A new handle to an address in use gets the endpoint of the others. -/
  joined : ∀ (address : String) (provider : UInt16) (metric : MetricId) (i : Nat) (x : Handle),
    address ≠ "" → c.handles[i]? = some x → 0 < x.refs → x.address = address →
    ∃ c', c.openHandle address provider metric = .ok (c.handles.size, c') ∧
      c'.handles = c.handles.push
        { address := address, provider := provider, metric := metric, endpoint? := x.endpoint? } ∧
      c'.endpoints = c.endpoints
  /-- A new handle to an address that is not in use gets an endpoint that was not there before and
  has no connection. -/
  renewed : ∀ (address : String) (provider : UInt16) (metric : MetricId),
    address ≠ "" → c.Unused address →
    ∃ c', c.openHandle address provider metric = .ok (c.handles.size, c') ∧
      c'.handles = c.handles.push { address := address, provider := provider, metric := metric,
                                    endpoint? := some c.endpoints.size } ∧
      c'.endpoints = c.endpoints.push
        { address := address, timeoutMs := c.timeoutMs, connection? := none } ∧
      ∀ (i : Nat) (x : Handle) (n : Nat), c.handles[i]? = some x → x.endpoint? = some n →
        n < c.endpoints.size

theorem Remembers.sharesEndpoints (h : c.Remembers) : c.SharesEndpoints := by
  constructor
  case shared =>
    intro i j x y hx hy hxrefs hyrefs
    obtain ⟨n, hn, hxlookup⟩ := h.inUse i x hx hxrefs
    obtain ⟨m, hm, hylookup⟩ := h.inUse j y hy hyrefs
    constructor
    · intro heq
      obtain ⟨-, e, he, hea⟩ := h.exists_endpoint hx hn
      obtain ⟨-, d, hd, hda⟩ := h.exists_endpoint hy (heq.symm.trans hn)
      obtain rfl : e = d := Option.some.inj (he.symm.trans hd)
      exact hea.symm.trans hda
    · intro heq
      rw [hn, hm, ← hxlookup, ← hylookup, heq]
  case remembered =>
    intro i x hx hrefs
    obtain ⟨n, hn, hlookup⟩ := h.inUse i x hx hrefs
    obtain ⟨-, e, he, hea⟩ := h.exists_endpoint hx hn
    exact ⟨n, e, hn, he, hea, hlookup⟩
  case joined =>
    intro address provider metric i x hne hx hrefs ha
    rcases h.endpointFor_cases address with ⟨j, y, n, hy, -, hya, hn, heq⟩ | ⟨hunused, -⟩
    · have hsame : x.endpoint? = some n := by
        obtain ⟨m, hm, hlookup⟩ := h.inUse i x hx hrefs
        rw [hm, ← hlookup, ha, ← hya]
        exact (h.exists_endpoint hy hn).1
      let opened : Handle :=
        { address := address, provider := provider, metric := metric, endpoint? := x.endpoint? }
      refine ⟨{ c with handles := c.handles.push opened, openHandles := c.openHandles + 1 }, ?_,
        rfl, rfl⟩
      simp only [openHandle, if_neg hne, heq, opened, hsame]
    · exact absurd ha (hunused i x hx hrefs)
  case renewed =>
    intro address provider metric hne hunused
    rcases h.endpointFor_cases address with ⟨i, x, n, hx, hrefs, ha, -, -⟩ | ⟨-, heq⟩
    · exact absurd ha (hunused i x hx hrefs)
    · refine ⟨_, by rw [openHandle, if_neg hne, heq]; rfl, rfl, rfl, fun i x n hx hn => ?_⟩
      obtain ⟨-, e, he, -⟩ := h.exists_endpoint hx hn
      exact (Array.getElem?_eq_some_iff.mp he).1

/-- Whatever calls were made on a new client, and whatever the network did, the handles in use share
one endpoint for each address, and an address that went out of use gets a new one. -/
theorem performAll_sharesEndpoints (net : Network) (token : Option String)
    (maxFetchCount timeoutMs : Nat) (w : Wire) (calls : List Call) :
    (performAll net
      ({ token := token, maxFetchCount := maxFetchCount, timeoutMs := timeoutMs }, w)
      calls).1.SharesEndpoints :=
  ((remembers_start rfl rfl).performAll net calls).sharesEndpoints

-- two handles share an endpoint; the one that is opened when both are closed has another one
example : (performAll (.unreachable id) ({}, {})
    [.openHandle "host:1" 1 ⟨7⟩, .openHandle "host:1" 1 ⟨8⟩]).1.handles.toList.map Handle.endpoint?
      = [some 0, some 0] := by
  decide +kernel

example : (performAll (.unreachable id) ({}, {})
    [.openHandle "host:1" 1 ⟨7⟩, .release 0, .openHandle "host:1" 1 ⟨7⟩]).1.handles.toList.map
      Handle.endpoint? = [none, some 1] := by
  decide +kernel

end Client

end Telemetry
