import Telemetry.Client.Calls
import Telemetry.Proofs.Client.Exchange
import Mathlib

/-!
# Clients of a server

A client is reached from a new one by its calls, on networks that serve one address and may do
anything elsewhere, while others use the wire too. Then every open handle has an endpoint for its
address, no two endpoints share a connection, and the connections to the server are in step with it.

## Main definitions

* `Client.InStep`: the invariant.
* `Client.Reached`: the clients and wires that there can be.

## Main statements

* `Client.exchange_inStep`: an exchange leaves a client in step.
* `Client.Reached.inStep`: the invariant holds after every run.
-/
namespace Telemetry

variable {net : Network} {address : String} {s : Server} {w w' : Wire} {n : Nat}

theorem Endpoint.InStep.mono {e : Endpoint} (h : e.InStep address w) (hw : w.Consistent)
    (hon : w.OnlyOn n w') (hne : ∀ k, e.connection? = some k → k.number ≠ n) :
    e.InStep address w' := by
  intro k hk
  obtain ⟨ha, hstep⟩ := h k hk
  exact ⟨ha, hstep.mono hw hon (hne k hk)⟩

namespace Client

variable {c c' : Client} {r : Request}

/-- The invariant of a client: its token can be sent, its handles in use have endpoints for their
addresses, and its endpoints are in step with the server and apart from each other. -/
structure InStep (address : String) (c : Client) (w : Wire) : Prop where
  consistent : w.Consistent
  token : ∀ t, c.token = some t → t.utf8ByteSize ≤ Resp.Limits.request.maxBulk
  endpoints : ∀ (n : Nat) (e : Endpoint), c.endpoints[n]? = some e → e.InStep address w
  distinct : ∀ (n m : Nat) (e d : Endpoint) (k l : Connection), c.endpoints[n]? = some e →
    c.endpoints[m]? = some d → e.connection? = some k → d.connection? = some l →
      k.number = l.number → n = m
  known : ∀ a n, (a, n) ∈ c.known → ∃ e : Endpoint, c.endpoints[n]? = some e ∧ e.address = a
  handles : ∀ (i : Nat) (h : Handle), c.handles[i]? = some h → 0 < h.refs →
    ∃ (n : Nat) (e : Endpoint),
      h.endpoint? = some n ∧ c.endpoints[n]? = some e ∧ e.address = h.address

/-- The clients and wires that there can be, where a server answers at an address. -/
inductive Reached (address : String) : Client → Wire → Prop where
  | start {c : Client} {w : Wire} (hw : w.Consistent) (hhandles : c.handles = #[])
      (hendpoints : c.endpoints = #[]) (hknown : c.known = [])
      (htoken : ∀ t, c.token = some t → t.utf8ByteSize ≤ Resp.Limits.request.maxBulk) :
      Reached address c w
  | openHandle {c c' : Client} {w : Wire} {a : String} {p : UInt16} {m : MetricId} {i : Nat}
      (h : Reached address c w) (ho : c.openHandle a p m = .ok (i, c')) : Reached address c' w
  | addRef {c c' : Client} {w : Wire} {i : Nat} (h : Reached address c w)
      (ho : c.addRef i = .ok c') : Reached address c' w
  | release {c c' : Client} {w : Wire} {i : Nat} (h : Reached address c w)
      (ho : c.release i = .ok c') : Reached address c' w
  | finalize {c : Client} {w : Wire} (h : Reached address c w) : Reached address c.finalize.2 w
  | list {c : Client} {w : Wire} {net : Network} {s : Server} (h : Reached address c w)
      (hnet : net.Serves address s) (a : String) (p : UInt16) (max : UInt64) :
      Reached address (c.list net a p max w).2.1 (c.list net a p max w).2.2
  | fetch {c : Client} {w : Wire} {net : Network} {s : Server} (h : Reached address c w)
      (hnet : net.Serves address s) (i : Nat) (wanted : Int64) :
      Reached address (c.fetch net i wanted w).2.1 (c.fetch net i wanted w).2.2
  /-- Others use the wire, on a connection that is none of the client's. -/
  | elsewhere {c : Client} {w w' : Wire} {n : Nat} (h : Reached address c w) (hw : w.OnlyOn n w')
      (hn : ∀ (m : Nat) (e : Endpoint) (k : Connection), c.endpoints[m]? = some e →
        e.connection? = some k → k.number ≠ n) :
      Reached address c w'

/-! ## Handles and endpoints -/

theorem InStep.start (hw : w.Consistent) (hhandles : c.handles = #[])
    (hendpoints : c.endpoints = #[]) (hknown : c.known = [])
    (htoken : ∀ t, c.token = some t → t.utf8ByteSize ≤ Resp.Limits.request.maxBulk) :
    c.InStep address w where
  consistent := hw
  token := htoken
  endpoints n e he := by simp [hendpoints] at he
  distinct n m e d k l he := by simp [hendpoints] at he
  known a n ha := by simp [hknown] at ha
  handles i h hi := by simp [hhandles] at hi

/-- Only the handles and what is remembered have changed. -/
theorem InStep.of_eq (h : c.InStep address w) (htoken : c'.token = c.token)
    (hendpoints : c'.endpoints = c.endpoints) (hknown : ∀ x ∈ c'.known, x ∈ c.known)
    (hhandles : ∀ (i : Nat) (x : Handle), c'.handles[i]? = some x → 0 < x.refs →
      ∃ (n : Nat) (e : Endpoint),
        x.endpoint? = some n ∧ c.endpoints[n]? = some e ∧ e.address = x.address) :
    c'.InStep address w where
  consistent := h.consistent
  token := by rw [htoken]; exact h.token
  endpoints := by rw [hendpoints]; exact h.endpoints
  distinct := by rw [hendpoints]; exact h.distinct
  known a n ha := by rw [hendpoints]; exact h.known a n (hknown _ ha)
  handles := by rw [hendpoints]; exact hhandles

theorem getElem?_newEndpoint_iff {a : String} {n : Nat} {e : Endpoint} :
    (c.newEndpoint a).2.endpoints[n]? = some e ↔
      c.endpoints[n]? = some e ∨ n = (c.newEndpoint a).1 ∧ e = ⟨a, c.timeoutMs, none⟩ := by
  simp only [newEndpoint, Array.getElem?_push]
  split
  · rename_i hn
    simp [hn, eq_comm]
  · rename_i hn
    simp [hn]

/-- A new endpoint has no connection yet. -/
theorem inStep_newEndpoint (h : c.InStep address w) (a : String) :
    (c.newEndpoint a).2.InStep address w ∧ ∃ e : Endpoint,
      (c.newEndpoint a).2.endpoints[(c.newEndpoint a).1]? = some e ∧ e.address = a := by
  have hself : (c.newEndpoint a).2.endpoints[(c.newEndpoint a).1]? = some ⟨a, c.timeoutMs, none⟩ :=
    getElem?_newEndpoint_iff.mpr (.inr ⟨rfl, rfl⟩)
  refine ⟨?_, _, hself, rfl⟩
  constructor
  case consistent => exact h.consistent
  case token => exact h.token
  case endpoints =>
    intro n e he
    rcases getElem?_newEndpoint_iff.mp he with he | ⟨-, rfl⟩
    · exact h.endpoints n e he
    · exact nofun
  case distinct =>
    intro n m e d k l he hd hk hl hkl
    rcases getElem?_newEndpoint_iff.mp he with he | ⟨-, rfl⟩
    · rcases getElem?_newEndpoint_iff.mp hd with hd | ⟨-, rfl⟩
      · exact h.distinct n m e d k l he hd hk hl hkl
      · cases hl
    · cases hk
  case known =>
    intro b n hb
    rcases List.mem_cons.mp hb with hb | hb
    · cases hb
      exact ⟨_, hself, rfl⟩
    · obtain ⟨e, he, ha⟩ := h.known b n (List.mem_of_mem_filter hb)
      exact ⟨e, getElem?_newEndpoint_iff.mpr (.inl he), ha⟩
  case handles =>
    intro i x hi hx
    obtain ⟨n, e, hn, he, ha⟩ := h.handles i x hi hx
    exact ⟨n, e, hn, getElem?_newEndpoint_iff.mpr (.inl he), ha⟩

/-- The endpoint that is found or made is one for the address. -/
theorem inStep_endpointFor (h : c.InStep address w) (a : String) :
    (c.endpointFor a).2.InStep address w ∧ ∃ e : Endpoint,
      (c.endpointFor a).2.endpoints[(c.endpointFor a).1]? = some e ∧ e.address = a := by
  unfold endpointFor
  split
  · rename_i n hlookup
    split
    · refine ⟨h, h.known a n ?_⟩
      obtain ⟨front, back, hknown, -⟩ := List.lookup_eq_some_iff.mp hlookup
      rw [hknown]
      exact List.mem_append_right _ (List.mem_cons_self ..)
    · exact inStep_newEndpoint h a
  · exact inStep_newEndpoint h a

/-- To find an endpoint changes nothing but what is known of endpoints. -/
theorem eq_of_endpointFor (c : Client) (address : String) :
    ∃ endpoints known,
      (c.endpointFor address).2 = { c with endpoints := endpoints, known := known } := by
  rw [endpointFor]
  split
  · split
    · exact ⟨c.endpoints, c.known, rfl⟩
    · exact ⟨_, _, rfl⟩
  · exact ⟨_, _, rfl⟩

theorem inStep_openHandle (h : c.InStep address w) {a : String} {p : UInt16} {m : MetricId}
    {i : Nat} (ho : c.openHandle a p m = .ok (i, c')) : c'.InStep address w := by
  have hfor := inStep_endpointFor h a
  unfold openHandle at ho
  generalize c.endpointFor a = found at hfor ho
  obtain ⟨hstep, e, he, ha⟩ := hfor
  split at ho
  · cases ho
  · cases ho
    refine hstep.of_eq rfl rfl (fun _ hx => hx) fun j x hj hx => ?_
    simp only [Array.getElem?_push] at hj
    split at hj
    · cases hj
      exact ⟨_, e, rfl, he, ha⟩
    · exact hstep.handles j x hj hx

/-- A handle is changed, and not to one in use without an endpoint. -/
theorem inStep_setHandle (h : c.InStep address w) {i : Nat} {x : Handle}
    (hx : 0 < x.refs → ∃ (n : Nat) (e : Endpoint),
      x.endpoint? = some n ∧ c.endpoints[n]? = some e ∧ e.address = x.address) :
    (c.setHandle i x).InStep address w := by
  refine h.of_eq rfl rfl (fun _ hm => hm) fun j y hj hy => ?_
  simp only [setHandle, Array.getElem?_setIfInBounds] at hj
  split at hj
  · split at hj
    · cases hj
      exact hx hy
    · cases hj
  · exact h.handles j y hj hy

theorem inStep_addRef (h : c.InStep address w) {i : Nat} (ho : c.addRef i = .ok c') :
    c'.InStep address w := by
  unfold addRef at ho
  split at ho
  · cases ho
  · rename_i x hx
    split at ho
    · cases ho
    · cases ho
      exact inStep_setHandle h fun _ => h.handles i x hx (Nat.pos_of_ne_zero ‹_›)

theorem inStep_dropEndpoint (h : c.InStep address w) {i : Nat}
    (hi : ∀ x, c.handles[i]? = some x → x.refs = 0) : (c.dropEndpoint i).InStep address w := by
  unfold dropEndpoint
  split
  · exact h
  · rename_i x hx
    exact inStep_setHandle h fun hpos => absurd (hi x hx) (Nat.ne_of_gt hpos)

theorem inStep_release (h : c.InStep address w) {i : Nat} (ho : c.release i = .ok c') :
    c'.InStep address w := by
  obtain ⟨⟨last, c₁⟩, hdrop, rfl⟩ := Failure.map_eq_ok_iff.mp ho
  unfold dropRef at hdrop
  split at hdrop
  · cases hdrop
  · rename_i x hx
    split at hdrop
    · cases hdrop
    · rename_i k hrefs
      cases hdrop
      have hstep : (c.setHandle i { x with refs := k }).InStep address w :=
        inStep_setHandle h fun _ => h.handles i x hx (by omega)
      simp only
      split
      · -- the last reference is gone, so the handle needs no endpoint any more
        rename_i hlast
        have hdropped := inStep_dropEndpoint (i := i) hstep fun y hy => by
          have hlt := (Array.getElem?_eq_some_iff.mp hx).1
          simp only [setHandle, Array.getElem?_setIfInBounds_self_of_lt hlt] at hy
          cases hy
          simpa using hlast
        exact hdropped.of_eq rfl rfl (fun _ hm => hm) hdropped.handles
      · exact hstep

/-! ## Exchanges -/

/-- The other endpoints are not on the connection that an exchange through one of them used. -/
theorem InStep.number_ne (h : c.InStep address w) {e d : Endpoint} {l : Connection} {n m k : Nat}
    (he : c.endpoints[n]? = some e)
    (hk : (∃ l, e.connection? = some l ∧ l.number = k) ∨ w.connections ≤ k)
    (hm : m ≠ n) (hd : c.endpoints[m]? = some d) (hl : d.connection? = some l) : l.number ≠ k := by
  intro hlk
  rcases hk with ⟨l', hl', hnumber⟩ | hge
  · exact hm (h.distinct m n d e l l' hd he hl hl' (hlk.trans hnumber.symm))
  · have hopened := ((h.endpoints m d hd) l hl).2.opened
    have hlt := h.consistent.lt_of_openedTo hopened
    omega

theorem of_getElem?_setEndpoint {endpoints : Array Endpoint} {e e' d : Endpoint} {n m : Nat}
    (he : endpoints[n]? = some e) (hd : (endpoints.setIfInBounds n e')[m]? = some d) :
    m = n ∧ d = e' ∨ m ≠ n ∧ endpoints[m]? = some d := by
  have hlt := (Array.getElem?_eq_some_iff.mp he).1
  by_cases hm : m = n
  · rw [hm, Array.getElem?_setIfInBounds_self_of_lt hlt] at hd
    exact .inl ⟨hm, (Option.some.inj hd).symm⟩
  · rw [Array.getElem?_setIfInBounds_ne (Ne.symm hm)] at hd
    exact .inr ⟨hm, hd⟩

/-- An endpoint stays one for its address. -/
theorem exists_getElem?_setEndpoint {endpoints : Array Endpoint} {e e' d : Endpoint} {n m : Nat}
    (he : endpoints[n]? = some e) (ha : e'.address = e.address) (hd : endpoints[m]? = some d) :
    ∃ d' : Endpoint, (endpoints.setIfInBounds n e')[m]? = some d' ∧ d'.address = d.address := by
  have hlt := (Array.getElem?_eq_some_iff.mp he).1
  by_cases hm : m = n
  · subst hm
    obtain rfl := Option.some.inj (he.symm.trans hd)
    exact ⟨e', Array.getElem?_setIfInBounds_self_of_lt hlt, ha⟩
  · exact ⟨d, (Array.getElem?_setIfInBounds_ne (Ne.symm hm)).trans hd, rfl⟩

/-- An endpoint has used a connection that is its own or new. -/
theorem inStep_setEndpoint (h : c.InStep address w) {e e' : Endpoint} {n k : Nat}
    (he : c.endpoints[n]? = some e) (ha : e'.address = e.address) (hstep : e'.InStep address w')
    (hon : w.OnlyOn k w') (hnew : ∀ l, e'.connection? = some l → l.number = k)
    (hk : (∃ l, e.connection? = some l ∧ l.number = k) ∨ w.connections ≤ k) :
    InStep address { c with endpoints := c.endpoints.setIfInBounds n e' } w' := by
  constructor
  case consistent => exact hon.consistent
  case token => exact h.token
  case endpoints =>
    intro m d hd
    rcases of_getElem?_setEndpoint he hd with ⟨-, rfl⟩ | ⟨hm, hd⟩
    · exact hstep
    · exact (h.endpoints m d hd).mono h.consistent hon fun l hl => h.number_ne he hk hm hd hl
  case distinct =>
    intro m₁ m₂ d₁ d₂ l₁ l₂ hd₁ hd₂ hl₁ hl₂ heq
    rcases of_getElem?_setEndpoint he hd₁ with ⟨hm₁, rfl⟩ | ⟨hm₁, hold₁⟩ <;>
      rcases of_getElem?_setEndpoint he hd₂ with ⟨hm₂, rfl⟩ | ⟨hm₂, hold₂⟩
    · rw [hm₁, hm₂]
    · exact absurd (heq ▸ hnew l₁ hl₁) (h.number_ne he hk hm₂ hold₂ hl₂)
    · exact absurd (heq ▸ hnew l₂ hl₂) (h.number_ne he hk hm₁ hold₁ hl₁)
    · exact h.distinct m₁ m₂ d₁ d₂ l₁ l₂ hold₁ hold₂ hl₁ hl₂ heq
  case known =>
    intro a m hm
    obtain ⟨d, hd, rfl⟩ := h.known a m hm
    exact exists_getElem?_setEndpoint he ha hd
  case handles =>
    intro i x hi hx
    obtain ⟨m, d, hm, hd, hx⟩ := h.handles i x hi hx
    obtain ⟨d', hd', had⟩ := exists_getElem?_setEndpoint he ha hd
    exact ⟨m, d', hm, hd', had.trans hx⟩

/-- An exchange leaves a client in step. -/
theorem exchange_inStep (h : c.InStep address w) (hnet : net.Serves address s)
    (hr : r.KeepsBounds) (n : Nat) (region? : Option Region) :
    (c.exchange net n r region? w).2.1.InStep address (c.exchange net n r region? w).2.2 := by
  unfold exchange
  split
  · exact h
  · rename_i e he
    rcases hx : e.exchange net r.toValue region? w with ⟨result, e', w'⟩
    obtain ⟨ha, hstep, k, hon, hnew, hk⟩ :=
      Endpoint.exchange_inStep h.consistent (h.endpoints n e he) hnet hr hx
    exact inStep_setEndpoint h he ha hstep hon hnew hk

/-- Others have used the wire, on a connection that is none of the client's. -/
theorem InStep.mono (h : c.InStep address w) (hon : w.OnlyOn n w')
    (hn : ∀ (m : Nat) (e : Endpoint) (k : Connection), c.endpoints[m]? = some e →
      e.connection? = some k → k.number ≠ n) : c.InStep address w' where
  consistent := hon.consistent
  token := h.token
  endpoints m e he := (h.endpoints m e he).mono h.consistent hon (hn m e · he)
  distinct := h.distinct
  known := h.known
  handles := h.handles

/-- The number of a region is given out before anything is sent. -/
theorem InStep.nextRegion (h : c.InStep address w) : c.InStep address w.nextRegion.2 := by
  refine h.mono (Wire.onlyOn_nextRegion (n := w.connections) h.consistent) fun m e k he hk => ?_
  have hopened := ((h.endpoints m e he) k hk).2.opened
  exact Nat.ne_of_lt (h.consistent.lt_of_openedTo hopened)

theorem list_inStep (h : c.InStep address w) (hnet : net.Serves address s) (a : String)
    (p : UInt16) (max : UInt64) :
    (c.list net a p max w).2.1.InStep address (c.list net a p max w).2.2 := by
  have hfor := (inStep_endpointFor h a).1
  exact exchange_inStep (r := .list p max _) hfor hnet hfor.token _ _

theorem fetchThrough_inStep (h : c.InStep address w) (hnet : net.Serves address s) (x : Handle)
    (n count : Nat) :
    (c.fetchThrough net x n count w).2.1.InStep address (c.fetchThrough net x n count w).2.2 := by
  unfold fetchThrough
  simp only
  split
  · exact h
  · exact exchange_inStep (r := .fetch ..) h.nextRegion hnet h.token _ _

theorem fetch_inStep (h : c.InStep address w) (hnet : net.Serves address s) (i : Nat)
    (wanted : Int64) :
    (c.fetch net i wanted w).2.1.InStep address (c.fetch net i wanted w).2.2 := by
  unfold fetch
  split
  · exact h
  · split
    · exact h
    · split
      · exact h
      · exact fetchThrough_inStep h hnet _ _ _

/-- A client that is reached is in step with the server at the address. -/
theorem Reached.inStep (h : Reached address c w) : c.InStep address w := by
  induction h with
  | start hw hhandles hendpoints hknown htoken =>
    exact .start hw hhandles hendpoints hknown htoken
  | openHandle _ ho ih => exact inStep_openHandle ih ho
  | addRef _ ho ih => exact inStep_addRef ih ho
  | release _ ho ih => exact inStep_release ih ho
  | finalize _ ih => exact ih.of_eq rfl rfl nofun ih.handles
  | list _ hnet a p max ih => exact list_inStep ih hnet a p max
  | fetch _ hnet i wanted ih => exact fetch_inStep ih hnet i wanted
  | elsewhere _ hon hn ih => exact ih.mono hon hn

end Client

end Telemetry
