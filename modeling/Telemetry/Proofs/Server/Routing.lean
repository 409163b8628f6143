import Telemetry.Proofs.Provider.Reachable
import Telemetry.Server.Basic

/-!
# Routes

A server finds the provider for a request through its table. Providers come and go and are operated
on while they are in the table or out of it, but none of that gives a provider another id, so what is
found under an id is the provider of that id and no other.

## Main definitions

* `Server.Reachable`: the servers that there can be.
* `Server.Routed`: every route leads to a provider of its id.

## Main statements

* `Provider.Step.id_eq`: no operation changes the id of a provider.
* `Server.Reachable.of_provider?`: what requests for an id are routed to.
* `Server.Reachable.isNamed`: the names that a server can be asked about keep to the bounds.
-/
namespace Telemetry

/-! ## Ids of providers -/

namespace Provider

variable {p p' : Provider}

theorem id_of_start {number : UInt16} {setup : ProviderSetup} (h : start number setup = .ok p) :
    p.id = number := by
  simp only [start, Failure.bind_eq_ok_iff] at h
  obtain ⟨settings, -, h⟩ := h
  split at h
  · cases h
  · cases h
    rfl

/-- No operation changes the id of a provider. -/
theorem Step.id_eq (h : Step p p') : p'.id = p.id := by
  obtain ⟨_, _, _, _, _, _, _, _, rfl⟩ := h.exists_eq
  rfl

end Provider

/-! ## Servers -/

namespace Server

/-- One operation on a server or on one of its providers. -/
inductive Step (s : Server) : Server → Prop where
  /-- A provider is made apart from the table. -/
  | make {p : Provider} (hp : p.Reachable) : Step s { s with providers := s.providers.push p }
  | register {id : UInt16} {setup : ProviderSetup} {place : Nat} {s' : Server}
      (h : s.register id setup = .ok (place, s')) : Step s s'
  | attach {place : Nat} {s' : Server} (h : s.attach place = .ok s') : Step s s'
  | deregister {id : UInt16} {s' : Server} (h : s.deregister id = .ok s') : Step s s'
  | operate {place : Nat} {p p' : Provider} (hp : s.providers[place]? = some p) (h : p.Step p') :
      Step s (s.modifyProvider place fun _ => p')
  | shutdown : Step s s.shutdown

/-- The servers that there can be. -/
inductive Reachable : Server → Prop where
  | start : Reachable {}
  | step {s s' : Server} (h : Reachable s) (hs : Step s s') : Reachable s'

/-- Whether the table of a server leads to reachable providers of the ids in it. -/
structure Routed (s : Server) : Prop where
  providers : ∀ (place : Nat) (p : Provider), s.providers[place]? = some p → p.Reachable
  routes : ∀ r ∈ s.routes, ∃ p : Provider, s.providers[r.2]? = some p ∧ p.id = r.1

variable {s s' : Server} {id : UInt16} {place : Nat} {p p' : Provider}

theorem routed_start : Routed {} where
  providers place p hp := by simp at hp
  routes r hr := by simp at hr

theorem Routed.push (h : s.Routed) (hp : p.Reachable) :
    Routed { s with providers := s.providers.push p } where
  providers place q hq := by
    simp only [Array.getElem?_push] at hq
    split at hq
    · obtain rfl := Option.some.inj hq
      exact hp
    · exact h.providers place q hq
  routes r hr := by
    obtain ⟨q, hq, hid⟩ := h.routes r hr
    have hlt : r.2 < s.providers.size := (Array.getElem?_eq_some_iff.mp hq).1
    refine ⟨q, ?_, hid⟩
    rw [Array.getElem?_push_lt hlt, ← hq, Array.getElem?_eq_getElem hlt]

/-- A route to a provider of its id is added. -/
theorem Routed.route (h : s.Routed) (hp : s.providers[place]? = some p) :
    Routed { s with routes := (p.id, place) :: s.routes } where
  providers := h.providers
  routes r hr := by
    rcases List.mem_cons.mp hr with rfl | hr
    · exact ⟨p, hp, rfl⟩
    · exact h.routes r hr

theorem Routed.of_subset (h : s.Routed) {routes : List (UInt16 × Nat)}
    (hroutes : ∀ r ∈ routes, r ∈ s.routes) (accepting : Bool) :
    Routed ⟨s.providers, routes, accepting⟩ where
  providers := h.providers
  routes r hr := h.routes r (hroutes r hr)

theorem Routed.modifyProvider (h : s.Routed) {f : Provider → Provider}
    (hreachable : ∀ p, s.providers[place]? = some p → (f p).Reachable)
    (hid : ∀ p, s.providers[place]? = some p → (f p).id = p.id) :
    (s.modifyProvider place f).Routed where
  providers i q hq := by
    simp only [Server.modifyProvider, Array.getElem?_modify] at hq
    split at hq
    · obtain ⟨p, hp, rfl⟩ := Option.map_eq_some_iff.mp hq
      subst_vars
      exact hreachable p hp
    · exact h.providers i q hq
  routes r hr := by
    obtain ⟨p, hp, hpid⟩ := h.routes r hr
    simp only [Server.modifyProvider, Array.getElem?_modify, hp]
    split
    · subst_vars
      exact ⟨f p, rfl, (hid p hp).trans hpid⟩
    · exact ⟨p, rfl, hpid⟩

/-- Shutting down finalizes providers, which are reachable as before. -/
theorem Routed.shutdown (h : s.Routed) : s.shutdown.Routed where
  providers := by
    rw [Server.shutdown]
    refine List.foldlRecOn (motive := fun providers : Array Provider =>
      ∀ (place : Nat) (p : Provider), providers[place]? = some p → p.Reachable) _ _ h.providers ?_
    intro providers hproviders r _ place p hp
    rw [Array.getElem?_modify] at hp
    split at hp
    · obtain ⟨q, hq, rfl⟩ := Option.map_eq_some_iff.mp hp
      split
      · exact .step (hproviders place q hq) .finalize
      · exact hproviders place q hq
    · exact hproviders place p hp
  routes r hr := by cases hr

theorem Step.routed (h : s.Routed) (hs : Step s s') : s'.Routed := by
  cases hs with
  | make hp => exact h.push hp
  | register hr =>
    rw [Server.register] at hr
    split at hr
    · cases hr
    · obtain ⟨p, hp, heq⟩ := Failure.map_eq_ok_iff.mp hr
      cases heq
      have hpushed := h.push (.start hp)
      rw [← Provider.id_of_start hp]
      exact hpushed.route Array.getElem?_push_size
  | attach ha =>
    rw [Server.attach] at ha
    split at ha
    · cases ha
    · rename_i p hp
      split at ha
      · cases ha
      · cases ha
        exact h.route hp
  | deregister hd =>
    rw [Server.deregister] at hd
    split at hd
    · cases hd
      exact h.of_subset (fun r hr => List.mem_of_mem_filter hr) s.accepting
    · cases hd
  | operate hp hstep =>
    refine h.modifyProvider (fun q hq => ?_) fun q hq => ?_
    · exact .step (h.providers _ _ hp) hstep
    · obtain rfl := Option.some.inj (hp.symm.trans hq)
      exact hstep.id_eq
  | shutdown => exact h.shutdown

theorem Reachable.routed (h : Reachable s) : s.Routed := by
  induction h with
  | start => exact routed_start
  | step _ hs ih => exact hs.routed ih

/-- Requests for an id are routed to a reachable provider of that id. -/
theorem Reachable.of_provider? (h : Reachable s) (hp : s.provider? id = some p) :
    p.Reachable ∧ p.id = id := by
  obtain ⟨place, hlookup, hplace⟩ := Option.bind_eq_some_iff.mp hp
  obtain ⟨q, hq, hid⟩ := h.routed.routes _ (Entries.mem_of_lookup hlookup)
  obtain rfl : q = p := Option.some.inj (hq.symm.trans hplace)
  exact ⟨h.routed.providers place q hplace, hid⟩

/-- The names that a server can be asked about keep to the bounds. -/
theorem Reachable.isNamed (h : Reachable s) (hp : s.provider? id = some p) : p.IsNamed :=
  (h.of_provider? hp).1.isNamed

end Server

end Telemetry
