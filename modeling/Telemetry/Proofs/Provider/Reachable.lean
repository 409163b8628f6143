import Telemetry.Proofs.Metric.Registered
import Telemetry.Provider.Cycle
import Telemetry.Provider.Lifecycle
import Mathlib

/-!
# Reachable providers

A provider is reachable if it was started and then changed by nothing but its operations. The
metrics of a reachable provider were all made from a description, so their names keep to the bounds.

## Main definitions

* `Provider.Step`, `Provider.Reachable`: one operation, and the providers that there can be.

## Main statements

* `Provider.exists_create_eq`, `Provider.exists_wait_eq` and so on: what each operation changes of a
  provider, and leaves alone.
* `Provider.Step.exists_eq`: what every operation leaves alone.
* `Provider.Reachable.isNamed`: the names of all metrics keep to the bounds.
-/
namespace Telemetry.Provider

/-- One operation on a provider. -/
inductive Step (p : Provider) : Provider → Prop where
  | registerBackend {b : Backend} {p' : Provider} (h : p.registerBackend b = .ok p') : Step p p'
  | create (spec : MetricSpec) : Step p (p.create spec).2
  | update {id : MetricId} {value time : Double} {writer : UInt64} {p' : Provider}
      (h : p.update? id value time writer = some (.ok p')) : Step p p'
  | updateDelta {id : MetricId} {delta time : Double} {writer : UInt64} {p' : Provider}
      (h : p.updateDelta? id delta time writer = some (.ok p')) : Step p p'
  | withdraw {how : Release} {id : MetricId} {p' : Provider} (h : p.withdraw how id = .ok p') :
      Step p p'
  | removeAll : Step p p.removeAll.2
  | finalize : Step p p.finalize
  | reduce (id : MetricId) : Step p (p.reduce id).2
  | globalReduce {id : MetricId} {p' : Provider} (h : p.globalReduce id = .ok p') : Step p p'
  | cycle : Step p p.cycle.2
  | wait (ms : Nat) : Step p (p.wait ms)

/-- The providers that there can be. -/
inductive Reachable : Provider → Prop where
  | start {number : UInt16} {setup : ProviderSetup} {p : Provider}
      (h : Provider.start number setup = .ok p) : Reachable p
  | step {p p' : Provider} (h : Reachable p) (hs : Step p p') : Reachable p'

/-- Whether the names of all metrics of a provider keep to the bounds on names. -/
def IsNamed (p : Provider) : Prop := p.registry.All Metric.IsNamed

variable {p p' : Provider} {m m' : Metric}

/-! ## What operations leave alone -/

/-- To hand a context back changes the ledger, which gets an entry about that at most. -/
theorem exists_release_eq (p : Provider) (how : Release) (m : Metric) :
    ∃ new, p.release how m = { p with ledger := new ++ p.ledger } ∧
      ∀ entry ∈ new, ∃ c failure?, m.context = some c ∧ entry = .released how c failure? := by
  rw [release]
  split
  · exact ⟨[], rfl, by simp⟩
  · rename_i c hc
    split
    · exact ⟨[], rfl, by simp⟩
    · exact ⟨[_], rfl, fun entry hentry => ⟨c, _, hc, List.mem_singleton.mp hentry⟩⟩

theorem exists_foldl_release_eq (metrics : List Metric) (p : Provider) :
    ∃ ledger, metrics.foldl (fun p m => p.release .close m) p = { p with ledger := ledger } := by
  induction metrics generalizing p with
  | nil => exact ⟨p.ledger, rfl⟩
  | cons m metrics ih =>
    obtain ⟨new, hrelease, -⟩ := p.exists_release_eq .close m
    obtain ⟨ledger, hrest⟩ := ih (p.release .close m)
    rw [List.foldl_cons, hrest, hrelease]
    exact ⟨ledger, rfl⟩

/-- To remove a metric changes the registry and the ledger. -/
theorem exists_withdraw_eq {how : Release} {id : MetricId} (h : p.withdraw how id = .ok p') :
    ∃ m registry ledger, p.registry.remove id = .ok (m, registry) ∧
      p' = { p with registry := registry, ledger := ledger } := by
  obtain ⟨⟨m, q⟩, htake, rfl⟩ := Failure.map_eq_ok_iff.mp h
  obtain ⟨⟨m', registry⟩, hremove, heq⟩ := Failure.map_eq_ok_iff.mp htake
  cases heq
  obtain ⟨new, hrelease, -⟩ := exists_release_eq { p with registry := registry } how m
  exact ⟨m, registry, new ++ p.ledger, hremove, hrelease⟩

/-- To remove every metric changes the registry and the ledger. -/
theorem exists_removeAll_eq (p : Provider) :
    ∃ ledger, p.removeAll.2 = { p with registry := p.registry.removeAll.2, ledger := ledger } := by
  rw [removeAll]
  obtain ⟨metrics, registry⟩ := p.registry.removeAll
  exact exists_foldl_release_eq metrics { p with registry := registry }

/-- To make a context changes the ledger and the next ticket. Nothing is handed back. -/
theorem exists_makeContext_eq {spec : BackendSpec} {r : Except Failure BackendContext}
    (h : p.makeContext spec = (r, p')) :
    ∃ new ticket, p' = { p with ledger := new ++ p.ledger, nextTicket := ticket } ∧
      ∀ entry ∈ new, entry.released? = none := by
  rw [makeContext] at h
  split at h
  · cases h
    exact ⟨[], p.nextTicket, rfl, by simp⟩
  · split at h
    · cases h
      exact ⟨[_], p.nextTicket, rfl, by simp [Handover.released?]⟩
    · cases h
      exact ⟨[_], p.nextTicket + 1, rfl, by simp [Handover.released?]⟩

/-- Of a metric, its context is all that changes when it gets one. -/
theorem exists_attach_eq {spec : MetricSpec} {r : Except Failure Metric}
    (h : p.attach spec m = (r, p')) :
    ∃ new ticket, p' = { p with ledger := new ++ p.ledger, nextTicket := ticket } ∧
      (∀ entry ∈ new, entry.released? = none) ∧
      ∀ m', r = .ok m' → ∃ context, m' = { m with context := context } := by
  rw [attach] at h
  split at h
  · cases h
    exact ⟨[], p.nextTicket, rfl, by simp, fun m' hm => ⟨m.context, by cases hm; rfl⟩⟩
  · split at h <;> rename_i hmake <;> cases h
    · obtain ⟨new, ticket, rfl, hnew⟩ := exists_makeContext_eq hmake
      exact ⟨new, ticket, rfl, hnew, nofun⟩
    · obtain ⟨new, ticket, rfl, hnew⟩ := exists_makeContext_eq hmake
      exact ⟨new, ticket, rfl, hnew, fun m' hm => ⟨_, by cases hm; rfl⟩⟩

/-- A creation changes the registry, the ledger and the next ticket. -/
theorem exists_create_eq (p : Provider) (spec : MetricSpec) :
    ∃ registry ledger ticket, (p.create spec).2
      = { p with registry := registry, ledger := ledger, nextTicket := ticket } := by
  rw [create]
  split
  · exact ⟨p.registry, p.ledger, p.nextTicket, rfl⟩
  · split <;> rename_i hattach <;> obtain ⟨new, ticket, rfl, -⟩ := exists_attach_eq hattach
    · exact ⟨p.registry, _, ticket, rfl⟩
    · split
      · rename_i hinsert
        obtain ⟨registry, -, rfl⟩ := Failure.map_eq_ok_iff.mp hinsert
        exact ⟨registry, _, ticket, rfl⟩
      · rename_i m' _ _ _
        obtain ⟨back, hrelease, -⟩ := exists_release_eq _ spec.withdrawal m'
        exact ⟨p.registry, _, ticket, hrelease⟩

/-- To finalize changes the registry and the ledger, and stops the work in the background. -/
theorem exists_finalize_eq (p : Provider) :
    ∃ registry ledger interval?, p.finalize = { p with
      registry := registry, ledger := ledger, interval? := interval?, finalized := true } := by
  rw [finalize]
  split
  · rename_i hfinalized
    exact ⟨p.registry, p.ledger, p.interval?, by rw [← hfinalized]⟩
  · obtain ⟨ledger, hremove⟩ := exists_removeAll_eq { p with finalized := true, interval? := none }
    exact ⟨_, ledger, none, hremove⟩

/-- Only the sinks and the reducer know of a reduction. -/
theorem exists_reduce_eq (p : Provider) (id : MetricId) :
    ∃ engine, (p.reduce id).2 = { p with engine := engine } := by
  rw [reduce]
  split
  · exact ⟨p.engine, rfl⟩
  · exact ⟨_, rfl⟩

theorem exists_globalReduce_eq {id : MetricId} (h : p.globalReduce id = .ok p') :
    ∃ engine, p' = { p with engine := engine } := by
  obtain ⟨m, -, rfl⟩ := Failure.map_eq_ok_iff.mp h
  exact ⟨_, rfl⟩

/-- Only the sinks and the reducer know of a cycle. -/
theorem exists_cycle_eq (p : Provider) : ∃ engine, p.cycle.2 = { p with engine := engine } := by
  cases h : p.settings.batched with
  | true => exact ⟨_, by simp only [cycle, h]; rfl⟩
  | false => exact ⟨_, by simp only [cycle, h]; rfl⟩

/-- And the clock goes on. -/
theorem exists_wait_eq (p : Provider) (ms : Nat) :
    ∃ engine clock, p.wait ms = { p with engine := engine, clock := clock } := by
  have hcycles : ∀ n : Nat, ∃ engine,
      (n.fold (fun _ _ p => p.cycle.2) p : Provider) = { p with engine := engine } := by
    intro n
    induction n with
    | zero => exact ⟨p.engine, rfl⟩
    | succ n ih =>
      obtain ⟨engine, hengine⟩ := ih
      obtain ⟨next, hnext⟩ := exists_cycle_eq { p with engine := engine }
      rw [Nat.fold_succ, hengine, hnext]
      exact ⟨next, rfl⟩
  obtain ⟨engine, hengine⟩ := hcycles (p.cyclesWithin ms)
  rw [wait, hengine]
  exact ⟨engine, _, rfl⟩

/-- The id of a provider, its token and its settings are what they were at the start. -/
theorem Step.exists_eq (h : Step p p') :
    ∃ registry backends engine ledger ticket clock interval? finalized, p' = { p with
      registry := registry, backends := backends, engine := engine, ledger := ledger,
      nextTicket := ticket, clock := clock, interval? := interval?, finalized := finalized } := by
  cases h with
  | registerBackend hr =>
    obtain ⟨_, -, rfl⟩ := Failure.map_eq_ok_iff.mp hr
    exact ⟨_, _, _, _, _, _, _, _, rfl⟩
  | create spec =>
    obtain ⟨_, _, _, hcreate⟩ := p.exists_create_eq spec
    exact ⟨_, _, _, _, _, _, _, _, hcreate⟩
  | update hu =>
    obtain ⟨_, -, hmap⟩ := Option.map_eq_some_iff.mp hu
    obtain ⟨_, -, rfl⟩ := Failure.map_eq_ok_iff.mp hmap
    exact ⟨_, _, _, _, _, _, _, _, rfl⟩
  | updateDelta hu =>
    obtain ⟨_, -, hmap⟩ := Option.map_eq_some_iff.mp hu
    obtain ⟨_, -, rfl⟩ := Failure.map_eq_ok_iff.mp hmap
    exact ⟨_, _, _, _, _, _, _, _, rfl⟩
  | withdraw hw =>
    obtain ⟨_, _, _, -, hwithdraw⟩ := exists_withdraw_eq hw
    exact ⟨_, _, _, _, _, _, _, _, hwithdraw⟩
  | removeAll =>
    obtain ⟨_, hremove⟩ := p.exists_removeAll_eq
    exact ⟨_, _, _, _, _, _, _, _, hremove⟩
  | finalize =>
    obtain ⟨_, _, _, hfinalize⟩ := p.exists_finalize_eq
    exact ⟨_, _, _, _, _, _, _, _, hfinalize⟩
  | reduce id =>
    obtain ⟨_, hreduce⟩ := p.exists_reduce_eq id
    exact ⟨_, _, _, _, _, _, _, _, hreduce⟩
  | globalReduce hg =>
    obtain ⟨_, hreduce⟩ := exists_globalReduce_eq hg
    exact ⟨_, _, _, _, _, _, _, _, hreduce⟩
  | cycle =>
    obtain ⟨_, hcycle⟩ := p.exists_cycle_eq
    exact ⟨_, _, _, _, _, _, _, _, hcycle⟩
  | wait ms =>
    obtain ⟨_, _, hwait⟩ := p.exists_wait_eq ms
    exact ⟨_, _, _, _, _, _, _, _, hwait⟩

/-! ## Names -/

/-- A provider starts without metrics, and nothing has happened. -/
theorem eq_of_start {number : UInt16} {setup : ProviderSetup}
    (h : Provider.start number setup = .ok p) :
    p.ledger = [] ∧ ∃ capacity, p.registry = .empty capacity := by
  simp only [start, Failure.bind_eq_ok_iff] at h
  obtain ⟨settings, -, h⟩ := h
  split at h
  · cases h
  · cases h
    exact ⟨rfl, _, rfl⟩

theorem isNamed_start {number : UInt16} {setup : ProviderSetup}
    (h : Provider.start number setup = .ok p) : p.IsNamed := by
  obtain ⟨-, capacity, hregistry⟩ := eq_of_start h
  rw [IsNamed, hregistry]
  exact Registry.all_empty capacity

theorem isNamed_describe {spec : MetricSpec} (h : p.describe spec = .ok m) : m.IsNamed := by
  simp only [describe, Failure.bind_eq_ok_iff] at h
  obtain ⟨m', hmake, h⟩ := h
  split at h
  · cases h
  · cases h
    exact Metric.isNamed_of_ofSpec hmake

theorem isNamed_insert (h : p.IsNamed) (hm : m.IsNamed) (hi : p.insert m = .ok p') :
    p'.IsNamed := by
  obtain ⟨r, hr, rfl⟩ := Failure.map_eq_ok_iff.mp hi
  exact Registry.All.insert h hm hr

theorem isNamed_release (h : p.IsNamed) (how : Release) (m : Metric) :
    (p.release how m).IsNamed := by
  obtain ⟨new, hrelease, -⟩ := p.exists_release_eq how m
  rwa [hrelease]

theorem isNamed_create (h : p.IsNamed) (spec : MetricSpec) : (p.create spec).2.IsNamed := by
  unfold create
  split
  · exact h
  · rename_i m hdescribe
    split <;> rename_i hattach <;> obtain ⟨new, ticket, rfl, -, hmetric⟩ := exists_attach_eq hattach
    · exact h
    · obtain ⟨context, rfl⟩ := hmetric _ rfl
      have hm : ({ m with context := context } : Metric).IsNamed :=
        isNamed_describe (m := m) hdescribe
      have hp : ({ p with ledger := new ++ p.ledger, nextTicket := ticket } : Provider).IsNamed := h
      split
      · rename_i hinsert
        exact isNamed_insert hp hm hinsert
      · exact isNamed_release hp _ _

theorem isNamed_modify {id : MetricId} {f : Metric → Except Failure Metric} (h : p.IsNamed)
    (hf : ∀ m m', f m = .ok m' → m'.ns = m.ns ∧ m'.name = m.name)
    (hu : (p.registry.modify? id f).map
      (fun r => r.map fun registry => ({ p with registry := registry } : Provider))
        = some (.ok p')) : p'.IsNamed := by
  obtain ⟨r, hr, hmap⟩ := Option.map_eq_some_iff.mp hu
  obtain ⟨registry, rfl, rfl⟩ := Failure.map_eq_ok_iff.mp hmap
  refine Registry.All.modify? h (fun m m' hm hok => ?_) hr
  obtain ⟨hns, hname⟩ := hf m m' hok
  rwa [Metric.IsNamed, hns, hname]

theorem isNamed_removeAll (h : p.IsNamed) : p.removeAll.2.IsNamed := by
  obtain ⟨ledger, hremove⟩ := p.exists_removeAll_eq
  rw [hremove]
  exact (Registry.All.removeAll h).2

/-- No operation registers a metric whose names exceed the bounds. -/
theorem Step.isNamed (h : p.IsNamed) (hs : Step p p') : p'.IsNamed := by
  cases hs with
  | registerBackend hr =>
    obtain ⟨_, -, rfl⟩ := Failure.map_eq_ok_iff.mp hr
    exact h
  | create spec => exact isNamed_create h spec
  | update hu =>
    refine isNamed_modify h (fun m m' hok => ?_) hu
    obtain ⟨_, -, rfl⟩ := Failure.map_eq_ok_iff.mp hok
    exact ⟨rfl, rfl⟩
  | updateDelta hu =>
    refine isNamed_modify h (fun m m' hok => ?_) hu
    obtain ⟨_, -, rfl⟩ := Failure.map_eq_ok_iff.mp hok
    exact ⟨rfl, rfl⟩
  | withdraw hw =>
    obtain ⟨m, registry, ledger, hremove, rfl⟩ := exists_withdraw_eq hw
    exact (Registry.All.remove h hremove).2
  | removeAll => exact isNamed_removeAll h
  | finalize =>
    unfold Provider.finalize
    split
    · exact h
    · exact isNamed_removeAll h
  | reduce id =>
    obtain ⟨engine, hreduce⟩ := p.exists_reduce_eq id
    rwa [hreduce]
  | globalReduce hg =>
    obtain ⟨engine, rfl⟩ := exists_globalReduce_eq hg
    exact h
  | cycle =>
    obtain ⟨engine, hcycle⟩ := p.exists_cycle_eq
    rwa [hcycle]
  | wait ms =>
    obtain ⟨engine, clock, hwait⟩ := p.exists_wait_eq ms
    rwa [hwait]

/-- The names of all metrics of a provider keep to the bounds, whatever was done to it. -/
theorem Reachable.isNamed (h : Reachable p) : p.IsNamed := by
  induction h with
  | start h => exact isNamed_start h
  | step _ hs ih => exact hs.isNamed ih

/-! ## An example -/

/-- A provider without settings. -/
def plain : Provider where
  id := 1
  token := none
  finalizeOnShutdown := false
  settings := {}
  registry := .empty 160000
  backends := ⟨[.dummy]⟩
  engine := {}
  interval? := none

theorem reachable_plain : Reachable plain := by
  have hstart : Provider.start 1 {} = .ok plain := rfl
  exact .start hstart

/-- A gauge with a context of the dummy backend. -/
def stored : MetricSpec :=
  ⟨"ns", "late", .gauge, .empty, "", .null, some ⟨"dummy", .null, false⟩⟩

end Telemetry.Provider
