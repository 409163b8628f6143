import Telemetry.Proofs.Metric.Live
import Telemetry.Proofs.Provider.Reachable

/-!
# Contexts of storage backends

Every context that a backend made is in one place: a live metric has it, or a call in progress, or it
was handed back. No operation loses one or hands one back twice, whatever the backends have against
taking it.

## Main definitions

* `BackendRegistry.Wrote`: whether a ledger is what the backends of a registry did, each entry in
  view of what went before it.
* `Provider.attached`: the contexts of live metrics.
* `Provider.Accounts`: the contexts that were made are accounted for.

## Main statements

* `Provider.Accounts.release`, `Provider.Accounts.attach` and so on: what each atomic step does with
  contexts.
* `Provider.Reachable.accounts`: between two operations nothing but live metrics has a context.
-/
namespace Telemetry

namespace BackendRegistry

variable {r r' : BackendRegistry} {b b' : Backend} {name : String}

theorem name_of_find? (h : r.find? name = some b) : b.name = name := by
  simpa using List.find?_some h

theorem find?_of_get (h : r.get name = .ok b) : r.find? name = some b := by
  rw [get] at h
  split at h
  · cases h
    assumption
  · cases h

/-- A backend that is known stays known under its name. -/
theorem find?_of_register (hr : r.register b = .ok r') (h : r.find? name = some b') :
    r'.find? name = some b' := by
  unfold register at hr
  split at hr
  · cases hr
  · rename_i hfresh
    cases hr
    have hne : b.name ≠ name := by
      rintro rfl
      rw [h] at hfresh
      exact hfresh rfl
    rw [find?, List.find?_cons_of_neg (by simpa using hne)]
    exact h

/-! ## The ledger -/

/-- Whether an entry of a ledger is what the backend of its name does after what went before. Only a
context that was made is handed back. -/
def Accords (r : BackendRegistry) (before : List Handover) : Handover → Prop
  | .made making c => ∃ b, r.find? c.owner = some b ∧
      b.make before making c.ticket c.provider c.config = .ok c
  | .refused making name provider config => ∃ b failure, r.find? name = some b ∧
      b.makeFailure? before making provider config = some failure
  | .released how c failure? => ∃ b making, r.find? c.owner = some b ∧
      .made making c ∈ before ∧ failure? = b.releaseFailure? before how c

/-- Whether every entry of a ledger is what the backends do. -/
def Wrote (r : BackendRegistry) : List Handover → Prop
  | [] => True
  | entry :: before => r.Accords before entry ∧ r.Wrote before

theorem Accords.of_register {before : List Handover} {entry : Handover}
    (hr : r.register b = .ok r') (h : r.Accords before entry) : r'.Accords before entry := by
  cases entry with
  | made making c =>
    obtain ⟨b', hb, hmake⟩ := h
    exact ⟨b', find?_of_register hr hb, hmake⟩
  | refused making name provider config =>
    obtain ⟨b', failure, hb, hrefuse⟩ := h
    exact ⟨b', failure, find?_of_register hr hb, hrefuse⟩
  | released how c failure? =>
    obtain ⟨b', making, hb, hmade, htake⟩ := h
    exact ⟨b', making, find?_of_register hr hb, hmade, htake⟩

theorem Wrote.of_register {ledger : List Handover} (hr : r.register b = .ok r')
    (h : r.Wrote ledger) : r'.Wrote ledger := by
  induction ledger with
  | nil => exact trivial
  | cons entry before ih => exact ⟨h.1.of_register hr, ih h.2⟩

/-- What went before an entry is the rest of the ledger. -/
theorem Wrote.accords {newer before : List Handover} {entry : Handover}
    (h : r.Wrote (newer ++ entry :: before)) : r.Accords before entry := by
  induction newer with
  | nil => exact h.1
  | cons _ _ ih => exact ih h.2

/-- The backend that made a context is the one that takes it back. -/
theorem Wrote.exists_maker {newer older : List Handover} {how : Release} {c : BackendContext}
    {failure? : Option Failure} (h : r.Wrote (newer ++ .released how c failure? :: older)) :
    ∃ between making oldest b, older = between ++ .made making c :: oldest ∧
      r.find? c.owner = some b ∧ b.make oldest making c.ticket c.provider c.config = .ok c ∧
      failure? = b.releaseFailure? older how c := by
  obtain ⟨b, making, hb, hmade, htake⟩ := h.accords
  obtain ⟨between, oldest, rfl⟩ := List.append_of_mem hmade
  rw [← List.singleton_append, ← List.append_assoc, ← List.append_assoc] at h
  obtain ⟨b', hb', hmake⟩ := h.accords
  rw [hb] at hb'
  cases hb'
  exact ⟨between, making, oldest, b, rfl, hb, hmake, htake⟩

end BackendRegistry

/-- The contexts of the metrics of a registry. -/
def Registry.contexts (r : Registry) : List BackendContext := r.metrics.filterMap Metric.context

namespace Provider

variable {p p' : Provider} {m m' : Metric} {held : List BackendContext} {c : BackendContext}

/-! ## Accounts -/

/-- The contexts of live metrics. -/
def attached (p : Provider) : List BackendContext := p.registry.contexts

theorem mem_made_iff : c ∈ p.made ↔ ∃ making, .made making c ∈ p.ledger := by
  rw [made, List.mem_filterMap]
  constructor
  · rintro ⟨h, hmem, hc⟩
    cases h with
    | made making c' =>
      obtain rfl : c' = c := Option.some.inj hc
      exact ⟨making, hmem⟩
    | refused | released => cases hc
  · rintro ⟨making, hmem⟩
    exact ⟨_, hmem, rfl⟩

/-- Every context that was made was handed back, belongs to a live metric or is held by a call. Each
has a ticket of its own, and the ledger says of it what the backend of its name did. -/
structure Accounts (p : Provider) (held : List BackendContext) : Prop where
  isMap : p.registry.IsMap
  balance : (p.made : Multiset BackendContext) = p.released + p.attached + held
  nodup : (p.made.map BackendContext.ticket).Nodup
  ticket_lt : ∀ c ∈ p.made, c.ticket < p.nextTicket
  wrote : p.backends.Wrote p.ledger

/-- The backend that made a context is known by the name that the context keeps. -/
theorem Accounts.exists_maker (h : p.Accounts held) {making : Making}
    (hmade : .made making c ∈ p.ledger) : ∃ b, p.backends.find? c.owner = some b := by
  obtain ⟨newer, before, hledger⟩ := List.append_of_mem hmade
  have hwrote := h.wrote
  rw [hledger] at hwrote
  obtain ⟨b, hb, -⟩ := hwrote.accords
  exact ⟨b, hb⟩

theorem Accounts.perm_made (h : p.Accounts held) :
    p.made.Perm (p.released ++ p.attached ++ held) :=
  Multiset.coe_eq_coe.mp h.balance

/-- No context was handed back twice. -/
theorem Accounts.nodup_released (h : p.Accounts held) :
    (p.released.map BackendContext.ticket).Nodup := by
  have hnodup := (h.perm_made.map BackendContext.ticket).nodup_iff.mp h.nodup
  rw [List.append_assoc, List.map_append] at hnodup
  exact hnodup.of_append_left

theorem Accounts.mem_made (h : p.Accounts held) (hc : c ∈ held) : c ∈ p.made :=
  h.perm_made.mem_iff.mpr (List.mem_append_right _ hc)

theorem Accounts.perm {held' : List BackendContext} (h : p.Accounts held)
    (hperm : held.Perm held') : p.Accounts held' where
  isMap := h.isMap
  balance := by rw [h.balance, Multiset.coe_eq_coe.mpr hperm]
  nodup := h.nodup
  ticket_lt := h.ticket_lt
  wrote := h.wrote

/-! ## Making a context -/

theorem makeContext_ok {spec : BackendSpec} (h : p.makeContext spec = (.ok c, p')) :
    ∃ b, p.backends.find? spec.name = some b ∧
      b.make p.ledger spec.making p.nextTicket p.id spec.config = .ok c ∧
      p' = { p.record (.made spec.making c) with nextTicket := p.nextTicket + 1 } := by
  rw [makeContext] at h
  split at h
  · cases h
  · rename_i b hget
    split at h
    · cases h
    · rename_i hmake
      cases h
      exact ⟨b, BackendRegistry.find?_of_get hget, hmake, rfl⟩

theorem makeContext_error {spec : BackendSpec} {failure : Failure}
    (h : p.makeContext spec = (.error failure, p')) :
    p' = p ∧ p.backends.get spec.name = .error failure ∨
    ∃ b, p.backends.find? spec.name = some b ∧
      b.makeFailure? p.ledger spec.making p.id spec.config = some failure ∧
      p' = p.record (.refused spec.making b.name p.id spec.config) := by
  rw [makeContext] at h
  split at h
  · rename_i hget
    cases h
    exact .inl ⟨rfl, hget⟩
  · rename_i b hget
    split at h
    · rename_i hmake
      cases h
      refine .inr ⟨b, BackendRegistry.find?_of_get hget, ?_, rfl⟩
      rw [Backend.make] at hmake
      split at hmake
      · cases hmake
        assumption
      · cases hmake
    · cases h

theorem eq_of_make {b : Backend} {before : List Handover} {making : Making} {ticket : Nat}
    {provider : UInt16} {config : Json} (h : b.make before making ticket provider config = .ok c) :
    c = ⟨ticket, b.name, provider, config⟩ := by
  rw [Backend.make] at h
  split at h
  · cases h
  · cases h
    rfl

/-- A refusal is on record, but no context comes of it. -/
theorem Accounts.refused (h : p.Accounts held) {making : Making} {name : String}
    {provider : UInt16} {config : Json}
    (hrefuses : p.backends.Accords p.ledger (.refused making name provider config)) :
    (p.record (.refused making name provider config)).Accounts held where
  isMap := h.isMap
  balance := h.balance
  nodup := h.nodup
  ticket_lt := h.ticket_lt
  wrote := ⟨hrefuses, h.wrote⟩

/-- A new context has a ticket that no other has. -/
theorem Accounts.makeContext (h : p.Accounts held) {spec : BackendSpec}
    (hmake : p.makeContext spec = (.ok c, p')) : p'.Accounts (c :: held) := by
  obtain ⟨b, hb, hc, rfl⟩ := makeContext_ok hmake
  obtain rfl := eq_of_make hc
  have hname : b.name = spec.name := BackendRegistry.name_of_find? hb
  constructor
  case isMap => exact h.isMap
  case balance =>
    change ((_ :: p.made : List _) : Multiset BackendContext)
      = p.released + p.attached + (_ :: held : List _)
    rw [← Multiset.cons_coe, ← Multiset.cons_coe, h.balance, Multiset.add_cons]
  case nodup =>
    refine List.nodup_cons.mpr ⟨fun hmem => ?_, h.nodup⟩
    obtain ⟨c, hc, hticket⟩ := List.mem_map.mp hmem
    exact absurd hticket (Nat.ne_of_lt (h.ticket_lt c hc))
  case ticket_lt =>
    intro c hc
    rcases List.mem_cons.mp hc with rfl | hc
    · exact Nat.lt_succ_self _
    · exact Nat.lt_succ_of_lt (h.ticket_lt c hc)
  case wrote => exact ⟨⟨b, hname ▸ hb, hc⟩, h.wrote⟩

/-- A metric gets the context that was made for it. -/
theorem Accounts.attach (h : p.Accounts held) (hm : m.context = none) {spec : MetricSpec}
    (ha : p.attach spec m = (.ok m', p')) : p'.Accounts (m'.context.toList ++ held) := by
  rw [Provider.attach] at ha
  split at ha
  · cases ha
    rw [hm]
    exact h
  · split at ha
    · cases ha
    · rename_i hmake
      cases ha
      exact h.makeContext hmake

theorem Accounts.attach_error (h : p.Accounts held) {spec : MetricSpec} {failure : Failure}
    (ha : p.attach spec m = (.error failure, p')) : p'.Accounts held := by
  rw [Provider.attach] at ha
  split at ha
  · cases ha
  · split at ha
    · rename_i hmake
      cases ha
      rcases makeContext_error hmake with ⟨rfl, -⟩ | ⟨b, hb, hrefuse, rfl⟩
      · exact h
      · exact h.refused ⟨b, failure, BackendRegistry.name_of_find? hb ▸ hb, hrefuse⟩
    · cases ha

/-! ## Putting a metric in and taking it out -/

theorem filterMap_context_cons (m : Metric) (metrics : List Metric) :
    (m :: metrics).filterMap Metric.context
      = m.context.toList ++ metrics.filterMap Metric.context := by
  cases hm : m.context <;> simp [hm]

/-- What is put into the registry is no longer held. -/
theorem Accounts.insert (h : p.Accounts (m.context.toList ++ held)) (hi : p.insert m = .ok p') :
    p'.Accounts held := by
  obtain ⟨r, hr, rfl⟩ := Failure.map_eq_ok_iff.mp hi
  obtain ⟨hmap, hperm⟩ := h.isMap.insert hr
  have hattached : r.contexts.Perm (m.context.toList ++ p.attached) := by
    rw [attached, Registry.contexts, Registry.contexts, ← filterMap_context_cons]
    exact hperm.filterMap _
  refine ⟨hmap, ?_, h.nodup, h.ticket_lt, h.wrote⟩
  change (p.made : Multiset BackendContext) = p.released + r.contexts + held
  rw [h.balance, Multiset.coe_eq_coe.mpr hattached, ← Multiset.coe_add, ← Multiset.coe_add]
  abel

/-- What is taken out of the registry is held. -/
theorem Accounts.removed (h : p.Accounts held) {r : Registry} {metrics : List Metric}
    (hmap : r.IsMap) (hperm : p.registry.metrics.Perm (metrics ++ r.metrics)) :
    ({ p with registry := r } : Provider).Accounts (metrics.filterMap Metric.context ++ held) := by
  have hattached : p.attached.Perm (metrics.filterMap Metric.context ++ r.contexts) := by
    rw [attached, Registry.contexts, Registry.contexts, ← List.filterMap_append]
    exact hperm.filterMap _
  refine ⟨hmap, ?_, h.nodup, h.ticket_lt, h.wrote⟩
  change (p.made : Multiset BackendContext)
    = p.released + r.contexts + ↑(metrics.filterMap Metric.context ++ held)
  rw [h.balance, Multiset.coe_eq_coe.mpr hattached, ← Multiset.coe_add, ← Multiset.coe_add]
  abel

theorem Accounts.take (h : p.Accounts held) {id : MetricId} (ht : p.take id = .ok (m, p')) :
    m.id = id ∧ p'.Accounts (m.context.toList ++ held) := by
  obtain ⟨⟨m', r⟩, hr, heq⟩ := Failure.map_eq_ok_iff.mp ht
  cases heq
  obtain ⟨hmap, hid, hperm⟩ := h.isMap.remove hr
  have hone : p.registry.metrics.Perm ([m] ++ r.metrics) := hperm
  have h' := h.removed hmap hone
  rw [filterMap_context_cons, List.filterMap_nil, List.append_nil] at h'
  exact ⟨hid, h'⟩

theorem Accounts.drainShard (h : p.Accounts held) (i : Fin shardCount) :
    ({ p with registry := (p.registry.drainShard i).2 } : Provider).Accounts
      ((p.registry.drainShard i).1.filterMap Metric.context ++ held) := by
  obtain ⟨hmap, hperm⟩ := h.isMap.drainShard i
  exact h.removed hmap hperm

/-! ## Handing a context back -/

/-- The backend that made a context takes it back, content or not. -/
theorem Accounts.release (h : p.Accounts (m.context.toList ++ held)) (how : Release) :
    (p.release how m).Accounts held := by
  rw [Provider.release]
  cases hc : m.context with
  | none =>
    rw [hc] at h
    exact h
  | some c =>
    rw [hc] at h
    obtain ⟨making, hmade⟩ := mem_made_iff.mp (h.mem_made (c := c) (by simp))
    obtain ⟨b, hb⟩ := h.exists_maker hmade
    simp only [hb]
    constructor
    case isMap => exact h.isMap
    case balance =>
      change (p.made : Multiset BackendContext) = (c :: p.released : List _) + p.attached + held
      rw [h.balance, ← Multiset.coe_add, Option.toList_some, Multiset.coe_singleton,
        ← Multiset.cons_coe, ← Multiset.singleton_add]
      abel
    case nodup => exact h.nodup
    case ticket_lt => exact h.ticket_lt
    case wrote => exact ⟨⟨b, making, hb, hmade, rfl⟩, h.wrote⟩

theorem Accounts.release_all {metrics : List Metric} (how : Release)
    (h : p.Accounts (metrics.filterMap Metric.context ++ held)) :
    (metrics.foldl (fun p m => p.release how m) p).Accounts held := by
  induction metrics generalizing p with
  | nil => exact h
  | cons m metrics ih =>
    rw [filterMap_context_cons, List.append_assoc] at h
    exact ih (h.release how)

/-! ## Operations -/

theorem accounts_start {number : UInt16} {setup : ProviderSetup}
    (h : Provider.start number setup = .ok p) : p.Accounts [] := by
  obtain ⟨hledger, capacity, hregistry⟩ := eq_of_start h
  have hmetrics : (Registry.empty capacity).metrics = [] := by
    simp [Registry.metrics, Registry.entries, Registry.empty]
  have hmade : p.made = [] := by rw [made, hledger, List.filterMap_nil]
  have hreleased : p.released = [] := by rw [released, hledger, List.filterMap_nil]
  have hattached : p.attached = [] := by
    rw [attached, Registry.contexts, hregistry, hmetrics, List.filterMap_nil]
  constructor
  case isMap =>
    rw [hregistry]
    exact Registry.isMap_empty capacity
  case balance => simp [hmade, hreleased, hattached]
  case nodup => simp [hmade]
  case ticket_lt => simp [hmade]
  case wrote =>
    rw [hledger]
    trivial

theorem describe_ok {spec : MetricSpec} (h : p.describe spec = .ok m) :
    m.id = spec.id ∧ m.context = none := by
  simp only [describe, Failure.bind_eq_ok_iff] at h
  obtain ⟨m', hmake, h⟩ := h
  split at h
  · cases h
  · cases h
    obtain ⟨buffer, rfl⟩ := Metric.eq_of_ofSpec hmake
    exact ⟨rfl, rfl⟩

/-- A creation, one step after the other, ends with the context at the metric or handed back. -/
theorem Accounts.create (h : p.Accounts []) (spec : MetricSpec) : (p.create spec).2.Accounts [] := by
  rw [Provider.create]
  split
  · exact h
  · rename_i m hdescribe
    split
    · rename_i hattach
      exact h.attach_error hattach
    · rename_i m' p' hattach
      have h' := h.attach (describe_ok hdescribe).2 hattach
      split
      · exact h'.insert ‹_›
      · exact h'.release _

/-- A change of a metric leaves its context where it is. -/
theorem Accounts.modify {id : MetricId} {f : Metric → Except Failure Metric} (h : p.Accounts held)
    (hf : ∀ m m', f m = .ok m' → m'.id = m.id ∧ m'.context = m.context)
    (hu : (p.registry.modify? id f).map
      (fun r => r.map fun registry => ({ p with registry := registry } : Provider))
        = some (.ok p')) : p'.Accounts held := by
  obtain ⟨r, hr, hmap⟩ := Option.map_eq_some_iff.mp hu
  obtain ⟨registry, rfl, rfl⟩ := Failure.map_eq_ok_iff.mp hmap
  obtain ⟨hregistry, m, m', rest, hm', hperm, hperm'⟩ :=
    h.isMap.modify? (fun m m' hm => (hf m m' hm).1) hr
  have hcontexts : registry.contexts.Perm p.registry.contexts := by
    refine (hperm'.filterMap _).trans (List.Perm.trans ?_ (hperm.filterMap _).symm)
    rw [filterMap_context_cons, filterMap_context_cons, (hf m m' hm').2]
  refine ⟨hregistry, ?_, h.nodup, h.ticket_lt, h.wrote⟩
  change (p.made : Multiset BackendContext) = p.released + registry.contexts + held
  rw [h.balance, Multiset.coe_eq_coe.mpr hcontexts]
  rfl

theorem Accounts.removeAll (h : p.Accounts []) : p.removeAll.2.Accounts [] := by
  obtain ⟨hmap, hempty⟩ := h.isMap.removeAll
  have hmetrics := Registry.fst_removeAll p.registry
  rw [Provider.removeAll]
  generalize p.registry.removeAll = removed at hmap hempty hmetrics ⊢
  obtain ⟨metrics, r⟩ := removed
  have hperm : p.registry.metrics.Perm (metrics ++ r.metrics) := by
    rw [hempty, List.append_nil, ← hmetrics]
  exact (h.removed hmap hperm).release_all .close

theorem Accounts.of_engine (h : p.Accounts held) (engine : ReductionEngine) (clock : Nat) :
    ({ p with engine := engine, clock := clock } : Provider).Accounts held :=
  ⟨h.isMap, h.balance, h.nodup, h.ticket_lt, h.wrote⟩

theorem Accounts.finalize (h : p.Accounts []) : p.finalize.Accounts [] := by
  rw [Provider.finalize]
  split
  · exact h
  · have h' : ({ p with finalized := true, interval? := none } : Provider).Accounts [] :=
      ⟨h.isMap, h.balance, h.nodup, h.ticket_lt, h.wrote⟩
    exact h'.removeAll

/-- No operation loses a context or hands one back twice. -/
theorem Step.accounts (h : p.Accounts []) (hs : Step p p') : p'.Accounts [] := by
  cases hs with
  | registerBackend hr =>
    obtain ⟨backends, hbackends, rfl⟩ := Failure.map_eq_ok_iff.mp hr
    exact ⟨h.isMap, h.balance, h.nodup, h.ticket_lt, h.wrote.of_register hbackends⟩
  | create spec => exact h.create spec
  | update hu =>
    refine h.modify (fun m m' hok => ?_) hu
    obtain ⟨_, -, rfl⟩ := Failure.map_eq_ok_iff.mp hok
    exact ⟨rfl, rfl⟩
  | updateDelta hu =>
    refine h.modify (fun m m' hok => ?_) hu
    obtain ⟨_, -, rfl⟩ := Failure.map_eq_ok_iff.mp hok
    exact ⟨rfl, rfl⟩
  | withdraw hw =>
    obtain ⟨⟨m, q⟩, htake, rfl⟩ := Failure.map_eq_ok_iff.mp hw
    exact (h.take htake).2.release _
  | removeAll => exact h.removeAll
  | finalize => exact h.finalize
  | reduce id =>
    obtain ⟨engine, hreduce⟩ := p.exists_reduce_eq id
    rw [hreduce]
    exact h.of_engine engine p.clock
  | globalReduce hg =>
    obtain ⟨engine, rfl⟩ := exists_globalReduce_eq hg
    exact h.of_engine engine p.clock
  | cycle =>
    obtain ⟨engine, hcycle⟩ := p.exists_cycle_eq
    rw [hcycle]
    exact h.of_engine engine p.clock
  | wait ms =>
    obtain ⟨engine, clock, hwait⟩ := p.exists_wait_eq ms
    rw [hwait]
    exact h.of_engine engine clock

/-- Between two operations nothing but live metrics has a context. -/
theorem Reachable.accounts (h : Reachable p) : p.Accounts [] := by
  induction h with
  | start h => exact accounts_start h
  | step _ hs ih => exact hs.accounts ih

end Provider

end Telemetry
