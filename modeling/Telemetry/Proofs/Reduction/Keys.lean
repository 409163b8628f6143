import Telemetry.Proofs.Metric.Made
import Telemetry.Proofs.Reduction.Local

/-!
# Keys of live metrics

Live metrics differ in their identities, which come from their names, but a key does not tell where
one name ends. Metrics with the same words in their names overwrite each other in a pass over the
registry; if there are none, the pass writes a key for every metric that it reports.

## Main definitions

* `ReductionEngine.writtenKeys`: the keys that a pass writes.
* `Registry.Keyed`: what keys tell of live metrics, and what that means for a pass.

## Main statements

* `Registry.performAll_keyed`: after any operations.
-/
namespace Telemetry

/-- The keys that a pass over some metrics writes, with the sink of each. -/
def ReductionEngine.writtenKeys (e : ReductionEngine) (metrics : List Metric) :
    Finset (Nat × String) :=
  ((metrics.filter e.writes).map fun m => (e.home m, m.reductionKey)).toFinset

theorem ReductionEngine.card_writtenKeys {metrics : List Metric}
    (hkeys : (metrics.map Metric.reductionKey).Nodup) (e : ReductionEngine) :
    (e.writtenKeys metrics).card = metrics.countP e.writes := by
  have hnodup : ((metrics.filter e.writes).map fun m => (e.home m, m.reductionKey)).Nodup := by
    apply List.Nodup.of_map Prod.snd
    rw [List.map_map]
    exact hkeys.sublist (List.filter_sublist.map _)
  rw [writtenKeys, List.toFinset_card_of_nodup hnodup, List.length_map, List.countP_eq_length_filter]

/-- Whether an operation inserts, if anything, a metric with the identity of its names. -/
def RegistryOperation.InsertsOwn : RegistryOperation → Prop
  | .insert m => m.HasOwnId
  | _ => True

namespace Registry

variable {r r' : Registry} {m m' : Metric}

/-! ## Identities of registered metrics -/

/-- No operation gives a metric an identity that its names do not have. -/
theorem All.performAll {ops : List RegistryOperation} (h : r.All Metric.HasOwnId)
    (hops : ∀ op ∈ ops, op.InsertsOwn) :
    (RegistryOperation.performAll Registry.perform r ops).2.All Metric.HasOwnId := by
  have hmade : ∀ spec capacity m, Metric.ofSpec spec capacity = .ok m → m.HasOwnId :=
    fun _ _ _ => Metric.hasOwnId_of_ofSpec
  exact h.performAll_of_made hmade (fun _ _ hm => hm) fun m hm => hops (.insert m) hm

/-! ## Keys -/

/-- What keys tell of the metrics of a registry, and a pass over the registry of the keys. -/
structure Keyed (r : Registry) : Prop where
  /-- Keys tell the operators and the words of the names, and nothing else. -/
  same_iff : ∀ m ∈ r.metrics, ∀ m' ∈ r.metrics,
    m.reductionKey = m'.reductionKey ↔ m.operator = m'.operator ∧ m.words = m'.words
  /-- Different metrics share a key only if there is an underscore in one of their names. -/
  underscore : ∀ m ∈ r.metrics, ∀ m' ∈ r.metrics, m ≠ m' → m.reductionKey = m'.reductionKey →
    ∃ name ∈ m.names ++ m'.names, '_' ∈ name.toList
  /-- If no two of the metrics share a key, a pass over them overwrites no value that it has written,
  and writes as many keys as it reports. -/
  isolates : (∀ m ∈ r.metrics, ∀ m' ∈ r.metrics, m ≠ m' → m.operator = m'.operator →
      m.words ≠ m'.words) →
    ∀ (e : ReductionEngine) (metrics : List Metric), 0 < e.sinks.size → metrics.Perm r.metrics →
      ReductionEngine.Isolates r.metrics e (e.reduceAll metrics).1 (e.reduceAll metrics).2 ∧
        (e.reduceAll metrics).1.reduced = (e.writtenKeys r.metrics).card

theorem IsMap.eq_of_id (h : r.IsMap) (hm : m ∈ r.metrics) (hm' : m' ∈ r.metrics)
    (hid : m.id = m'.id) : m = m' :=
  List.inj_on_of_nodup_map h.nodup hm hm' hid

theorem IsMap.keyed (h : r.IsMap) (hown : r.All Metric.HasOwnId) : Keyed r where
  same_iff m _ m' _ := Metric.reductionKey_eq_iff
  underscore m hm m' hm' hne hkey := by
    by_contra hnone
    push Not at hnone
    have hnames := Metric.names_eq_of_reductionKey hnone hkey
    exact hne (h.eq_of_id hm hm' ((hown.of_mem_metrics hm).id_eq (hown.of_mem_metrics hm') hnames))
  isolates hapart e metrics hn horder := by
    have hkeys : (r.metrics.map Metric.reductionKey).Nodup := by
      refine List.Nodup.map_on (fun m hm m' hm' hkey => ?_) (List.Nodup.of_map _ h.nodup)
      by_contra hne
      obtain ⟨hop, hwords⟩ := Metric.reductionKey_eq_iff.mp hkey
      exact hapart m hm m' hm' hne hop hwords
    have hisolates := ReductionEngine.reduceAll_isolates hn r horder hkeys
    exact ⟨hisolates, by rw [hisolates.reduced, ReductionEngine.card_writtenKeys hkeys]⟩

/-- After any operations keys tell the words in the names of live metrics, but not the names. -/
theorem performAll_keyed (capacity : Nat) {ops : List RegistryOperation}
    (hops : ∀ op ∈ ops, op.InsertsOwn) :
    Keyed (RegistryOperation.performAll Registry.perform (empty capacity) ops).2 := by
  have hmap := ((represents_empty capacity).performAll ops).2.isMap
  exact hmap.keyed ((all_empty capacity).performAll hops)

/-! ## Examples -/

/-- A counter that is summed up. -/
def summed (ns name : String) : MetricSpec := ⟨ns, name, .counter, .empty, "", .sum, none⟩

/-- A registry of some counters that have counted to one. -/
def counted (specs : List MetricSpec) : Registry :=
  (RegistryOperation.performAll Registry.perform (empty 4) (specs.flatMap fun spec =>
    [.create spec, .update spec.id ⟨0x3ff0000000000000⟩ ⟨0⟩ 0])).2

/-- Two names in which underscores stand apart, and two in which they do not. -/
def apart : List MetricSpec := [summed "a" "b_c", summed "a_b" "d"]

theorem performAll_keyed_apart :
    Keyed (counted apart) ∧
      (counted apart).metrics.map Metric.reductionKey = ["a_b_d_SUM", "a_b_c_SUM"] := by
  refine ⟨performAll_keyed 4 ?_, ?_⟩
  · simp [apart, RegistryOperation.InsertsOwn]
  · decide +kernel

/-- Two counters of different names that have the same words. -/
def clashing : Registry := counted [summed "a" "b_c", summed "a_b" "c"]

/-- One sink, and nothing in it. -/
def oneSink : ReductionEngine := { sinks := #[{}] }

theorem clashing_not_apart :
    (clashing.metrics.map Metric.id).Nodup ∧
      clashing.metrics.map Metric.reductionKey = ["a_b_c_SUM", "a_b_c_SUM"] ∧
      (oneSink.reduceAll clashing.metrics).1.reduced = 2 ∧
      (oneSink.reduceAll clashing.metrics).2.sinks.toList.map (fun s => s.data.map Prod.fst)
        = [["a_b_c_SUM"]] := by
  decide +kernel

end Registry

end Telemetry
