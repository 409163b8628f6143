import Telemetry.Proofs.Metric.Made
import Telemetry.Proofs.Provider.Cycles
import Telemetry.Proofs.Reduction.Values

/-!
# What is read from the sinks

The samples of a metric fit into memory, so they can be counted in eight bytes, whatever was done to
the registry. So whatever a reduction writes to a sink is read as what the operator of a metric makes
of its window.

## Main definitions

* `Metric.IsReadFrom`: stored bytes are read as the reduced window of a metric.
* `ReductionEngine.Retrieves`: this holds of everything that a pass writes.

## Main statements

* `Registry.performAll_retrieves`: after any operations on the registry.
-/
namespace Telemetry

/-! ## Windows that fit into memory -/

/-- Whether there is as much memory as a buffer has room for. -/
def SampleBuffer.IsAllocated (b : SampleBuffer) : Prop :=
  b.capacity * Sample.packedLength ≤ allocationLimit

theorem SampleBuffer.isAllocated_of_ofCapacity {kind : Kind} {capacity : Nat} {b : SampleBuffer}
    (h : ofCapacity kind capacity = .ok b) : b.IsAllocated := by
  obtain ⟨-, hcapacity, -, hlimit⟩ := new_of_ofCapacity h
  rwa [IsAllocated, hcapacity]

theorem SampleBuffer.IsAllocated.length_window_lt {b : SampleBuffer} (h : b.IsAllocated) :
    b.window.length < 2 ^ 64 := by
  have hle := b.length_window_le
  unfold IsAllocated Sample.packedLength allocationLimit at h
  omega

theorem ReducedValue.isCountable_of_ofWindow {op : Operator} {kind : Kind} {window : List Sample}
    {v : ReducedValue} (h : window.length < 2 ^ 64) (hv : ofWindow op kind window = some v) :
    v.IsCountable := by
  have houtliers : (Statistics.outliers window).length ≤ window.length := by
    unfold Statistics.outliers
    split
    · exact Nat.zero_le _
    · exact (List.length_filter_le _ _).trans (List.length_map _).le
  unfold ofWindow at hv
  split at hv
  · cases hv
  · cases op with
    | null => cases hv
    | sum =>
      cases hv
      trivial
    | avg | min | max =>
      obtain ⟨x, -, rfl⟩ := Option.map_eq_some_iff.mp hv
      trivial
    | store =>
      cases hv
      exact h
    | anomaly =>
      cases hv
      exact houtliers.trans_lt h

/-- Whether an operation inserts, if anything, a metric for whose samples there is memory. -/
def RegistryOperation.InsertsAllocated : RegistryOperation → Prop
  | .insert m => m.buffer.IsAllocated
  | _ => True

/-- The room for samples is fixed when a metric is made. -/
theorem Registry.All.performAll_allocated {r : Registry} {ops : List RegistryOperation}
    (h : r.All fun m => m.buffer.IsAllocated) (hops : ∀ op ∈ ops, op.InsertsAllocated) :
    (RegistryOperation.performAll Registry.perform r ops).2.All fun m => m.buffer.IsAllocated := by
  refine h.performAll_of_kept (fun spec capacity m hm => ?_) (fun m b hm hcapacity => ?_)
    fun m hm => hops (.insert m) hm
  · simp only [Metric.ofSpec, Failure.bind_eq_ok_iff] at hm
    obtain ⟨_, -, b, hb, heq⟩ := hm
    cases heq
    exact SampleBuffer.isAllocated_of_ofCapacity hb
  · unfold SampleBuffer.IsAllocated
    rw [hcapacity]
    exact hm

/-! ## Sinks -/

/-- Whether there are stored bytes which are read as what the operator of a metric makes of its
window. -/
def Metric.IsReadFrom (m : Metric) (stored : Option Bytes) : Prop :=
  ∃ bytes value, stored = some bytes ∧ ReducedValue.decode bytes = .ok value ∧
    ReducedValue.ofWindow m.operator m.kind m.buffer.window = some value

theorem Metric.isReadFrom_encode {m : Metric} {value : ReducedValue} (hm : m.buffer.IsAllocated)
    (h : ReductionEngine.localValue? m = some value) : m.IsReadFrom (some value.encode) := by
  have hcount : value.IsCountable := ReducedValue.isCountable_of_ofWindow hm.length_window_lt h
  refine ⟨value.encode, value, rfl, ?_, h⟩
  simpa using hcount.decode_append []

namespace ReductionEngine

variable {e : ReductionEngine} {metrics : List Metric} {batched : Bool} {m : Metric}

/-- What is read from the sinks behind a pass over some metrics. -/
structure Retrieves (e : ReductionEngine) (batched : Bool) (metrics : List Metric) : Prop where
  /-- Where a metric is written, the last metric that is written there is read. -/
  last : ∀ m ∈ metrics, e.lands batched metrics m = true →
    ∃ m', keeper? e.sinks.size metrics m = some m' ∧
      m'.IsReadFrom ((e.localPass batched metrics).2.stored? (e.home m) m.reductionKey)
  /-- This is the metric itself, unless another one has its key. -/
  own : ∀ m ∈ metrics, e.lands batched metrics m = true →
    (∀ m' ∈ metrics, m'.reductionKey = m.reductionKey → m' = m) →
    m.IsReadFrom ((e.localPass batched metrics).2.stored? (e.home m) m.reductionKey)
  /-- Whatever was not there before is read as the window of a metric of its sink and key. -/
  changed : ∀ i key, (e.localPass batched metrics).2.stored? i key ≠ e.stored? i key →
    ∃ m ∈ metrics, e.home m = i ∧ m.reductionKey = key ∧
      m.IsReadFrom ((e.localPass batched metrics).2.stored? i key)
  /-- A metric that is reduced for itself is read, if its key is not refused. -/
  alone : ∀ m ∈ metrics, e.writes m = true →
    m.IsReadFrom ((e.reduce m).2.stored? (e.home m) m.reductionKey)

theorem stored?_reduce (hn : 0 < e.sinks.size) (m : Metric) (i : Nat) (key : String) :
    (e.reduce m).2.stored? i key = (e.localPass false [m]).2.stored? i key := by
  have hreduce : (e.reduce m).2 = (e.reduceOne m).2 := by
    rw [reduce]
    split <;> simp [*]
  rw [hreduce, stored?, getElem?_reduceOne hn, ← getElem?_reduceAll hn]
  rfl

theorem isReadFrom_of_lands (hn : 0 < e.sinks.size)
    (hallocated : ∀ m ∈ metrics, m.buffer.IsAllocated) (hm : m ∈ metrics)
    (h : e.lands batched metrics m = true) :
    ∃ m', keeper? e.sinks.size metrics m = some m' ∧
      m'.IsReadFrom ((e.localPass batched metrics).2.stored? (e.home m) m.reductionKey) := by
  obtain ⟨m', value, hkeeper, -, hvalue, hstored⟩ := stored?_of_lands hn hm h
  refine ⟨m', hkeeper, ?_⟩
  rw [hstored]
  exact Metric.isReadFrom_encode (hallocated m' (mem_of_keeper? hkeeper).1) hvalue

theorem retrieves (hn : 0 < e.sinks.size) (hallocated : ∀ m ∈ metrics, m.buffer.IsAllocated) :
    e.Retrieves batched metrics where
  last m hm h := isReadFrom_of_lands hn hallocated hm h
  own m hm h halone := by
    obtain ⟨m', hkeeper, hread⟩ := isReadFrom_of_lands hn hallocated hm h
    rwa [eq_of_keeper? halone hkeeper] at hread
  changed i key h := by
    obtain ⟨m, hm, hlands, rfl, rfl⟩ := exists_of_stored?_ne hn h
    obtain ⟨m', hkeeper, hread⟩ := isReadFrom_of_lands hn hallocated hm hlands
    obtain ⟨hm', hoverlaps⟩ := mem_of_keeper? hkeeper
    obtain ⟨-, hhome, hkey⟩ := overlaps_iff.mp hoverlaps
    exact ⟨m', hm', hhome, hkey, hread⟩
  alone m hm h := by
    have hlands : e.lands false [m] m = true := h
    have hallocated' : ∀ m' ∈ [m], m'.buffer.IsAllocated := by simpa using hallocated m hm
    obtain ⟨m', hkeeper, hread⟩ := isReadFrom_of_lands hn hallocated' List.mem_cons_self hlands
    rw [stored?_reduce hn]
    rwa [List.mem_singleton.mp (mem_of_keeper? hkeeper).1] at hread

end ReductionEngine

/-- Stored values are read back, and nothing else is taken for them; so whatever a reduction of a
registry writes to a sink is read as what an operator made of a window. -/
theorem Registry.performAll_retrieves (capacity : Nat) {ops : List RegistryOperation}
    (hops : ∀ op ∈ ops, op.InsertsAllocated) :
    (∀ v : ReducedValue, v.IsCountable → v.Survives) ∧ Function.Injective ReducedValue.encode ∧
      (∀ (input : Bytes) (v : ReducedValue),
        ReducedValue.decode input = .ok v ↔ v.IsCountable ∧ v.encode <+: input) ∧
      ∀ (e : ReductionEngine) (batched : Bool) (metrics : List Metric), 0 < e.sinks.size →
        metrics.Perm (RegistryOperation.performAll Registry.perform (empty capacity) ops).2.metrics →
        e.Retrieves batched metrics := by
  have hall := (all_empty capacity).performAll_allocated hops
  refine ⟨fun v hv => hv.survives, ReducedValue.encode_injective,
    fun _ _ => ReducedValue.decode_eq_ok_iff, ?_⟩
  intro e batched metrics hn horder
  exact ReductionEngine.retrieves hn fun m hm => hall.of_mem_metrics (horder.mem_iff.mp hm)

/-- A gauge whose window is stored as it is. -/
def keptGauge : MetricSpec := ⟨"load", "cpu", .gauge, .empty, "", .store, none⟩

/-- A gauge that is made, and a negative zero recorded in it. -/
def keepingGauge : List RegistryOperation :=
  [.create keptGauge, .update keptGauge.id .negativeZero .zero 7]

/-- A value with a NaN that carries a payload is stored, and a batch with one window is written. -/
theorem Registry.performAll_retrieves_keptGauge :
    let r := (RegistryOperation.performAll Registry.perform (empty 2) keepingGauge).2
    (ReducedValue.outliers [⟨0x7FF0000000000001⟩, .infinity]).Survives ∧
      oneSink.Retrieves true r.metrics ∧
      ((oneSink.localPass true r.metrics).2.stored? 0 "load_cpu_STORE").bind ReducedValue.decode?
        = some (.samples [⟨.zero, .negativeZero, 7⟩]) := by
  have hops : ∀ op ∈ keepingGauge, op.InsertsAllocated := by
    simp [keepingGauge, RegistryOperation.InsertsAllocated]
  obtain ⟨hsurvives, -, -, hretrieves⟩ := performAll_retrieves 2 hops
  exact ⟨hsurvives _ (by decide), hretrieves oneSink true _ (by decide) (List.Perm.refl _),
    by decide +kernel⟩

end Telemetry
