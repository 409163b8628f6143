import Telemetry.Proofs.Provider.Contexts

/-!
# Finalization

The first finalization of a provider removes every metric and hands every context back, also to
backends that fail. A finalized provider can still create metrics, and these no later finalization
removes.

## Main definitions

* `Provider.IsReleased`: no metric is live, and every context was handed back once.

## Main statements

* `Provider.isReleased_iff`: with nothing live, nothing is left to hand back.
* `Provider.isReleased_finalize_iff`: when a finalization releases everything.
-/
namespace Telemetry.Provider

variable {p p' : Provider}

/-- Nothing of a provider is in use: no metric is live, and of every context that was made it was
said once, and only once, that it was handed back. -/
structure IsReleased (p : Provider) : Prop where
  metrics : p.registry.metrics = []
  released : p.released.Perm p.made
  nodup : (p.released.map BackendContext.ticket).Nodup

/-- Between two operations contexts are out only for metrics that are live. -/
theorem isReleased_iff (h : Reachable p) : p.IsReleased ↔ p.registry.metrics = [] := by
  constructor
  · intro hreleased
    exact hreleased.metrics
  · intro hmetrics
    have hattached : p.attached = [] := by
      rw [attached, Registry.contexts, hmetrics, List.filterMap_nil]
    have hperm := h.accounts.perm_made
    rw [hattached, List.append_nil, List.append_nil] at hperm
    exact ⟨hmetrics, hperm.symm, h.accounts.nodup_released⟩

theorem finalize_of_finalized (h : p.finalized = true) : p.finalize = p := if_pos h

/-- The first finalization leaves no metric, and a later one leaves those that are there. -/
theorem metrics_finalize_eq_nil_iff (h : Reachable p) :
    p.finalize.registry.metrics = [] ↔ p.finalized = false ∨ p.registry.metrics = [] := by
  by_cases hf : p.finalized = true
  · rw [finalize_of_finalized hf]
    simp [hf]
  · have hregistry : p.finalize.registry = p.registry.removeAll.2 := by
      obtain ⟨ledger, hremove⟩ :=
        exists_removeAll_eq { p with finalized := true, interval? := none }
      rw [finalize, if_neg hf, hremove]
    have hmetrics := h.accounts.isMap.removeAll.2
    simp [hf, hregistry, hmetrics]

/-- After any operations a finalization releases everything unless it is not the first one and
metrics were created since. -/
theorem isReleased_finalize_iff (h : Reachable p) :
    p.finalize.IsReleased ↔ p.finalized = false ∨ p.registry.metrics = [] := by
  rw [isReleased_iff (h.step .finalize)]
  exact metrics_finalize_eq_nil_iff h

/-- A provider that was finalized and then asked for a metric. -/
def refilled : Provider := (plain.finalize.create stored).2

theorem isReleased_finalize_iff_refilled :
    Reachable refilled ∧ ¬ refilled.finalize.IsReleased := by
  have hrefilled : Reachable refilled := (reachable_plain.step .finalize).step (.create stored)
  refine ⟨hrefilled, ?_⟩
  rw [isReleased_finalize_iff hrefilled]
  decide +kernel

end Telemetry.Provider
