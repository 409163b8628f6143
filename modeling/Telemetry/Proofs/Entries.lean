import Mathlib

/-!
# Lists of keyed values

Shards and sinks keep their maps as lists of keyed values, of which the first one with a key counts.
-/
namespace Telemetry.Entries

variable {α β : Type} [DecidableEq α] {l : List (α × β)} {k : α} {v : β}

theorem mem_of_lookup (h : l.lookup k = some v) : (k, v) ∈ l := by
  obtain ⟨front, back, rfl, -⟩ := List.lookup_eq_some_iff.mp h
  exact List.mem_append_right _ List.mem_cons_self

theorem lookup_eq_none_iff_notMem : l.lookup k = none ↔ k ∉ l.map Prod.fst := by
  rw [List.lookup_eq_none_iff, List.mem_map]
  constructor
  · rintro h ⟨e, he, rfl⟩
    exact bne_iff_ne.mp (h e he) rfl
  · exact fun h e he => bne_iff_ne.mpr fun heq => h ⟨e, he, heq.symm⟩

/-- If no key is repeated, every value counts. -/
theorem lookup_eq_some_iff_mem (hnodup : (l.map Prod.fst).Nodup) :
    l.lookup k = some v ↔ (k, v) ∈ l := by
  refine ⟨mem_of_lookup, fun hmem => ?_⟩
  obtain ⟨v', hv'⟩ := Option.ne_none_iff_exists'.mp
    (mt lookup_eq_none_iff_notMem.mp (not_not.mpr (List.mem_map_of_mem hmem)))
  have heq := List.inj_on_of_nodup_map hnodup hmem (mem_of_lookup hv') rfl
  exact hv'.trans (congrArg some (Prod.ext_iff.mp heq).2.symm)

theorem lookup_singleton (e : α × β) (k : α) :
    [e].lookup k = if k = e.1 then some e.2 else none := by
  rw [List.lookup_cons]
  by_cases h : k = e.1
  · simp [h]
  · simp [h, beq_eq_false_iff_ne.mpr h]

theorem lookup_filter_ne (l : List (α × β)) (k k' : α) :
    (l.filter fun e => e.1 ≠ k).lookup k' = if k' = k then none else l.lookup k' := by
  induction l with
  | nil => simp
  | cons e l ih =>
    by_cases he : e.1 = k
    · rw [List.filter_cons_of_neg (by simpa using he), ih]
      split
      · rfl
      · rename_i hne
        rw [List.lookup_cons, beq_eq_false_iff_ne.mpr (he ▸ hne)]
    · rw [List.filter_cons_of_pos (by simpa using he), List.lookup_cons, List.lookup_cons, ih]
      split
      · rename_i heq
        rw [if_neg (eq_of_beq heq ▸ he)]
      · rfl

/-- The value that counts goes on to count among the entries that are kept, if it is one of them. -/
theorem lookup_filter_of_pos {p : α × β → Bool} (h : l.lookup k = some v) (hp : p (k, v) = true) :
    (l.filter p).lookup k = some v := by
  obtain ⟨front, back, rfl, hfront⟩ := List.lookup_eq_some_iff.mp h
  rw [List.filter_append, List.filter_cons_of_pos hp]
  exact List.lookup_eq_some_iff.mpr
    ⟨_, _, rfl, fun e he => hfront e (List.mem_of_mem_filter he)⟩

theorem map_fst_replace (l : List (α × β)) (k : α) (v : β) :
    (l.map fun e => if e.1 = k then (k, v) else e).map Prod.fst = l.map Prod.fst := by
  rw [List.map_map]
  refine List.map_congr_left fun e _ => ?_
  rw [Function.comp_apply]
  split
  · exact Eq.symm ‹_›
  · rfl

theorem lookup_replace (l : List (α × β)) (k k' : α) (v : β) :
    (l.map fun e => if e.1 = k then (k, v) else e).lookup k'
      = if k' = k then (l.lookup k).map fun _ => v else l.lookup k' := by
  induction l with
  | nil => simp
  | cons e l ih =>
    rw [List.map_cons, List.lookup_cons, List.lookup_cons, List.lookup_cons, ih]
    by_cases he : e.1 = k
    · by_cases hk : k' = k
      · simp [he, hk]
      · simp [he, hk, beq_eq_false_iff_ne.mpr hk]
    · by_cases hk : k' = k
      · simp [he, hk, beq_eq_false_iff_ne.mpr (Ne.symm he)]
      · simp [he, hk]

end Telemetry.Entries
