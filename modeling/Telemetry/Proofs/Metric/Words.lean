import Telemetry.Proofs.Metric.Registered
import Mathlib

/-!
# Metrics that share a key

A reduction key joins the names of a metric and its operator by underscores, and names may hold
underscores themselves. So a key tells no more than the words into which underscores divide the
names, and all of these.

## Main definitions

* `Metric.names`: what a key joins, but for the operator.
* `Metric.words`: what underscores divide the names into.

## Main statements

* `Metric.reductionKey_eq_iff`: which metrics share a key.
* `Metric.names_eq_of_reductionKey`: without underscores a key tells the names.
-/
namespace Telemetry

namespace Key

/-- What underscores divide some names into. -/
def wordsOf (names : List String) : List (List Char) :=
  names.flatMap fun name => name.toList.splitOn '_'

theorem wordsOf_append (names more : List String) :
    wordsOf (names ++ more) = wordsOf names ++ wordsOf more := List.flatMap_append

theorem wordsOf_of_notMem {names : List String} (h : ∀ name ∈ names, '_' ∉ name.toList) :
    wordsOf names = names.map String.toList := by
  induction names with
  | nil => rfl
  | cons name names ih =>
    have hname : name.toList.splitOn '_' = [name.toList] := by
      refine List.splitOnP_eq_singleton fun c hc => beq_false_of_ne ?_
      rintro rfl
      exact h name List.mem_cons_self hc
    have hnames := ih fun n hn => h n (List.mem_cons_of_mem _ hn)
    rw [wordsOf, List.flatMap_cons, hname, ← wordsOf, hnames]
    rfl

/-- Names that were joined can be cut at every underscore. -/
theorem splitOn_intercalate {names : List String} (h : names ≠ []) :
    ("_".intercalate names).toList.splitOn '_' = wordsOf names := by
  induction names with
  | nil => exact absurd rfl h
  | cons name names ih =>
    by_cases hnames : names = []
    · simp [hnames, wordsOf]
    · have hjoin : ("_".intercalate (name :: names)).toList
          = name.toList ++ '_' :: ("_".intercalate names).toList := by
        rw [String.intercalate_cons_of_ne_nil hnames]
        simp
      rw [hjoin, List.splitOn, List.splitOnP_append_cons _ _ (by simp)]
      exact congrArg (name.toList.splitOn '_' ++ ·) (ih hnames)

/-- Only names with the same words give the same text. -/
theorem intercalate_eq_iff {names names' : List String} (h : names ≠ []) (h' : names' ≠ []) :
    "_".intercalate names = "_".intercalate names' ↔ wordsOf names = wordsOf names' := by
  rw [← splitOn_intercalate h, ← splitOn_intercalate h']
  constructor
  · intro heq
    rw [heq]
  · intro heq
    have hjoin := congrArg (['_'].intercalate ·) heq
    simpa only [List.intercalate_splitOn, String.toList_inj] using hjoin

theorem wordsOf_name (op : Operator) : wordsOf [op.name] = [op.name.toList] :=
  wordsOf_of_notMem (by cases op <;> decide)

theorem name_injective {op op' : Operator} (h : op.name = op'.name) : op = op' := by
  cases op <;> cases op' <;> first | rfl | exact absurd h (by decide)

end Key

namespace Metric

variable {m m' : Metric}

/-- The names of a metric in the order in which its key joins them. -/
def names (m : Metric) : List String := m.ns :: m.name :: m.tags.toList

/-- What underscores divide the names of a metric into. -/
def words (m : Metric) : List (List Char) := Key.wordsOf m.names

theorem reductionKey_eq (m : Metric) :
    m.reductionKey = "_".intercalate (m.names ++ [m.operator.name]) := by
  rw [String.intercalate_append_of_ne_nil (by simp [names]) (by simp), String.intercalate_singleton]
  rfl

/-- Metrics share a key if they are reduced alike and their names have the same words. -/
theorem reductionKey_eq_iff :
    m.reductionKey = m'.reductionKey ↔ m.operator = m'.operator ∧ m.words = m'.words := by
  rw [reductionKey_eq, reductionKey_eq, Key.intercalate_eq_iff (by simp) (by simp),
    Key.wordsOf_append, Key.wordsOf_append, Key.wordsOf_name, Key.wordsOf_name]
  constructor
  · intro heq
    obtain ⟨hwords, hname⟩ := List.append_inj' heq rfl
    exact ⟨Key.name_injective (String.toList_inj.mp (List.head_eq_of_cons_eq hname)), hwords⟩
  · rintro ⟨hop, hwords⟩
    rw [hop, ← words, ← words, hwords]

/-- Without underscores in the names the key tells them. -/
theorem names_eq_of_reductionKey (h : ∀ name ∈ m.names ++ m'.names, '_' ∉ name.toList)
    (hkey : m.reductionKey = m'.reductionKey) : m.names = m'.names := by
  have hwords := (reductionKey_eq_iff.mp hkey).2
  rw [words, words, Key.wordsOf_of_notMem fun name hm => h name (List.mem_append_left _ hm),
    Key.wordsOf_of_notMem fun name hm => h name (List.mem_append_right _ hm)] at hwords
  exact List.map_injective_iff.mpr (fun _ _ => String.toList_inj.mp) hwords

/-! ## Identities of names -/

/-- Whether the identity of a metric is that of its names. -/
def HasOwnId (m : Metric) : Prop := m.id = MetricId.ofNames m.ns m.name m.tags.toList

theorem HasOwnId.id_eq (h : m.HasOwnId) (h' : m'.HasOwnId) (hnames : m.names = m'.names) :
    m.id = m'.id := by
  obtain ⟨hns, hname, htags⟩ : m.ns = m'.ns ∧ m.name = m'.name ∧ m.tags.toList = m'.tags.toList := by
    simpa [names] using hnames
  rw [h, h', hns, hname, htags]

theorem hasOwnId_of_ofSpec {spec : MetricSpec} {capacity : Nat} (h : ofSpec spec capacity = .ok m) :
    m.HasOwnId := by
  obtain ⟨buffer, rfl⟩ := eq_of_ofSpec h
  rfl

end Metric

end Telemetry
