import Telemetry.Proofs.Metric.Words
import Mathlib

/-!
# Reading keys

A key is cut at its last underscore, and no operator has one in its name. So what is in front of it
is the whole text of the names, whatever underscores and names of operators there are in it; only the
case of the operator's letters is lost.

## Main definitions

* `EqualUpToCase`: texts that differ only in the case of the letters `A` to `Z`.

## Main statements

* `Key.decode?_eq_some_iff`: which texts are read as keys, and as which.
* `Key.encode_eq_iff`: a key tells the text in front and the operator.
-/
namespace Telemetry

/-! ## Texts up to case -/

/-- Whether two characters are the same, or one is a capital of `A` to `Z` and the other its small
letter, thirty-two places further. -/
def SameLetter (c d : Char) : Prop :=
  c = d ∨ c.isUpper = true ∧ d.toNat = c.toNat + 32 ∨ d.isUpper = true ∧ c.toNat = d.toNat + 32

/-- Whether two texts differ at most in the case of the letters `A` to `Z`. -/
def EqualUpToCase (s t : String) : Prop := List.Forall₂ SameLetter s.toList t.toList

theorem isUpper_iff {c : Char} : c.isUpper = true ↔ 65 ≤ c.toNat ∧ c.toNat ≤ 90 := by
  simp [Char.isUpper, UInt32.le_iff_toNat_le, ← Char.toNat_val]

theorem toLower_of_not_isUpper {c : Char} (h : ¬ c.isUpper = true) : c.toLower = c := by
  rw [Char.toLower, dif_neg]
  simpa [Char.isUpper] using h

theorem toNat_toLower {c : Char} (h : c.isUpper = true) : c.toLower.toNat = c.toNat + 32 := by
  have hrange := isUpper_iff.mp h
  have hcapital : c.val ≥ 'A'.val ∧ c.val ≤ 'Z'.val := by simpa [Char.isUpper] using h
  have hlt : c.val.toNat + 32 < 2 ^ 32 := by
    rw [Char.toNat_val]
    omega
  rw [Char.toLower, dif_pos hcapital]
  show (c.val + 32).toNat = c.val.toNat + 32
  rw [UInt32.toNat_add]
  exact Nat.mod_eq_of_lt hlt

theorem toLower_eq_iff {c d : Char} : c.toLower = d.toLower ↔ SameLetter c d := by
  simp only [SameLetter, ← Char.toNat_inj]
  by_cases hc : c.isUpper = true
  · have hc' := isUpper_iff.mp hc
    by_cases hd : d.isUpper = true
    · have hd' := isUpper_iff.mp hd
      rw [toNat_toLower hc, toNat_toLower hd]
      omega
    · have hd' := isUpper_iff.not.mp hd
      rw [toNat_toLower hc, toLower_of_not_isUpper hd]
      simp only [hc, hd, true_and, Bool.false_eq_true, false_and, or_false]
      omega
  · have hc' := isUpper_iff.not.mp hc
    by_cases hd : d.isUpper = true
    · have hd' := isUpper_iff.mp hd
      rw [toNat_toLower hd, toLower_of_not_isUpper hc]
      simp only [hc, hd, true_and, Bool.false_eq_true, false_and, false_or]
      omega
    · rw [toLower_of_not_isUpper hc, toLower_of_not_isUpper hd]
      simp [hc, hd]

namespace Operator

theorem sameLetters_iff {s t : String} :
    sameLetters s.toList t.toList = true ↔ EqualUpToCase s t := by
  rw [sameLetters, decide_eq_true_iff, ← List.forall₂_eq_eq_eq, List.forall₂_map_left_iff,
    List.forall₂_map_right_iff]
  simp only [toLower_eq_iff]
  rfl

/-- No two operators have the same name up to case. -/
theorem eq_of_sameLetters {op op' : Operator} {s : String}
    (h : sameLetters op.name.toList s.toList = true)
    (h' : sameLetters op'.name.toList s.toList = true) : op = op' := by
  have hnames : op.name.toList.map Char.toLower = op'.name.toList.map Char.toLower :=
    (of_decide_eq_true h).trans (of_decide_eq_true h').symm
  revert hnames
  cases op <;> cases op' <;> decide

theorem mem_all (op : Operator) : op ∈ all := by cases op <;> decide

/-- The operator of a text is the one whose name the text is, up to case. -/
theorem ofName?_eq_some_iff {s : String} {op : Operator} :
    ofName? s = some op ↔ EqualUpToCase op.name s := by
  rw [← sameLetters_iff, ofName?]
  constructor
  · intro h
    have hfound := List.find?_some h
    exact hfound
  · intro h
    have hsome : (all.find? fun op => sameLetters op.name.toList s.toList).isSome = true :=
      List.find?_isSome.mpr ⟨op, mem_all op, h⟩
    obtain ⟨op', hop'⟩ := Option.isSome_iff_exists.mp hsome
    have hfound := List.find?_some hop'
    rw [hop', eq_of_sameLetters hfound h]

theorem equalUpToCase_name (op : Operator) : EqualUpToCase op.name op.name :=
  sameLetters_iff.mp (decide_eq_true rfl)

theorem underscore_notMem_name (op : Operator) : '_' ∉ op.name.toList := by cases op <;> decide

end Operator

namespace Key

variable {key s s' : String} {op op' : Operator} {cs front back : List Char} {c : Char}

/-! ## The last underscore -/

theorem splitLast?_eq_some_iff :
    splitLast? c cs = some (front, back) ↔ cs = front ++ c :: back ∧ c ∉ back := by
  rw [splitLast?, List.span_eq_takeWhile_dropWhile]
  constructor
  · intro h
    split at h
    · cases h
    · rename_i taken x rest heq
      cases h
      obtain ⟨htaken, hrest⟩ := Prod.mk.inj heq
      have hall : cs.reverse = taken ++ x :: rest := by
        rw [← htaken, ← hrest, List.takeWhile_append_dropWhile]
      have hx : x = c := by
        have hhead := List.head?_dropWhile_not (· != c) cs.reverse
        rw [hrest] at hhead
        simpa using hhead
      subst hx
      refine ⟨?_, ?_⟩
      · rw [← List.reverse_inj, hall]
        simp
      · rw [List.mem_reverse, ← htaken]
        intro hmem
        simpa using List.mem_takeWhile_imp hmem
  · rintro ⟨rfl, hnotMem⟩
    have hback : ∀ x ∈ back.reverse, (x != c) = true := by
      intro x hx
      rw [List.mem_reverse] at hx
      simpa using ne_of_mem_of_not_mem hx hnotMem
    simp [List.takeWhile_append_of_pos hback, List.dropWhile_append_of_pos hback]

/-! ## Keys -/

theorem toList_append_underscore (s t : String) :
    (s ++ "_" ++ t).toList = s.toList ++ '_' :: t.toList := by
  simp

/-- A text is read as a key if there is something in front of its last underscore and the name of an
operator behind it. -/
theorem decode?_eq_some_iff : decode? key = some (s, op) ↔
    s ≠ "" ∧ ∃ suffix, key = s ++ "_" ++ suffix ∧ '_' ∉ suffix.toList ∧
      EqualUpToCase op.name suffix := by
  constructor
  · intro h
    unfold decode? at h
    split at h
    · cases h
    · rename_i front back hsplit
      obtain ⟨hkey, hback⟩ := splitLast?_eq_some_iff.mp hsplit
      split at h
      · cases h
      · rename_i hfront
        obtain ⟨op', hop, heq⟩ := Option.map_eq_some_iff.mp h
        cases heq
        refine ⟨?_, String.ofList back, ?_, ?_, Operator.ofName?_eq_some_iff.mp hop⟩
        · rintro hempty
          rw [← String.toList_inj, String.toList_ofList] at hempty
          exact hfront (List.isEmpty_iff.mpr hempty)
        · rw [← String.toList_inj, hkey, toList_append_underscore, String.toList_ofList,
            String.toList_ofList]
        · rwa [String.toList_ofList]
  · rintro ⟨hne, suffix, rfl, hsuffix, hname⟩
    have hsplit := splitLast?_eq_some_iff.mpr ⟨toList_append_underscore s suffix, hsuffix⟩
    have hfront : ¬ s.toList.isEmpty = true := by
      rw [List.isEmpty_iff]
      exact fun hempty => hne (String.toList_inj.mp hempty)
    unfold decode?
    rw [hsplit]
    simp only [if_neg hfront, String.ofList_toList, Operator.ofName?_eq_some_iff.mpr hname,
      Option.map_some]

/-- What was made a key is read from it. -/
theorem decode?_encode (h : s ≠ "") (op : Operator) : decode? (encode s op) = some (s, op) :=
  decode?_eq_some_iff.mpr ⟨h, op.name, rfl, op.underscore_notMem_name, op.equalUpToCase_name⟩

/-- A key tells the text in front of its last underscore and the operator, also if there is nothing
in front. -/
theorem encode_eq_iff : encode s op = encode s' op' ↔ s = s' ∧ op = op' := by
  constructor
  · intro h
    have hsplit := splitLast?_eq_some_iff.mpr
      ⟨toList_append_underscore s op.name, op.underscore_notMem_name⟩
    have hsplit' := splitLast?_eq_some_iff.mpr
      ⟨toList_append_underscore s' op'.name, op'.underscore_notMem_name⟩
    rw [encode, encode] at h
    rw [h, hsplit', Option.some.injEq, Prod.mk.injEq, String.toList_inj, String.toList_inj] at hsplit
    exact ⟨hsplit.1.symm, name_injective hsplit.2.symm⟩
  · rintro ⟨rfl, rfl⟩
    rfl

/-- There is an underscore between the namespace and the name. -/
theorem stringify_ne_empty (ns name : String) (tags : List String) : stringify ns name tags ≠ "" := by
  have hne : name :: tags ≠ [] := List.cons_ne_nil name tags
  rw [stringify, String.intercalate_cons_of_ne_nil hne, ne_eq, ← String.toList_inj]
  simp

end Key

namespace Metric

theorem decode?_reductionKey (m : Metric) :
    Key.decode? m.reductionKey = some (m.stringified, m.operator) :=
  Key.decode?_encode (Key.stringify_ne_empty m.ns m.name m.tags.toList) m.operator

theorem reductionKey_of_ofSpec {spec : MetricSpec} {capacity : Nat} {m : Metric}
    (h : ofSpec spec capacity = .ok m) :
    m.stringified = Key.stringify spec.ns spec.name spec.tags.toList ∧
      m.operator = spec.operator := by
  obtain ⟨buffer, rfl⟩ := eq_of_ofSpec h
  exact ⟨rfl, rfl⟩

end Metric

/-- What is read of a key is what was written: for all keys that are made, which are those of all
metrics among them, and for no other text but those that differ in the case of the operator. -/
theorem Key.decode?_encode_and_eq_some_iff :
    (∀ s op, s ≠ "" → decode? (encode s op) = some (s, op)) ∧
      (∀ s s' op op', encode s op = encode s' op' ↔ s = s' ∧ op = op') ∧
      (∀ key s op, decode? key = some (s, op) ↔
        s ≠ "" ∧ ∃ suffix, key = s ++ "_" ++ suffix ∧ '_' ∉ suffix.toList ∧
          EqualUpToCase op.name suffix) ∧
      ∀ spec capacity m, Metric.ofSpec spec capacity = .ok m →
        decode? m.reductionKey = some (m.stringified, m.operator) ∧
          m.stringified = stringify spec.ns spec.name spec.tags.toList ∧
          m.operator = spec.operator :=
  ⟨fun _ op hs => decode?_encode hs op, fun _ _ _ _ => encode_eq_iff,
    fun _ _ _ => decode?_eq_some_iff,
    fun _ _ m h => ⟨m.decode?_reductionKey, Metric.reductionKey_of_ofSpec h⟩⟩

/-- A gauge with underscores and the name of an operator in its names. -/
def wordyGauge : MetricSpec := ⟨"_", "é_MAX", .gauge, .empty, "", .anomaly, none⟩

theorem Key.decode?_encode_and_eq_some_iff_wordyGauge :
    "__é_MAX" ≠ "" ∧ decode? "__é_MAX_ANOMALY" = some ("__é_MAX", .anomaly) ∧
      decode? "__é_mAx" = some ("__é", .max) ∧
      ∃ m, Metric.ofSpec wordyGauge 4 = .ok m ∧
        decode? m.reductionKey = some ("__é_MAX", .anomaly) := by
  obtain ⟨hencode, -, hread, hmetric⟩ := decode?_encode_and_eq_some_iff
  have hname : EqualUpToCase Operator.max.name "mAx" := Operator.sameLetters_iff.mp (by decide)
  have hkey : encode "__é_MAX" .anomaly = "__é_MAX_ANOMALY" := by decide
  obtain ⟨m, hmade⟩ : ∃ m, Metric.ofSpec wordyGauge 4 = .ok m := ⟨_, rfl⟩
  have hne : "__é_MAX" ≠ "" := by decide
  refine ⟨hne, hkey ▸ hencode _ .anomaly hne,
    (hread _ _ _).mpr ⟨by decide, "mAx", by decide, by decide, hname⟩, m, hmade, ?_⟩
  obtain ⟨hdecoded, hstringified, hoperator⟩ := hmetric wordyGauge 4 m hmade
  have htext : stringify wordyGauge.ns wordyGauge.name wordyGauge.tags.toList = "__é_MAX" := by
    decide
  rw [hdecoded, hstringified, hoperator, htext]
  rfl

end Telemetry
