import Telemetry.Proofs.Number.Decimal
import Telemetry.Proofs.Resp.Spelling
import Mathlib

/-!
# Writing and reading values

What is written for a value is one of its spellings, so it is read back in front of whatever
follows. Conversely a value that is read from any input at all keeps to the bounds and can be
written again: the written form is the normal form of every spelling.

## Main statements

* `Value.spells_encode`: the written form of an admitted value spells it.
* `Value.admits_of_spells`: only admitted values are ever spelled.
-/
namespace Telemetry.Resp.Value

variable {limits : Limits} {levels : Nat} {used : Bytes} {v : Value}

/-- Whether the length of every byte string and every array in a value is a signed number of
sixty-four bits. Memory holds no longer ones. -/
def Fits : Value → Prop
  | .bulk data => data.length < 0x8000000000000000
  | .array items => items.length < 0x8000000000000000 ∧ ∀ item ∈ items, Fits item
  | .simple _ | .error _ | .integer _ | .nilBulk | .nilArray => True

instance : Decidable (limits.Admits v) := inferInstanceAs (Decidable (_ = true))

/-- Under bounds that are signed numbers of sixty-four bits, whatever is admitted fits. -/
theorem fits_of_admits (hbulk : limits.maxBulk < 0x8000000000000000)
    (harray : limits.maxArray < 0x8000000000000000) (h : limits.admits levels v = true) :
    v.Fits := by
  induction levels using Nat.strong_induction_on generalizing v with
  | _ levels ih =>
  cases v with
  | bulk data =>
    rw [Limits.admits, decide_eq_true_eq] at h
    rw [Fits]
    omega
  | array items =>
    cases levels with
    | zero => rw [Limits.admits] at h; cases h
    | succ levels =>
      rw [Limits.admits, Bool.and_eq_true, decide_eq_true_eq, List.all_eq_true] at h
      rw [Fits]
      exact ⟨by omega, fun item hm => ih levels (Nat.lt_succ_self _) (h.2 item hm)⟩
  | simple t | error t | integer n | nilBulk | nilArray => rw [Fits]; trivial

/-! ## Written numbers -/

theorem holdsNumber_decimalInt (n : Int64) : HoldsNumber (decimalInt n.toInt) n := by
  refine ⟨Bytes.cr_notMem_ofText.mpr (IntegerRange.isOneLine_toString _), ?_⟩
  unfold readNumber decimalInt
  rw [Bytes.toText_ofText]
  simp only [IntegerRange.parseText_toString (IntegerRange.contains_toInt n), Int64.ofInt_toInt]

theorem holdsNumber_decimal {n : Nat} (h : n < 0x8000000000000000) :
    HoldsNumber (decimal n) (Int64.ofNat n) := by
  have := holdsNumber_decimalInt (Int64.ofNat n)
  rw [Int64.toInt_ofNat_of_lt h] at this
  exact this

theorem holdsNumber_minusOne : HoldsNumber [45, 49] (-1) := ⟨by decide, by decide⟩

/-! ## The written form -/

theorem cr_notMem_of_admits {t : String} (h : (!(Bytes.ofText t).contains 13) = true) :
    13 ∉ Bytes.ofText t := by simpa using h

/-- The written form of an admitted value is one of its spellings. -/
theorem spells_encode (ha : limits.admits levels v = true) (hf : v.Fits) :
    Spells limits levels v v.encode := by
  induction levels using Nat.strong_induction_on generalizing v with
  | _ levels ih =>
  cases v with
  | simple t =>
    rw [Limits.admits] at ha
    rw [Spells, encode]
    exact ⟨_, cr_notMem_of_admits ha, (Bytes.toTextLossy_ofText t).symm, rfl⟩
  | error t =>
    rw [Limits.admits] at ha
    rw [Spells, encode]
    exact ⟨_, cr_notMem_of_admits ha, (Bytes.toTextLossy_ofText t).symm, rfl⟩
  | integer n =>
    rw [Spells, encode]
    exact ⟨_, holdsNumber_decimalInt n, rfl⟩
  | bulk data =>
    rw [Limits.admits, decide_eq_true_eq] at ha
    rw [Fits] at hf
    rw [Spells, encode]
    exact ⟨_, _, holdsNumber_decimal hf, Int64.toInt_ofNat_of_lt hf, ha, rfl⟩
  | nilBulk =>
    rw [Spells, encode]
    exact ⟨_, holdsNumber_minusOne, rfl⟩
  | array items =>
    cases levels with
    | zero => rw [Limits.admits] at ha; cases ha
    | succ levels =>
      rw [Limits.admits, Bool.and_eq_true, decide_eq_true_eq, List.all_eq_true] at ha
      rw [Fits] at hf
      have hitems : List.Forall₂ (Spells limits levels) items (items.map encode) := by
        rw [List.forall₂_map_right_iff, List.forall₂_same]
        exact fun item hm => ih levels (Nat.lt_succ_self _) (ha.2 item hm) (hf.2 item hm)
      rw [Spells, encode, List.flatMap_def]
      exact ⟨_, _, _, holdsNumber_decimal hf.1, Int64.toInt_ofNat_of_lt hf.1, ha.1, hitems, rfl⟩
  | nilArray =>
    rw [Limits.admits, decide_eq_true_eq] at ha
    rw [Spells, encode]
    exact ⟨ha, _, holdsNumber_minusOne, rfl⟩

/-- The written form of an admitted value is read back in front of anything. -/
theorem parse_encode_append (ha : limits.Admits v) (hf : v.Fits) (rest : Bytes) :
    parse limits (v.encode ++ rest) = .value v rest :=
  parse_eq_value_iff.mpr ⟨v.encode, spells_encode ha hf, rfl⟩

/-! ## What is ever read -/

theorem length_lt_of_toInt_eq {n : Int64} {k : Nat} (h : n.toInt = k) : k < 0x8000000000000000 := by
  have := n.toInt_lt
  omega

/-- Only values that are admitted and fit are ever spelled. -/
theorem admits_of_spells (h : Spells limits levels v used) :
    limits.admits levels v = true ∧ v.Fits := by
  induction levels using Nat.strong_induction_on generalizing v used with
  | _ levels ih =>
  cases v with
  | simple t =>
    rw [Spells] at h
    obtain ⟨line, hline, rfl, -⟩ := h
    rw [Limits.admits, Fits]
    exact ⟨by simpa using Bytes.cr_notMem_toTextLossy hline, trivial⟩
  | error t =>
    rw [Spells] at h
    obtain ⟨line, hline, rfl, -⟩ := h
    rw [Limits.admits, Fits]
    exact ⟨by simpa using Bytes.cr_notMem_toTextLossy hline, trivial⟩
  | integer n => rw [Limits.admits, Fits]; exact ⟨rfl, trivial⟩
  | nilBulk => rw [Limits.admits, Fits]; exact ⟨rfl, trivial⟩
  | bulk data =>
    rw [Spells] at h
    obtain ⟨line, n, -, hlen, hmax, -⟩ := h
    rw [Limits.admits, Fits, decide_eq_true_eq]
    exact ⟨hmax, length_lt_of_toInt_eq hlen⟩
  | array items =>
    cases levels with
    | zero => rw [Spells] at h; exact h.elim
    | succ levels =>
      rw [Spells] at h
      obtain ⟨line, n, parts, -, hlen, hmax, hp, -⟩ := h
      have hitems : ∀ item ∈ items, limits.admits levels item = true ∧ item.Fits := by
        have hall := hp.imp fun item part hs =>
          (⟨ih levels (Nat.lt_succ_self _) hs, hs⟩ : (_ ∧ _) ∧ _)
        exact ((List.forall₂_and_left _ _).mp hall).1
      rw [Limits.admits, Fits, Bool.and_eq_true, decide_eq_true_eq, List.all_eq_true]
      exact ⟨⟨hmax, fun item hm => (hitems item hm).1⟩, length_lt_of_toInt_eq hlen,
        fun item hm => (hitems item hm).2⟩
  | nilArray =>
    rw [Spells] at h
    rw [Limits.admits, Fits, decide_eq_true_eq]
    exact ⟨h.1, trivial⟩

/-- Values are written and read back in front of anything, and what is read from any input can be
written again: it keeps to the bounds, took at least one byte, and its written form is read as the
same value. -/
theorem parse_encode_and_admits_of_parse (limits : Limits) :
    (∀ v, limits.Admits v → v.Fits → ∀ suffix,
      parse limits (v.encode ++ suffix) = .value v suffix) ∧
    ∀ input v rest, parse limits input = .value v rest →
      limits.Admits v ∧ v.Fits ∧
      (∃ used, input = used ++ rest ∧ 1 ≤ used.length ∧ used.length ≤ input.length) ∧
      ∀ suffix, parse limits (v.encode ++ suffix) = .value v suffix := by
  refine ⟨fun v ha hf suffix => parse_encode_append ha hf suffix, fun input v rest h => ?_⟩
  obtain ⟨used, hs, hin⟩ := parse_eq_value_iff.mp h
  obtain ⟨ha, hf⟩ := admits_of_spells hs
  have hlen : input.length = used.length + rest.length := by rw [hin, List.length_append]
  have hprogress := length_lt_of_parse h
  exact ⟨ha, hf, ⟨used, hin, by omega, by omega⟩, fun suffix => parse_encode_append ha hf suffix⟩

/-- An array of every kind of value in front of the beginning of another, and an array that is
spelled with signs and leading zeros. -/
theorem parse_encode_and_admits_of_parse_nested :
    parse .request ((array [simple "ok", integer (-7), bulk [0, 13, 10, 255],
        nilArray, array [error "e", nilBulk]]).encode ++ [42])
      = .value (array [simple "ok", integer (-7), bulk [0, 13, 10, 255],
        nilArray, array [error "e", nilBulk]]) [42] ∧
    parse .request ((array [integer 7, bulk [13]]).encode ++ [42])
      = .value (array [integer 7, bulk [13]]) [42] := by
  have h : parse .request (Bytes.ofText "*+02\r\n:+07\r\n$001\r\n\r\r\n*")
      = .value (array [integer 7, bulk [13]]) (Bytes.ofText "*") := rfl
  exact ⟨(parse_encode_and_admits_of_parse .request).1 _ (by decide) (by simp [Fits]) _,
    ((parse_encode_and_admits_of_parse .request).2 _ _ _ h).2.2.2 _⟩

end Telemetry.Resp.Value
