import Telemetry.Proofs.Resp.RoundTrip
import Mathlib

/-!
# Values beyond the bounds

Whatever the bounds of a reader are, it takes a written value exactly off the input or refuses the
input, as long as no line of the value holds a carriage return. It never waits for more, and it
never takes anything else for the value.
-/
namespace Telemetry.Resp

/-- Whether a value was taken off in front of the rest, or the input refused. -/
def Outcome.IsExact (o : Outcome) (v : Value) (rest : Bytes) : Prop :=
  o = .value v rest ∨ ∃ fault, o = .invalid fault

namespace Value

variable {limits wide : Limits} {levels depth : Nat} {input line data rest : Bytes} {v : Value}

theorem withLength_append {max k : Nat} {nothing : Value} {fault : Int64 → Fault}
    {body : Nat → Bytes → Outcome} {n : Int64} (hn : HoldsNumber line n) (hk : n.toInt = k) :
    withLength max nothing fault body (line ++ lineEnd ++ rest)
      = if max < k then .invalid (fault n) else body k rest := by
  obtain ⟨hne, hneg, htoNat⟩ := length_of_toInt_eq hk
  rw [withLength, withNumber, withLine, line?_eq_some_iff.mpr ⟨hn.1, rfl⟩]
  simp only [hn.2, if_neg hne, hneg, htoNat, false_or]

/-- A written length is refused, or what it announces is read. -/
theorem withLength_decimal (max k : Nat) (nothing : Value) (fault : Int64 → Fault)
    (body : Nat → Bytes → Outcome) (rest : Bytes) :
    withLength max nothing fault body (decimal k ++ lineEnd ++ rest) = body k rest ∨
      ∃ f, withLength max nothing fault body (decimal k ++ lineEnd ++ rest) = .invalid f := by
  by_cases hk : k < 0x8000000000000000
  · rw [withLength_append (holdsNumber_decimal hk) (Int64.toInt_ofNat_of_lt hk)]
    split
    · exact .inr ⟨_, rfl⟩
    · exact .inl rfl
  · have hline : 13 ∉ decimal k :=
      Bytes.cr_notMem_ofText.mpr (IntegerRange.isOneLine_toString_natCast k)
    have hnumber : readNumber (decimal k) = .error (.notNumber .tooLarge) := by
      have hlarge : IntegerRange.int64.hi < (k : Int) := by
        have hhi : IntegerRange.int64.hi = 0x7FFFFFFFFFFFFFFF := by decide
        omega
      rw [readNumber, decimal, Bytes.toText_ofText]
      simp only [IntegerRange.parseText_toString_tooLarge (by decide) hlarge]
    refine .inr ⟨.notNumber .tooLarge, ?_⟩
    rw [withLength, withNumber, withLine, line?_eq_some_iff.mpr ⟨hline, rfl⟩]
    simp only [hnumber]

theorem isExact_parseItems {parseItem : Bytes → Outcome} {items : List Value}
    (h : ∀ item ∈ items, ∀ rest, (parseItem (item.encode ++ rest)).IsExact item rest)
    (seen : List Value) :
    (parseItems parseItem seen items.length (items.flatMap encode ++ rest)).IsExact
      (.array (seen.reverse ++ items)) rest := by
  induction items generalizing seen with
  | nil => exact .inl (by simp [parseItems])
  | cons item items ih =>
    rw [List.flatMap_cons, List.append_assoc, List.length_cons, parseItems]
    rcases h item (List.mem_cons_self ..) (items.flatMap encode ++ rest) with hv | ⟨fault, hi⟩
    · have hrest := ih (fun item hm => h item (List.mem_cons_of_mem _ hm)) (item :: seen)
      rw [hv]
      rwa [List.reverse_cons, List.append_assoc] at hrest
    · rw [hi]
      exact .inr ⟨fault, rfl⟩

/-- The written form of a value that some reader admits is read exactly or refused by all others. -/
theorem isExact_parseWithin (ha : wide.admits depth v = true) (rest : Bytes) :
    (parseWithin limits levels (v.encode ++ rest)).IsExact v rest := by
  induction depth using Nat.strong_induction_on generalizing v rest levels with
  | _ depth ih =>
  cases v with
  | simple t | error t =>
    refine .inl (parseWithin_append_of_spells (spells_encode ?_ (by rw [Fits]; trivial)))
    rw [Limits.admits] at ha ⊢
    exact ha
  | integer n | nilBulk =>
    refine .inl (parseWithin_append_of_spells (spells_encode ?_ (by rw [Fits]; trivial)))
    rw [Limits.admits]
  | bulk data =>
    have hinput : (bulk data).encode ++ rest
        = 36 :: (decimal data.length ++ lineEnd ++ (data ++ lineEnd ++ rest)) := by
      simp [encode]
    rw [hinput, parseWithin_bulk]
    rcases withLength_decimal limits.maxBulk data.length .nilBulk .bulkLength parseBulk
      (data ++ lineEnd ++ rest) with hb | hf
    · rw [hb]
      exact .inl (parseBulk_eq_value_iff.mpr ⟨data, rfl, rfl, rfl⟩)
    · exact .inr hf
  | array items =>
    have hinput : (array items).encode ++ rest
        = 42 :: (decimal items.length ++ lineEnd ++ (items.flatMap encode ++ rest)) := by
      simp [encode]
    rw [hinput]
    cases levels with
    | zero => exact .inr ⟨_, parseWithin_array_zero⟩
    | succ levels =>
      cases depth with
      | zero => rw [Limits.admits] at ha; cases ha
      | succ depth =>
        rw [Limits.admits, Bool.and_eq_true, List.all_eq_true] at ha
        rw [parseWithin_array_succ]
        rcases withLength_decimal limits.maxArray items.length .nilArray .arrayLength
          (parseItems (parseWithin limits levels) []) (items.flatMap encode ++ rest) with hb | hf
        · rw [hb]
          exact isExact_parseItems
            (fun item hm => ih depth (Nat.lt_succ_self _) (ha.2 item hm)) []
        · exact .inr hf
  | nilArray =>
    cases levels with
    | zero => exact .inr ⟨.tooDeep limits.maxDepth, by rw [encode]; rfl⟩
    | succ levels =>
      have ha' : limits.admits (levels + 1) nilArray = true := by
        rw [Limits.admits, decide_eq_true_eq]
        exact Nat.succ_pos _
      exact .inl (parseWithin_append_of_spells (spells_encode ha' (by rw [Fits]; trivial)))

theorem isExact_encode (ha : wide.Admits v) (rest : Bytes) :
    (parse limits (v.encode ++ rest)).IsExact v rest := isExact_parseWithin ha rest

/-- A byte string that is too long is refused, and if its length is a number at all then for that. -/
theorem exists_fault_of_length_lt (h : limits.maxBulk < data.length) (levels : Nat) (rest : Bytes) :
    ∃ fault, parseWithin limits levels ((bulk data).encode ++ rest) = .invalid fault ∧
      (data.length < 0x8000000000000000 → fault = .bulkLength (Int64.ofNat data.length)) := by
  let wide : Limits := ⟨0, 0, data.length, 0⟩
  have hadmits : wide.admits 0 (bulk data) = true := by simp [wide, Limits.admits]
  have hexact : (parseWithin limits levels ((bulk data).encode ++ rest)).IsExact (bulk data) rest :=
    isExact_parseWithin hadmits rest
  rcases hexact with hvalue | ⟨fault, hfault⟩
  · obtain ⟨used, hspells, -⟩ := exists_spells_of_parseWithin hvalue
    have hlength := (admits_of_spells hspells).1
    rw [Limits.admits, decide_eq_true_eq] at hlength
    omega
  · refine ⟨fault, hfault, ?_⟩
    intro hfits
    have hlength : (Int64.ofNat data.length).toInt = data.length := Int64.toInt_ofNat_of_lt hfits
    have hinput : (bulk data).encode ++ rest
        = 36 :: (decimal data.length ++ lineEnd ++ (data ++ lineEnd ++ rest)) := by
      simp [encode]
    rw [hinput, parseWithin_bulk, withLength_append (holdsNumber_decimal hfits) hlength,
      if_pos h] at hfault
    cases hfault
    rfl

/-- An array is refused for its last element if nothing else is wrong with it. -/
theorem parseWithin_array_of_last {front : List Value} {last : Value}
    (hlength : front.length + 1 ≤ limits.maxArray) (hfits : front.length + 1 < 0x8000000000000000)
    (hfront : ∀ v ∈ front, limits.admits levels v = true ∧ v.Fits) {fault : Fault}
    (hlast : parseWithin limits levels (last.encode ++ rest) = .invalid fault) :
    parseWithin limits (levels + 1) ((array (front ++ [last])).encode ++ rest) = .invalid fault := by
  have hinput : (array (front ++ [last])).encode ++ rest
      = 42 :: (decimal (front.length + 1) ++ lineEnd
          ++ ((front.map encode).flatten ++ (last.encode ++ rest))) := by
    simp [encode, List.flatMap_def]
  have hspells : List.Forall₂ (Spells limits levels) front (front.map encode) := by
    rw [List.forall₂_map_right_iff, List.forall₂_same]
    intro v hv
    exact spells_encode (hfront v hv).1 (hfront v hv).2
  rw [hinput, parseWithin_array_succ,
    withLength_append (holdsNumber_decimal hfits) (Int64.toInt_ofNat_of_lt hfits),
    if_neg (by omega), parseItems_append parseWithin_append_of_spells hspells, parseItems, hlast]

end Value

end Telemetry.Resp
