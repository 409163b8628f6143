import Telemetry.Proofs.Records
import Telemetry.Reduction.Value

/-!
# Reading stored values back

A stored value begins with its form and the number of its records, so it says itself where it ends.
An input is read as a value exactly if it begins with the bytes that are stored for it: nothing that
is cut off is taken for a value, and no two values are stored as the same bytes.

## Main definitions

* `ReducedValue.IsCountable`: values whose records can be counted in eight bytes.
* `ReducedValue.Survives`: a value is what is read where it was stored, and nothing less.

## Main statements

* `ReducedValue.decode_eq_ok_iff`: what is read as a value.
* `ReducedValue.encode_injective`: values that are stored as the same bytes are the same.
* `ReducedValue.IsCountable.survives`: what is read of a stored value.
-/
namespace Telemetry.ReducedValue

open Bytes (IsRecord isRecord_double)

variable {v w : ReducedValue} {input front : Bytes}

/-- Whether the records of a value can be counted in eight bytes. -/
def IsCountable : ReducedValue → Prop
  | scalar _ => True
  | samples window => window.length < 2 ^ 64
  | outliers values => values.length < 2 ^ 64

instance : (v : ReducedValue) → Decidable v.IsCountable
  | scalar _ => .isTrue trivial
  | samples window => inferInstanceAs (Decidable (window.length < 2 ^ 64))
  | outliers values => inferInstanceAs (Decidable (values.length < 2 ^ 64))

/-! ## Reading -/

theorem readCounted_eq_some_iff {read : Bytes → Option (α × Bytes)} {write : α → Bytes} {size : Nat}
    (h : IsRecord read write size) {xs : List α} :
    readCounted read input = some xs ↔
      xs.length < 2 ^ 64 ∧ Bytes.littleEndian 8 xs.length ++ xs.flatMap write <+: input := by
  constructor
  · intro hread
    simp only [readCounted, Option.bind_eq_bind, Option.bind_eq_some_iff, Option.pure_def] at hread
    obtain ⟨⟨count, records⟩, hcount, ⟨items, tail⟩, hitems, heq⟩ := hread
    cases heq
    obtain ⟨hlength, hrecords⟩ := h.readMany_eq_some_iff.mp hitems
    have hinput : input = Bytes.littleEndian 8 count.toNat ++ records :=
      Bytes.isRecord_word.eq_append hcount
    refine ⟨hlength ▸ count.toNat_lt, tail, ?_⟩
    rw [hinput, hlength, List.append_assoc]
    exact congrArg _ hrecords.symm
  · rintro ⟨hlt, tail, rfl⟩
    have hcount : (UInt64.ofNat xs.length).toNat = xs.length := UInt64.toNat_ofNat_of_lt' hlt
    have hword := Bytes.readWord_append (UInt64.ofNat xs.length) (xs.flatMap write ++ tail)
    rw [hcount, ← List.append_assoc] at hword
    have hrecords := h.readMany_append xs [] tail
    simp only [readCounted, hword, hcount, hrecords, Option.bind_eq_bind, Option.bind_some,
      Option.pure_def, List.reverse_nil, List.nil_append]

/-! ## Forms -/

theorem splitAt?_form (form : Nat) (rest : Bytes) :
    (Bytes.littleEndian 4 form ++ rest).splitAt? 4 = some (Bytes.littleEndian 4 form, rest) :=
  Bytes.splitAt?_eq_some_iff.mpr ⟨Bytes.length_littleEndian 4 form, rfl⟩

theorem decode?_scalar (rest : Bytes) :
    decode? (Bytes.littleEndian 4 0 ++ rest) = rest.readDouble.map fun r => scalar r.1 := by
  rw [decode?, splitAt?_form, Option.map_eq_bind]
  rfl

theorem decode?_samples (rest : Bytes) :
    decode? (Bytes.littleEndian 4 1 ++ rest) = (readCounted Sample.unpack rest).map samples := by
  rw [decode?, splitAt?_form, Option.map_eq_bind]
  rfl

theorem decode?_outliers (rest : Bytes) :
    decode? (Bytes.littleEndian 4 2 ++ rest) = (readCounted Bytes.readDouble rest).map outliers := by
  rw [decode?, splitAt?_form, Option.map_eq_bind]
  rfl

/-- There are only three forms. -/
theorem exists_form_of_decode? (h : decode? input = some v) :
    ∃ form rest, form ≤ 2 ∧ input = Bytes.littleEndian 4 form ++ rest := by
  simp only [decode?, Option.bind_eq_bind, Option.bind_eq_some_iff] at h
  obtain ⟨⟨form, rest⟩, hsplit, h⟩ := h
  obtain ⟨hlength, rfl⟩ := Bytes.splitAt?_eq_some_iff.mp hsplit
  refine ⟨form.toNatLittleEndian, rest, ?_, ?_⟩
  · split at h
    · rename_i hform
      exact hform.le.trans (by decide)
    · rename_i hform
      exact hform.le.trans (by decide)
    · rename_i hform
      exact hform.le
    · cases h
  · rw [← hlength, Bytes.littleEndian_toNatLittleEndian]

/-! ## Values -/

/-- An input is read as a value if it begins with what is stored for the value. -/
theorem decode?_eq_some_iff : decode? input = some v ↔ v.IsCountable ∧ v.encode <+: input := by
  constructor
  · intro h
    obtain ⟨form, rest, hform, rfl⟩ := exists_form_of_decode? h
    interval_cases form
    · rw [decode?_scalar, Option.map_eq_some_iff] at h
      obtain ⟨⟨x, tail⟩, hx, rfl⟩ := h
      have hrest : rest = x.toBytes ++ tail := isRecord_double.eq_append hx
      refine ⟨trivial, tail, ?_⟩
      rw [encode, hrest, List.append_assoc]
    · rw [decode?_samples, Option.map_eq_some_iff] at h
      obtain ⟨window, hwindow, rfl⟩ := h
      obtain ⟨hlt, hrest⟩ := (readCounted_eq_some_iff Sample.isRecord).mp hwindow
      refine ⟨hlt, ?_⟩
      rw [encode, List.append_assoc]
      exact (List.prefix_append_right_inj _).mpr hrest
    · rw [decode?_outliers, Option.map_eq_some_iff] at h
      obtain ⟨values, hvalues, rfl⟩ := h
      obtain ⟨hlt, hrest⟩ := (readCounted_eq_some_iff isRecord_double).mp hvalues
      refine ⟨hlt, ?_⟩
      rw [encode, List.append_assoc]
      exact (List.prefix_append_right_inj _).mpr hrest
  · rintro ⟨hcount, tail, rfl⟩
    cases v with
    | scalar x =>
      rw [encode, List.append_assoc, decode?_scalar, isRecord_double.read_append]
      rfl
    | samples window =>
      have hread : readCounted Sample.unpack
          (Bytes.littleEndian 8 window.length ++ Sample.packAll window ++ tail) = some window :=
        (readCounted_eq_some_iff Sample.isRecord).mpr ⟨hcount, List.prefix_append _ _⟩
      rw [encode, List.append_assoc, List.append_assoc, decode?_samples, ← List.append_assoc, hread]
      rfl
    | outliers values =>
      have hread : readCounted Bytes.readDouble
          (Bytes.littleEndian 8 values.length ++ values.flatMap Double.toBytes ++ tail)
            = some values :=
        (readCounted_eq_some_iff isRecord_double).mpr ⟨hcount, List.prefix_append _ _⟩
      rw [encode, List.append_assoc, List.append_assoc, decode?_outliers, ← List.append_assoc,
        hread]
      rfl

theorem decode_eq_ok_iff : decode input = .ok v ↔ v.IsCountable ∧ v.encode <+: input := by
  rw [← decode?_eq_some_iff, decode]
  cases decode? input <;> simp

theorem exists_error_of_ne_ok (h : ∀ v, decode input ≠ .ok v) :
    ∃ text, decode input = .error (.other text) := by
  cases hread : decode? input with
  | none => exact ⟨_, by rw [decode, hread]⟩
  | some v => exact absurd (by rw [decode, hread]) (h v)

/-- The number of a value's form. -/
def form : ReducedValue → Nat
  | scalar _ => 0
  | samples _ => 1
  | outliers _ => 2

theorem take_encode (v : ReducedValue) : v.encode.take 4 = Bytes.littleEndian 4 v.form := by
  cases v with
  | scalar x => rw [encode, List.take_left' (Bytes.length_littleEndian 4 0), form]
  | samples window =>
    rw [encode, List.append_assoc, List.take_left' (Bytes.length_littleEndian 4 1), form]
  | outliers values =>
    rw [encode, List.append_assoc, List.take_left' (Bytes.length_littleEndian 4 2), form]

theorem form_eq_of_encode_eq (h : v.encode = w.encode) : v.form = w.form := by
  have hsmall (u : ReducedValue) : u.form % Nat.pow 256 4 = u.form := by cases u <;> rfl
  have hbytes := congrArg (fun b => Bytes.toNatLittleEndian (b.take 4)) h
  simp only [take_encode, Bytes.toNatLittleEndian_littleEndian, hsmall] at hbytes
  exact hbytes

/-- No two values are stored as the same bytes, also if there are too many records to count: the bytes
in front of the records are as many in every value of a form. -/
theorem encode_injective : Function.Injective encode := by
  intro v w heq
  have hform := form_eq_of_encode_eq heq
  cases v with
  | scalar x =>
    cases w with
    | scalar y =>
      have hbytes := (List.append_inj heq (by simp)).2
      exact congrArg scalar (isRecord_double.write_injective hbytes)
    | samples _ | outliers _ => cases hform
  | samples window =>
    cases w with
    | samples window' =>
      have hpacked := (List.append_inj heq (by simp)).2
      exact congrArg samples (Sample.isRecord.flatMap_injective (by decide) hpacked)
    | scalar _ | outliers _ => cases hform
  | outliers values =>
    cases w with
    | outliers values' =>
      have hpacked := (List.append_inj heq (by simp)).2
      exact congrArg outliers (isRecord_double.flatMap_injective (by decide) hpacked)
    | scalar _ | samples _ => cases hform

/-- What is read where a value was stored, whatever stands behind it or is missing of it. -/
structure Survives (v : ReducedValue) : Prop where
  /-- The value is read, whatever stands behind it. -/
  decode_append : ∀ rest, decode (v.encode ++ rest) = .ok v
  /-- Nothing is read of bytes that break off. -/
  cut : ∀ front, front <+: v.encode → front ≠ v.encode → ∃ text, decode front = .error (.other text)

theorem IsCountable.decode_append (h : v.IsCountable) (rest : Bytes) :
    decode (v.encode ++ rest) = .ok v :=
  decode_eq_ok_iff.mpr ⟨h, List.prefix_append _ _⟩

/-- What is read of a front of a stored value is stored in this front, and so is the whole value. -/
theorem IsCountable.survives (h : v.IsCountable) : v.Survives where
  decode_append := h.decode_append
  cut front hfront hne := by
    refine exists_error_of_ne_ok fun w hw => hne ?_
    obtain ⟨hcount, hprefix⟩ := decode_eq_ok_iff.mp hw
    have hwhole : decode v.encode = .ok w := decode_eq_ok_iff.mpr ⟨hcount, hprefix.trans hfront⟩
    have hself := h.decode_append []
    rw [List.append_nil, hwhole] at hself
    cases hself
    exact hfront.eq_of_length_le hprefix.length_le

end Telemetry.ReducedValue
