import Telemetry.Proofs.Failure
import Telemetry.Proofs.Number.Decimal
import Telemetry.Proofs.Resp.RoundTrip
import Telemetry.Protocol.Request
import Mathlib

/-!
# Requests as values

A request is read back from its wire form, which keeps to the bounds on requests as long as the
token does. A value that is no request is refused with a message that may repeat words of it: an
unknown command, or a text that stands where a number should.

## Main statements

* `Request.ofValue_toValue`: a request is read back from its value.
* `Request.admits_toValue`: which requests can be written for their reader.
* `Request.isOneLine_message_iff`: only what a refusal repeats can break its message into lines.
-/
namespace Telemetry.Request

open Resp (Value Limits)

/-! ## Reading back the parts -/

@[simp] theorem readText_text (s : String) : readText (.text s) = .ok s := by
  rw [Value.text, readText, Bytes.toText_ofText]

theorem readNumber_text {range : IntegerRange} {n : Int} (h : range.contains n = true) :
    readNumber range (.text (toString n)) = .ok n := by
  have hparse := IntegerRange.parseText_toString h
  rw [readNumber]
  · simp only [readText_text, hparse]
  · intro n h
    cases h

theorem readNumber_number {bits n : Nat} (h : n < 2 ^ bits) :
    readNumber (.unsigned bits) (number n) = .ok n := by
  have hrange : (IntegerRange.unsigned bits).contains n = true := by
    have h' : (n : Int) < (2 : Int) ^ bits := by exact_mod_cast h
    simp only [IntegerRange.contains, IntegerRange.unsigned, Nat.pow_eq]
    norm_num
    omega
  exact readNumber_text hrange

@[simp] theorem readWord16_number (n : UInt16) : readWord16 (number n.toNat) = .ok n := by
  rw [readWord16, IntegerRange.word16, readNumber_number n.toNat_lt]
  simp [Except.map]

@[simp] theorem readWord32_number (n : UInt32) : readWord32 (number n.toNat) = .ok n := by
  rw [readWord32, IntegerRange.word32, readNumber_number n.toNat_lt]
  simp [Except.map]

@[simp] theorem readWord64_number (n : UInt64) : readWord64 (number n.toNat) = .ok n := by
  rw [readWord64, IntegerRange.word64, readNumber_number n.toNat_lt]
  simp [Except.map]

@[simp] theorem readInt64_text (n : Int64) : readInt64 (.text (toString n.toInt)) = .ok n := by
  rw [readInt64, readNumber_text (IntegerRange.contains_toInt n)]
  simp [Except.map]

@[simp] theorem readToken_token (token : Option String) :
    readToken (token.map Value.text).toList = .ok token := by
  cases token with
  | none => rfl
  | some s => simp [readToken, Except.map]

theorem length_token_le (token : Option String) :
    ¬ 1 < (token.map Value.text).toList.length := by
  cases token <;> simp

/-! ## Requests -/

theorem ofValue_list (args : List Value) :
    ofValue (.array (.text "LIST" :: args)) = readList args := by
  have hname : "LIST".map Char.toUpper = "LIST" := by
    rw [← String.toList_inj, String.toList_map]
    decide
  rw [ofValue, readText_text]
  simp only [hname, if_true]

theorem ofValue_fetch (args : List Value) :
    ofValue (.array (.text "FETCH" :: args)) = readFetch args := by
  have hname : "FETCH".map Char.toUpper = "FETCH" := by
    rw [← String.toList_inj, String.toList_map]
    decide
  have hother : "FETCH" ≠ "LIST" := by decide
  rw [ofValue, readText_text]
  simp only [hname, hother, if_true, if_false]

/-- A request is read back from its value. -/
theorem ofValue_toValue (r : Request) : ofValue r.toValue = .ok r := by
  cases r with
  | list p maxIds token =>
    simp only [toValue, name, arguments, Request.token, List.cons_append, List.nil_append]
    rw [ofValue_list, readList, if_neg (length_token_le token)]
    simp only [readWord16_number, readWord64_number, readToken_token]
    rfl
  | fetch p metric count region token =>
    simp only [toValue, name, arguments, Request.token, List.cons_append, List.nil_append]
    rw [ofValue_fetch, readFetch, if_neg (length_token_le token)]
    simp only [MetricId.toNat, readWord16_number, readWord32_number, readInt64_text,
      readWord64_number, readToken_token]
    rfl

/-- Whether the token of a request, if it has one, keeps to the bound on arguments. -/
def KeepsBounds (r : Request) : Prop :=
  ∀ t, r.token = some t → t.utf8ByteSize ≤ Limits.request.maxBulk

theorem admits_text {s : String} {levels : Nat} (h : s.utf8ByteSize ≤ Limits.request.maxBulk) :
    Limits.request.admits levels (.text s) = true := by
  simp [Value.text, Limits.admits, h]

theorem admits_decimal {n : Int} {levels : Nat} (h : n.natAbs < 2 ^ 64) :
    Limits.request.admits levels (.text (toString n)) = true := by
  have hlen := IntegerRange.utf8ByteSize_toString_le (show n.natAbs < 10 ^ 20 by omega) (by decide)
  exact admits_text (hlen.trans (by decide))

theorem admits_number {n : Nat} {levels : Nat} (h : n < 2 ^ 64) :
    Limits.request.admits levels (number n) = true :=
  admits_decimal (n := n) h

theorem admits_arguments (r : Request) {levels : Nat} :
    ∀ v ∈ r.arguments, Limits.request.admits levels v = true := by
  cases r with
  | list p maxIds token =>
    have hp := p.toNat_lt
    have hmax := maxIds.toNat_lt
    intro v hv
    simp only [arguments, List.mem_cons, List.not_mem_nil, or_false] at hv
    rcases hv with rfl | rfl
    · exact admits_number (by omega)
    · exact admits_number hmax
  | fetch p metric count region token =>
    have hp := p.toNat_lt
    have hm := metric.val.toNat_lt
    have hlo := count.le_toInt
    have hhi := count.toInt_lt
    intro v hv
    simp only [arguments, MetricId.toNat, List.mem_cons, List.not_mem_nil, or_false] at hv
    rcases hv with rfl | rfl | rfl | rfl | rfl
    · exact admits_number (by omega)
    · exact admits_number (by omega)
    · exact admits_decimal (by omega)
    · exact admits_number region.id.toNat_lt
    · exact admits_number region.length.toNat_lt

theorem admits_name (r : Request) {levels : Nat} :
    Limits.request.admits levels (.text r.name) = true := by
  apply admits_text
  cases r with
  | list p maxIds token => exact (by decide : "LIST".utf8ByteSize ≤ Limits.request.maxBulk)
  | fetch p metric count region token =>
    exact (by decide : "FETCH".utf8ByteSize ≤ Limits.request.maxBulk)

/-- A request keeps to the bounds on requests if its token does. -/
theorem admits_toValue {r : Request} (h : r.KeepsBounds) : Limits.request.Admits r.toValue := by
  have htoken : ∀ v ∈ (r.token.map Value.text).toList, Limits.request.admits 1 v = true := by
    intro v hv
    obtain ⟨t, ht, rfl⟩ : ∃ t, r.token = some t ∧ Value.text t = v := by simpa using hv
    exact admits_text (h t ht)
  have hlength : (.text r.name :: r.arguments ++ (r.token.map Value.text).toList).length
      ≤ Limits.request.maxArray := by
    have hmax : Limits.request.maxArray = 8 := rfl
    have hone := length_token_le r.token
    cases r <;>
      · simp only [arguments, List.length_append, List.length_cons, List.length_nil]
        omega
  show (decide _ && List.all _ _) = true
  rw [Bool.and_eq_true, decide_eq_true_eq, List.all_eq_true]
  refine ⟨hlength, fun v hv => ?_⟩
  rcases List.mem_append.mp hv with hv | hv
  · rcases List.mem_cons.mp hv with rfl | hv
    · exact admits_name r
    · exact admits_arguments r v hv
  · exact htoken v hv

/-! ## What a refusal repeats -/

/-- Whether a refusal repeats a text: that of an unknown command, or one in the place of a number.
-/
inductive Repeated (text : String) : Failure → Prop where
  | command : Repeated text (.unsupported ("unknown request '" ++ text ++ "'"))
  | number : Repeated text (.invalidArgs ("'" ++ text ++ "' is not a valid integer"))

variable {v : Value} {failure : Failure}

theorem isOneLine_readText (h : readText v = .error failure) : Text.IsOneLine failure.message := by
  unfold readText at h
  split at h
  · split at h
    · cases h
    · cases h
      decide +kernel
  · cases h
  · cases h
    decide +kernel

theorem repeated_of_readNumber {range : IntegerRange} (h : readNumber range v = .error failure) :
    (∃ text, Repeated text failure) ∨ Text.IsOneLine failure.message := by
  unfold readNumber at h
  split at h
  · split at h
    · cases h
    · cases h
      have hhead : Text.IsOneLine "invalid argument: " := by decide +kernel
      have hword : Text.IsOneLine "integer " := by decide +kernel
      have hlast : Text.IsOneLine " out of range" := by decide +kernel
      exact .inr (hhead.append ((hword.append (IntegerRange.isOneLine_toString _)).append hlast))
  · split at h
    · rename_i hread
      cases h
      exact .inr (isOneLine_readText hread)
    · split at h
      · cases h
      · cases h
        exact .inl ⟨_, .number⟩

theorem isOneLine_readToken {args : List Value} (h : readToken args = .error failure) :
    Text.IsOneLine failure.message := by
  cases args with
  | nil => cases h
  | cons v args => exact isOneLine_readText (Failure.map_eq_error_iff.mp h)

theorem repeated_of_readList {args : List Value} (h : readList args = .error failure) :
    (∃ text, Repeated text failure) ∨ Text.IsOneLine failure.message := by
  have harity : Text.IsOneLine (wrongArity "LIST").message := by decide +kernel
  unfold readList at h
  split at h
  · split at h
    · cases h
      exact .inr harity
    · simp only [Failure.bind_eq_error_iff] at h
      rcases h with h | ⟨_, -, h | ⟨_, -, h | ⟨_, -, h⟩⟩⟩
      · exact repeated_of_readNumber (Failure.map_eq_error_iff.mp h)
      · exact repeated_of_readNumber (Failure.map_eq_error_iff.mp h)
      · exact .inr (isOneLine_readToken h)
      · cases h
  · cases h
    exact .inr harity

theorem repeated_of_readFetch {args : List Value} (h : readFetch args = .error failure) :
    (∃ text, Repeated text failure) ∨ Text.IsOneLine failure.message := by
  have harity : Text.IsOneLine (wrongArity "FETCH").message := by decide +kernel
  unfold readFetch at h
  split at h
  · split at h
    · cases h
      exact .inr harity
    · simp only [Failure.bind_eq_error_iff] at h
      rcases h with h | ⟨_, -, h | ⟨_, -, h | ⟨_, -, h | ⟨_, -, h | ⟨_, -, h | ⟨_, -, h⟩⟩⟩⟩⟩⟩
      · exact repeated_of_readNumber (Failure.map_eq_error_iff.mp h)
      · exact repeated_of_readNumber (Failure.map_eq_error_iff.mp h)
      · exact repeated_of_readNumber (Failure.map_eq_error_iff.mp h)
      · exact repeated_of_readNumber (Failure.map_eq_error_iff.mp h)
      · exact repeated_of_readNumber (Failure.map_eq_error_iff.mp h)
      · exact .inr (isOneLine_readToken h)
      · cases h
  · cases h
    exact .inr harity

theorem repeated_of_ofValue (h : ofValue v = .error failure) :
    (∃ text, Repeated text failure) ∨ Text.IsOneLine failure.message := by
  unfold ofValue at h
  split at h
  · split at h
    · rename_i hread
      cases h
      exact .inr (isOneLine_readText hread)
    · simp only at h
      split at h
      · exact repeated_of_readList h
      · split at h
        · exact repeated_of_readFetch h
        · cases h
          exact .inl ⟨_, .command⟩
  · cases h
    exact .inr (by decide +kernel)

theorem Repeated.isOneLine {text : String} (h : Repeated text failure)
    (hline : Text.IsOneLine failure.message) : Text.IsOneLine text := by
  cases h with
  | command =>
    exact (Text.isOneLine_append.mp (Text.isOneLine_append.mp
      (Text.isOneLine_append.mp hline).2).1).2
  | number =>
    exact (Text.isOneLine_append.mp (Text.isOneLine_append.mp
      (Text.isOneLine_append.mp hline).2).1).2

theorem Repeated.isOneLine_message {text : String} (h : Repeated text failure)
    (hline : Text.IsOneLine text) : Text.IsOneLine failure.message := by
  cases h with
  | command =>
    have hhead : Text.IsOneLine "operation not supported: " := by decide +kernel
    have hword : Text.IsOneLine "unknown request '" := by decide +kernel
    exact hhead.append ((hword.append hline).append (by decide))
  | number =>
    have hhead : Text.IsOneLine "invalid argument: " := by decide +kernel
    have hlast : Text.IsOneLine "' is not a valid integer" := by decide +kernel
    have hquote : Text.IsOneLine "'" := by decide
    exact hhead.append ((hquote.append hline).append hlast)

/-- The message of a refusal is on one line if and only if what it repeats is. -/
theorem isOneLine_message_iff (h : ofValue v = .error failure) :
    Text.IsOneLine failure.message ↔ ∀ text, Repeated text failure → Text.IsOneLine text := by
  refine ⟨fun hline text hr => hr.isOneLine hline, fun hall => ?_⟩
  rcases repeated_of_ofValue h with ⟨text, hr⟩ | hline
  · exact hr.isOneLine_message (hall text hr)
  · exact hline

end Telemetry.Request
