import Telemetry.Proofs.Number.Decimal
import Telemetry.Proofs.Resp.Chunks
import Mathlib

/-!
# What the sender of faulty bytes is told

The messages about faulty bytes are fixed texts and numbers. One of them repeats a byte of the
input: that of an unknown type. So there is one message that holds a carriage return.
-/
namespace Telemetry.Resp

variable {limits : Limits} {buffer : Bytes} {failure : Failure}

theorem isOneLine_singleton_ofNat {b : UInt8} :
    Text.IsOneLine (String.singleton (Char.ofNat b.toNat)) ↔ b ≠ 13 := by
  revert b
  decide +kernel

theorem isOneLine_utf8Fault (fault : Utf8Fault) : Text.IsOneLine fault.message := by
  cases fault with
  | illFormed index width =>
    have hwidth := IntegerRange.isOneLine_toString_natCast width
    have hindex := IntegerRange.isOneLine_toString_natCast index
    have hhead : Text.IsOneLine "invalid utf-8 sequence of " := by decide +kernel
    have hmiddle : Text.IsOneLine " bytes from index " := by decide +kernel
    exact ((hhead.append hwidth).append hmiddle).append hindex
  | truncated index =>
    have hindex := IntegerRange.isOneLine_toString_natCast index
    have hhead : Text.IsOneLine "incomplete utf-8 byte sequence from index " := by decide +kernel
    exact hhead.append hindex

theorem isOneLine_integerFault (fault : IntegerFault) : Text.IsOneLine fault.message := by
  cases fault <;> decide +kernel

/-- Only the byte 13 in the place of a type puts a carriage return into the message. -/
theorem Fault.isOneLine_message {fault : Fault} :
    Text.IsOneLine fault.message ↔ fault ≠ .unknownType 13 := by
  cases fault with
  | unknownType b =>
    have hhead : Text.IsOneLine "Unknown RESP type: " := by decide +kernel
    have hbyte : Fault.unknownType b ≠ .unknownType 13 ↔ b ≠ 13 := by simp
    rw [hbyte, ← isOneLine_singleton_ofNat]
    exact Text.isOneLine_append.trans (and_iff_right hhead)
  | notText fault => exact iff_of_true (isOneLine_utf8Fault fault) nofun
  | notNumber fault => exact iff_of_true (isOneLine_integerFault fault) nofun
  | bulkLength n =>
    have hhead : Text.IsOneLine "bad bulk length " := by decide +kernel
    exact iff_of_true (hhead.append (IntegerRange.isOneLine_toString _)) nofun
  | arrayLength n =>
    have hhead : Text.IsOneLine "bad array length " := by decide +kernel
    exact iff_of_true (hhead.append (IntegerRange.isOneLine_toString _)) nofun
  | notTerminated => exact iff_of_true (by decide +kernel) nofun
  | tooDeep n =>
    have hhead : Text.IsOneLine "arrays nested deeper than " := by decide +kernel
    exact iff_of_true (hhead.append (IntegerRange.isOneLine_toString_natCast _)) nofun

namespace Codec

/-- What is told about a carriage return in the place of a type. -/
def crFailure : Failure := .transport (Fault.unknownType 13).message

theorem isOneLine_transport {detail : String} :
    Text.IsOneLine (Failure.transport detail).message ↔ Text.IsOneLine detail := by
  have hhead : Text.IsOneLine "transport error: " := by decide +kernel
  exact Text.isOneLine_append.trans (and_iff_right hhead)

/-- Of all failures to decode, only this one holds a carriage return. -/
theorem isOneLine_of_decode (h : decode limits buffer = .error failure) :
    Text.IsOneLine failure.message ↔ failure ≠ crFailure := by
  have hcr : ¬ Text.IsOneLine crFailure.message := by
    rw [crFailure, isOneLine_transport, Fault.isOneLine_message]
    simp
  refine ⟨fun hline he => hcr (he ▸ hline), fun hne => ?_⟩
  unfold decode at h
  split at h
  · cases h
  · split at h
    · cases h
      have hhead : Text.IsOneLine "frame exceeds " := by decide +kernel
      have hlast : Text.IsOneLine " bytes" := by decide +kernel
      have hmax := IntegerRange.isOneLine_toString_natCast limits.maxFrame
      exact isOneLine_transport.mpr ((hhead.append hmax).append hlast)
    · cases h
  · rename_i fault hp
    cases h
    rw [isOneLine_transport, Fault.isOneLine_message]
    rintro rfl
    exact hne rfl

/-- The failure of a stream is that of some bytes of it. -/
theorem exists_decode_of_feedAll {seen : Drained} {chunks : List Bytes}
    (hseen : seen.failure? = some failure → ∃ buffer, decode limits buffer = .error failure)
    (h : (feedAll limits seen chunks).failure? = some failure) :
    ∃ buffer, decode limits buffer = .error failure := by
  induction chunks generalizing seen with
  | nil => exact hseen h
  | cons chunk chunks ih =>
    rw [feedAll] at h
    split at h
    · exact hseen h
    · refine ih (fun hd => ?_) h
      have hdecode := decode_rest_drain limits (seen.rest ++ chunk)
      rw [show (drain limits (seen.rest ++ chunk)).failure? = some failure from hd] at hdecode
      exact ⟨_, hdecode⟩

end Codec

end Telemetry.Resp
