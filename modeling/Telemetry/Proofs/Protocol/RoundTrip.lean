import Telemetry.Proofs.Protocol.Frames
import Telemetry.Proofs.Protocol.Requests
import Telemetry.Proofs.Resp.Narrowing
import Mathlib

/-!
# Messages on the wire

A message is written as a value and a value as bytes, and the other side undoes both. It gets the
message back, with nothing taken of what follows it, if the value keeps to the limits under which it
reads. A request does so unless its token is longer than an argument may be, and is refused then. A
frame does so if its parts are no larger than a peer allows, and a rejection has to be a line.

## Main definitions

* `Frame.IsSendable`: which frames a peer gets back.

## Main statements

* `Request.parse_encode_toValue_iff`: which requests a provider reads off the wire.
* `Frame.ofValue_toValue_and_parse_iff`: which frames a peer reads off the wire.
-/
namespace Telemetry

open Resp (Value Limits)

/-! ## Requests -/

namespace Request

variable {r : Request} {t : String}

theorem length_arguments_le (r : Request) : r.arguments.length ≤ 5 := by
  cases r <;> simp [arguments]

/-- A request is refused for a token that is too long. -/
theorem exists_fault_of_token (ht : r.token = some t) (h : Limits.request.maxBulk < t.utf8ByteSize)
    (suffix : Bytes) :
    ∃ fault, Value.parse .request (r.toValue.encode ++ suffix) = .invalid fault ∧
      (t.utf8ByteSize < 0x8000000000000000 →
        fault = .bulkLength (Int64.ofNat t.utf8ByteSize)) := by
  have hbytes : (Bytes.ofText t).length = t.utf8ByteSize := Bytes.length_ofText t
  rw [← hbytes] at h ⊢
  obtain ⟨fault, hfault, hlength⟩ := Value.exists_fault_of_length_lt h 1 suffix
  refine ⟨fault, ?_, hlength⟩
  have hvalue : r.toValue = .array ((.text r.name :: r.arguments) ++ [.text t]) := by
    rw [toValue, ht]
    rfl
  have hfront : ∀ v ∈ Value.text r.name :: r.arguments,
      Limits.request.admits 1 v = true ∧ v.Fits := by
    intro v hv
    have hadmits : Limits.request.admits 1 v = true := by
      rcases List.mem_cons.mp hv with rfl | hv
      · exact admits_name r
      · exact admits_arguments r v hv
    exact ⟨hadmits, Value.fits_of_admits (by decide) (by decide) hadmits⟩
  have hle := length_arguments_le r
  have hmax : Limits.request.maxArray = 8 := rfl
  rw [hvalue]
  apply Value.parseWithin_array_of_last
  · rw [List.length_cons]
    omega
  · rw [List.length_cons]
    omega
  · exact hfront
  · exact hfault

/-- A request is read off the wire, and nothing of what follows it, if and only if it has no token or
one of at most 4096 bytes. With a longer token the input is refused. -/
theorem parse_encode_toValue_iff (r : Request) (suffix : Bytes) :
    ((∃ v, Value.parse .request (r.toValue.encode ++ suffix) = .value v suffix ∧
        ofValue v = .ok r) ↔ ∀ t, r.token = some t → t.utf8ByteSize ≤ 4096) ∧
      ∀ t, r.token = some t → 4096 < t.utf8ByteSize →
        ∃ fault, Value.parse .request (r.toValue.encode ++ suffix) = .invalid fault ∧
          (t.utf8ByteSize < 0x8000000000000000 →
            fault = .bulkLength (Int64.ofNat t.utf8ByteSize)) := by
  refine ⟨⟨?_, ?_⟩, ?_⟩
  · rintro ⟨v, hparse, -⟩ t ht
    by_contra hlong
    obtain ⟨fault, hfault, -⟩ := exists_fault_of_token ht (Nat.lt_of_not_le hlong) suffix
    rw [hparse] at hfault
    cases hfault
  · intro hshort
    have hadmits : Limits.request.Admits r.toValue := admits_toValue hshort
    have hfits : r.toValue.Fits := Value.fits_of_admits (by decide) (by decide) hadmits
    exact ⟨r.toValue, Value.parse_encode_append hadmits hfits suffix, ofValue_toValue r⟩
  · intro t ht hlong
    exact exists_fault_of_token ht hlong suffix

/-- A request with the extreme number of every width and an empty token, in front of the beginning of
another, and a request with a token that is one byte too long. -/
theorem parse_encode_toValue_iff_extreme :
    (∃ v, Value.parse .request ((fetch 65535 ⟨4294967295⟩ (-9223372036854775808)
          ⟨18446744073709551615, 0⟩ (some "")).toValue.encode ++ [42]) = .value v [42] ∧
        ofValue v = .ok (fetch 65535 ⟨4294967295⟩ (-9223372036854775808)
          ⟨18446744073709551615, 0⟩ (some ""))) ∧
      4096 < (String.ofList (List.replicate 4097 'x')).utf8ByteSize ∧
      ∃ fault, Value.parse .request
          ((list 0 0 (some (String.ofList (List.replicate 4097 'x')))).toValue.encode ++ [42])
        = .invalid fault := by
  have hsize : ∀ n, (String.ofList (List.replicate n 'x')).utf8ByteSize = n := by
    intro n
    rw [← Bytes.length_ofText, Bytes.ofText_eq_flatMap, String.toList_ofList, List.length_flatMap,
      List.map_replicate, List.sum_replicate]
    exact Nat.mul_one n
  have hlong : 4096 < (String.ofList (List.replicate 4097 'x')).utf8ByteSize := by
    rw [hsize]
    decide
  refine ⟨(parse_encode_toValue_iff _ _).1.mpr ?_, hlong, ?_⟩
  · intro t ht
    cases ht
    decide
  · obtain ⟨fault, hfault, -⟩ := (parse_encode_toValue_iff (list 0 0 (some _)) [42]).2 _ rfl hlong
    exact ⟨fault, hfault⟩

end Request

/-! ## Frames -/

namespace Frame

variable {f : Frame} {suffix : Bytes} {v : Value}

/-- Whether a peer gets a frame back: the parts of the frame are no larger than the peer allows, and
the message of a rejection holds no carriage return. -/
def IsSendable : Frame → Prop
  | list _ ids => ids.length ≤ Limits.peer.maxArray
  | fetch _ _ name ns =>
    name.utf8ByteSize ≤ Limits.peer.maxBulk ∧ ns.utf8ByteSize ≤ Limits.peer.maxBulk
  | bulk push => push.payload.length ≤ Limits.peer.maxBulk
  | rejected _ message => Text.IsOneLine message

theorem admits_toValue_iff : Limits.peer.Admits f.toValue ↔ f.IsSendable := by
  have hbounds : 2 ≤ Limits.peer.maxDepth ∧ 5 ≤ Limits.peer.maxArray ∧ 5 ≤ Limits.peer.maxBulk :=
    ⟨by decide, by decide, by decide⟩
  cases f with
  | list status ids =>
    rw [admits_list_iff, IsSendable]
    omega
  | fetch status count name ns =>
    rw [admits_fetch_iff, IsSendable]
    omega
  | bulk push =>
    rw [admits_bulk_iff, IsSendable]
    omega
  | rejected status message => rw [admits_rejected_iff, IsSendable]

/-- What is read of an error in front of the rest is a line, however the error was written. -/
theorem cr_notMem_of_parse_error {text : String}
    (h : Value.parse .peer ((Value.error text).encode ++ suffix) = .value v suffix) :
    13 ∉ Bytes.ofText text := by
  have hinput : (Value.error text).encode ++ suffix
      = 45 :: (Bytes.ofText text ++ Value.lineEnd ++ suffix) := by
    simp [Value.encode]
  rw [hinput, Value.parse, Value.parseWithin_error, Value.withLine_eq_value_iff] at h
  obtain ⟨line, tail, hline, heq, hnext⟩ := h
  cases hnext
  have htext : Bytes.ofText text = line :=
    List.append_cancel_right (List.append_cancel_right heq)
  rwa [htext]

theorem isSendable_of_parse
    (h : Value.parse .peer (f.toValue.encode ++ suffix) = .value v suffix) : f.IsSendable := by
  have hread : f.IsOneLine → f.IsSendable := by
    intro hline
    rcases parse_or_invalid hline suffix with ⟨hvalue, -⟩ | ⟨fault, hfault⟩
    · exact admits_toValue_iff.mp (Value.admits_of_parse hvalue)
    · rw [h] at hfault
      cases hfault
  cases f with
  | list status ids => exact hread trivial
  | fetch status count name ns => exact hread trivial
  | bulk push => exact hread trivial
  | rejected status message =>
    have hline := Bytes.cr_notMem_ofText.mp (cr_notMem_of_parse_error h)
    exact (isOneLine_rejection status message).mp hline

/-- A frame is read back from its value, whatever it holds. It is read off the wire, and nothing of
what follows it, if and only if it is sendable. -/
theorem ofValue_toValue_and_parse_iff :
    (∀ f : Frame, ofValue f.toValue = .ok f) ∧
      ∀ (f : Frame) (suffix : Bytes),
        (∃ v, Value.parse .peer (f.toValue.encode ++ suffix) = .value v suffix ∧
          ofValue v = .ok f) ↔ f.IsSendable := by
  refine ⟨ofValue_toValue, ?_⟩
  intro f suffix
  constructor
  · rintro ⟨v, hparse, -⟩
    exact isSendable_of_parse hparse
  · intro hsendable
    have hadmits := admits_toValue_iff.mpr hsendable
    have hfits : f.toValue.Fits := Value.fits_of_admits (by decide) (by decide) hadmits
    exact ⟨f.toValue, Value.parse_encode_append hadmits hfits suffix, ofValue_toValue f⟩

end Frame

end Telemetry
