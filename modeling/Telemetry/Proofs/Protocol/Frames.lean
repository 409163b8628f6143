import Telemetry.Metric.Names
import Telemetry.Proofs.Failure
import Telemetry.Proofs.Number.Decimal
import Telemetry.Proofs.Resp.Refusal
import Telemetry.Protocol.Frame
import Mathlib

/-!
# Frames as values

A frame is read back from its wire form, whatever its texts hold. On a connection that is not
enough: a rejection is a line, so a message with a carriage return does not survive it.

## Main statements

* `Frame.ofValue_toValue`: a frame is read back from its value.
* `Frame.admits_toValue`: which frames can be written for the reader of replies.
* `Frame.isOneLine_of_ofValue`: no other rejection is ever read off a connection.
-/
namespace Telemetry.Frame

open Resp (Value Limits)

variable {f : Frame}

/-- Whether a listing or a payload keeps to the bounds on what a peer sends. -/
def KeepsBounds : Frame → Prop
  | list _ ids => ids.length ≤ Limits.peer.maxArray
  | bulk push => push.payload.length ≤ Limits.peer.maxBulk
  | fetch _ _ _ _ | rejected _ _ => True

/-- Whether the names in a frame are short enough for a metric. -/
def IsNamed : Frame → Prop
  | fetch _ _ name ns => name.utf8ByteSize ≤ maxNameLength ∧ ns.utf8ByteSize ≤ maxNamespaceLength
  | list _ _ | bulk _ | rejected _ _ => True

/-- Whether a frame is no rejection whose message holds a carriage return. -/
def IsOneLine : Frame → Prop
  | rejected _ message => Text.IsOneLine message
  | list _ _ | fetch _ _ _ _ | bulk _ => True

/-! ## Reading back the parts -/

@[simp] theorem readStatus_ofStatus (s : Status) : readStatus (ofStatus s) = .ok s := by
  cases s <;> rfl

@[simp] theorem readInteger_integer (n : Int64) : readInteger (.integer n) = .ok n := rfl

@[simp] theorem readText_text (s : String) : readText (.text s) = .ok s := by
  rw [Value.text, readText, Bytes.toTextLossy_ofText]

theorem readId_integer (id : MetricId) : readId (.integer (Int64.ofNat id.toNat)) = .ok id := by
  have hlt : id.toNat < 0x100000000 := id.val.toNat_lt
  have hint : (Int64.ofNat id.toNat).toInt = id.toNat := Int64.toInt_ofNat_of_lt (by omega)
  have hrange : IntegerRange.word32.contains id.toNat := by
    simp only [IntegerRange.contains, IntegerRange.word32, IntegerRange.unsigned]
    norm_num
    omega
  rw [readId, readInteger_integer]
  simp only [hint, hrange, if_true, Int.toNat_natCast, MetricId.ofNat_toNat]

theorem readIds_array (ids : List MetricId) :
    readIds (.array (ids.map fun id => .integer (Int64.ofNat id.toNat))) = .ok ids := by
  rw [readIds]
  induction ids with
  | nil => rfl
  | cons id ids ih =>
    rw [List.map_cons, List.mapM_cons, readId_integer, ih]
    rfl

/-! ## Rejections -/

theorem cutWord_append {word : List Char} (h : ' ' ∉ word) (rest : List Char) :
    cutWord (word ++ ' ' :: rest) = (word, rest) := by
  have hword : ∀ c ∈ word, (c != ' ') = true := by
    intro c hc
    simp only [bne_iff_ne]
    rintro rfl
    exact h hc
  rw [cutWord, List.takeWhile_append_of_pos hword, List.dropWhile_append_of_pos hword]
  simp

theorem space_notMem_code (s : Status) : ' ' ∉ (toString s.code).toList := by
  cases s <;> decide

theorem parse_code (s : Status) :
    IntegerRange.int32.parse (toString s.code).toList = .ok s.code := by
  cases s <;> rfl

theorem readRejection_append (s : Status) (message : String) :
    readRejection ("ERR " ++ toString s.code ++ " " ++ message) = .rejected s message := by
  have htext : ("ERR " ++ toString s.code ++ " " ++ message).toList
      = ['E', 'R', 'R'] ++ ' ' :: ((toString s.code).toList ++ ' ' :: message.toList) := by
    simp
  rw [readRejection, htext, cutWord_append (by decide)]
  simp only [cutWord_append (space_notMem_code s), parse_code, Status.ofCode?_code,
    Option.getD_some, String.ofList_toList]

/-! ## Frames -/

theorem ofInt_toNat (n : UInt64) : Int64.ofInt n.toNat = n.toInt64 := by
  have h := UInt64.toInt64_ofNat' (n := n.toNat)
  rw [UInt64.ofNat_toNat] at h
  exact h.symm

/-- A frame is read back from its value. -/
theorem ofValue_toValue (f : Frame) : ofValue f.toValue = .ok f := by
  cases f with
  | list status ids =>
    rw [toValue, ofValue, readText_text]
    simp only [readElements, readList, readStatus_ofStatus, readInteger_integer, readIds_array]
    exact if_pos rfl
  | fetch status count name ns =>
    rw [toValue, ofValue, readText_text]
    simp only [readElements, readStatus_ofStatus, readInteger_integer, readText_text]
    rfl
  | bulk push =>
    rw [toValue, ofValue, readText_text]
    simp only [readElements, readInteger_integer, readPayload, ofInt_toNat]
    simp [bind, Except.bind, pure, Except.pure]
  | rejected status message => rw [toValue, ofValue, readRejection_append]

/-! ## Frames on a connection -/

/-- A rejection stands on one line if and only if its message does. -/
theorem isOneLine_rejection (s : Status) (message : String) :
    Text.IsOneLine ("ERR " ++ toString s.code ++ " " ++ message) ↔ Text.IsOneLine message := by
  have hword : Text.IsOneLine "ERR " := by decide
  have hspace : Text.IsOneLine " " := by decide
  have hcode := IntegerRange.isOneLine_toString s.code
  simp only [Text.isOneLine_append, hword, hcode, hspace, true_and]

theorem admits_list_iff {limits : Limits} {s : Status} {ids : List MetricId} :
    limits.Admits (list s ids).toValue ↔
      2 ≤ limits.maxDepth ∧ 4 ≤ limits.maxArray ∧ 4 ≤ limits.maxBulk ∧
        ids.length ≤ limits.maxArray := by
  have hname : (Bytes.ofText "LIST").length = 4 := by decide
  rw [Limits.Admits, toValue]
  rcases limits.maxDepth with _ | _ | depth
  · simp [Limits.admits]
  · simp [Limits.admits]
  · simp [Limits.admits, Value.text, ofStatus, hname]

theorem admits_fetch_iff {limits : Limits} {s : Status} {n : Int64} {name ns : String} :
    limits.Admits (fetch s n name ns).toValue ↔
      1 ≤ limits.maxDepth ∧ 5 ≤ limits.maxArray ∧ 5 ≤ limits.maxBulk ∧
        name.utf8ByteSize ≤ limits.maxBulk ∧ ns.utf8ByteSize ≤ limits.maxBulk := by
  have hname : (Bytes.ofText "FETCH").length = 5 := by decide
  rw [Limits.Admits, toValue]
  cases limits.maxDepth with
  | zero => simp [Limits.admits]
  | succ depth => simp [Limits.admits, Value.text, ofStatus, hname]

theorem admits_bulk_iff {limits : Limits} {push : Push} :
    limits.Admits (bulk push).toValue ↔
      1 ≤ limits.maxDepth ∧ 3 ≤ limits.maxArray ∧ 4 ≤ limits.maxBulk ∧
        push.payload.length ≤ limits.maxBulk := by
  have hname : (Bytes.ofText "BULK").length = 4 := by decide
  rw [Limits.Admits, toValue]
  cases limits.maxDepth with
  | zero => simp [Limits.admits]
  | succ depth => simp [Limits.admits, Value.text, hname]

theorem admits_rejected_iff {limits : Limits} {s : Status} {message : String} :
    limits.Admits (rejected s message).toValue ↔ Text.IsOneLine message := by
  rw [← isOneLine_rejection s message, ← Bytes.cr_notMem_ofText]
  simp [toValue, Limits.Admits, Limits.admits]

/-- What a peer admits: rejections whose message is on one line, and everything else. -/
theorem admits_toValue (h : f.KeepsBounds) (hn : f.IsNamed) (hl : f.IsOneLine) :
    Limits.peer.Admits f.toValue := by
  cases f with
  | list status ids => exact admits_list_iff.mpr ⟨by decide, by decide, by decide, h⟩
  | fetch status count name ns =>
    have hbounds : maxNameLength ≤ Limits.peer.maxBulk ∧ maxNamespaceLength ≤ Limits.peer.maxBulk :=
      ⟨by decide, by decide⟩
    exact admits_fetch_iff.mpr ⟨by decide, by decide, by decide, hn.1.trans hbounds.1,
      hn.2.trans hbounds.2⟩
  | bulk push => exact admits_bulk_iff.mpr ⟨by decide, by decide, by decide, h⟩
  | rejected status message => exact admits_rejected_iff.mpr hl

theorem fits_toValue (h : f.KeepsBounds) (hn : f.IsNamed) (hl : f.IsOneLine) : f.toValue.Fits :=
  Value.fits_of_admits (by decide) (by decide) (admits_toValue h hn hl)

/-- Some reader admits every frame on one line, however large it is. -/
theorem exists_admits_toValue (hl : f.IsOneLine) : ∃ wide : Limits, wide.Admits f.toValue := by
  cases f with
  | list status ids =>
    refine ⟨⟨2, ids.length + 4, 4, 0⟩, admits_list_iff.mpr ⟨le_rfl, ?_, le_rfl, ?_⟩⟩ <;>
      simp only <;> omega
  | fetch status count name ns =>
    refine ⟨⟨1, 5, name.utf8ByteSize + ns.utf8ByteSize + 5, 0⟩,
      admits_fetch_iff.mpr ⟨le_rfl, le_rfl, ?_, ?_, ?_⟩⟩ <;> simp only <;> omega
  | bulk push =>
    refine ⟨⟨1, 3, push.payload.length + 4, 0⟩,
      admits_bulk_iff.mpr ⟨le_rfl, le_rfl, ?_, ?_⟩⟩ <;> simp only <;> omega
  | rejected status message => exact ⟨.peer, admits_rejected_iff.mpr hl⟩

/-- A peer reads a frame exactly or refuses the input. -/
theorem parse_or_invalid (hl : f.IsOneLine) (rest : Bytes) :
    (Value.parse .peer (f.toValue.encode ++ rest) = .value f.toValue rest ∧
      ofValue f.toValue = .ok f) ∨
      ∃ fault, Value.parse .peer (f.toValue.encode ++ rest) = .invalid fault := by
  obtain ⟨wide, hwide⟩ := exists_admits_toValue hl
  rcases Value.isExact_encode hwide rest with hv | hinvalid
  · exact .inl ⟨hv, ofValue_toValue f⟩
  · exact .inr hinvalid

/-- A frame that can be written for a peer is read. -/
theorem parse_toValue (h : f.KeepsBounds) (hn : f.IsNamed) (hl : f.IsOneLine) (rest : Bytes) :
    Value.parse .peer (f.toValue.encode ++ rest) = .value f.toValue rest :=
  Value.parse_encode_append (admits_toValue h hn hl) (fits_toValue h hn hl) rest

/-! ## What is read off a connection -/

theorem cutWord_suffix (cs : List Char) : (cutWord cs).2 <:+ cs :=
  (List.drop_suffix 1 _).trans (List.dropWhile_suffix _)

/-- The message of a rejection is an end of the line that holds it. -/
theorem isOneLine_readRejection {text : String} (h : Text.IsOneLine text) :
    (readRejection text).IsOneLine := by
  rw [readRejection]
  simp only [IsOneLine, Text.IsOneLine, String.toList_ofList]
  exact fun hm => h (((cutWord_suffix _).trans (cutWord_suffix _)).mem hm)

theorem isOneLine_readElements {name : String} {elements : List Value}
    (h : readElements name elements = .ok f) : f.IsOneLine := by
  unfold readElements at h
  split at h
  · simp only [readList, Failure.bind_eq_ok_iff] at h
    obtain ⟨s, -, n, -, ids, -, h⟩ := h
    split at h
    · cases h
      trivial
    · cases h
  · simp only [Failure.bind_eq_ok_iff] at h
    obtain ⟨s, -, n, -, name, -, ns, -, h⟩ := h
    cases h
    trivial
  · simp only [Failure.bind_eq_ok_iff] at h
    obtain ⟨region, -, payload, -, h⟩ := h
    cases h
    trivial
  · cases h

/-- No other rejection is ever read off a connection. -/
theorem isOneLine_of_ofValue {limits : Limits} {levels : Nat} {v : Value}
    (ha : limits.admits levels v = true) (h : ofValue v = .ok f) : f.IsOneLine := by
  unfold ofValue at h
  split at h
  · rename_i text
    rw [Limits.admits] at ha
    have hline := Value.cr_notMem_of_admits ha
    cases h
    exact isOneLine_readRejection (Bytes.cr_notMem_ofText.mp hline)
  · split at h
    · cases h
    · exact isOneLine_readElements h
  · cases h

end Telemetry.Frame
