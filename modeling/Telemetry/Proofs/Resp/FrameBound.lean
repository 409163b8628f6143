import Telemetry.Proofs.Resp.Chunks
import Mathlib

/-!
# The bound on frames

The bound on frames is looked at when a buffer holds no whole value. So it bounds what a receiver
keeps while it waits, and not the values that it takes: a value that is whole when the buffer is
looked at is taken, however long it is. A long value that arrives in chunks is refused as soon as a
chunk ends inside it with more bytes in the buffer than the bound admits; whether one does is up to
whoever cuts the stream.

## Main definitions

* `Codec.KeepsBound`: no chunk ends inside a frame and beyond the bound.

## Main statements

* `Codec.feedAll_frame`: a frame in chunks that keep the bound is taken.
* `Codec.feedAll_frame_of_not_keepsBound`: any other is refused.
* `Codec.frame_taken_iff`: which frames are taken however they arrive.
-/
namespace Telemetry.Resp.Codec

variable {limits : Limits} {buffer frame front chunk : Bytes} {chunks : List Bytes} {v : Value}

/-- What is told of a frame that is longer than the bound and not whole. -/
def tooLong (limits : Limits) : Failure :=
  .transport ("frame exceeds " ++ toString limits.maxFrame ++ " bytes")

/-- Whether a frame, of which some bytes are there already and the rest arrives in chunks, keeps to
the bound as long as it is not whole. -/
def KeepsBound (limits : Limits) (front : Bytes) (chunks : List Bytes) : Prop :=
  ∀ seen more, seen ++ more = chunks → more.flatten ≠ [] →
    (front ++ seen.flatten).length ≤ limits.maxFrame

/-! ## One look at the buffer -/

theorem decode_of_tooLong (h : Value.parse limits buffer = .incomplete)
    (hlong : limits.maxFrame < buffer.length) : decode limits buffer = .error (tooLong limits) := by
  rw [decode, h]
  simp only [if_pos hlong, tooLong]

/-- What waits for more keeps to the bound. -/
theorem length_le_of_decode_none (h : decode limits buffer = .ok none) :
    buffer.length ≤ limits.maxFrame := by
  cases hp : Value.parse limits buffer with
  | value v rest => rw [decode_of_value hp] at h; cases h
  | invalid fault => rw [decode_of_invalid hp] at h; cases h
  | incomplete =>
    by_contra hlong
    rw [decode_of_tooLong hp (Nat.lt_of_not_le hlong)] at h
    cases h

/-- There are values of any length, and the bound keeps none of them off. -/
theorem exists_frame_length_lt (limits : Limits) (n : Nat) :
    ∃ frame v, n < frame.length ∧ decode limits frame = .ok (some (v, [])) := by
  have hline : (13 : UInt8) ∉ List.replicate n 97 := by
    intro h
    have heq := List.eq_of_mem_replicate h
    contradiction
  have hspells : Value.Spells limits limits.maxDepth
      (.simple (Bytes.toTextLossy (List.replicate n 97)))
      (Value.header 43 (List.replicate n 97)) := by
    rw [Value.Spells]
    exact ⟨_, hline, rfl, rfl⟩
  have hparse : Value.parse limits (Value.header 43 (List.replicate n 97) ++ []) = .value _ [] :=
    Value.parseWithin_append_of_spells hspells
  rw [List.append_nil] at hparse
  refine ⟨_, _, ?_, decode_of_value hparse⟩
  simp [Value.header]

/-! ## A frame in chunks -/

theorem drain_frame (hv : Value.parse limits frame = .value v []) :
    drain limits frame = ⟨[v], none, []⟩ := by
  rw [drain_of_value hv, drain_nil]
  rfl

/-- Empty chunks leave a receiver with an empty buffer as it is. -/
theorem feedAll_of_flatten_eq_nil {values : List Value} (h : chunks.flatten = []) :
    feedAll limits ⟨values, none, []⟩ chunks = ⟨values, none, []⟩ := by
  induction chunks with
  | nil => rfl
  | cons chunk chunks ih =>
    rw [List.flatten_cons, List.append_eq_nil_iff] at h
    obtain ⟨rfl, hchunks⟩ := h
    have hfeed : (feed limits [] []).behind values = ⟨values, none, []⟩ := by
      rw [feed, List.append_nil, drain_nil]
      simp [Drained.behind, Drained.empty]
    rw [feedAll, Option.isSome_none, if_neg Bool.false_ne_true, hfeed]
    exact ih hchunks

/-- A receiver that holds the beginning of a frame and gets the next chunk, which does not end it. -/
theorem drain_front (hv : Value.parse limits (front ++ chunks.flatten) = .value v [])
    (hmore : chunks.flatten ≠ []) :
    drain limits front
      = if front.length ≤ limits.maxFrame then ⟨[], none, front⟩
        else ⟨[], some (tooLong limits), front⟩ := by
  have hp := Value.parse_eq_incomplete_of_prefix hv hmore
  split_ifs with hlen
  · exact drain_of_none (decode_of_incomplete hp hlen)
  · exact drain_of_error (decode_of_tooLong hp (Nat.lt_of_not_le hlen))

theorem feedAll_cons (values : List Value) (front chunk : Bytes) (chunks : List Bytes) :
    feedAll limits ⟨values, none, front⟩ (chunk :: chunks)
      = feedAll limits ((drain limits (front ++ chunk)).behind values) chunks := rfl

theorem keepsBound_nil : KeepsBound limits front [] := by
  intro seen more hcut hmore
  obtain ⟨-, rfl⟩ := List.append_eq_nil_iff.mp hcut
  exact absurd rfl hmore

theorem keepsBound_cons_iff (hfront : front.length ≤ limits.maxFrame) :
    KeepsBound limits front (chunk :: chunks) ↔
      (chunks.flatten ≠ [] →
        (front ++ chunk).length ≤ limits.maxFrame ∧ KeepsBound limits (front ++ chunk) chunks) := by
  constructor
  · intro h hmore
    refine ⟨by simpa using h [chunk] chunks rfl hmore, ?_⟩
    intro seen more hcut hmore'
    have hlen := h (chunk :: seen) more (by rw [List.cons_append, hcut]) hmore'
    rwa [List.flatten_cons, ← List.append_assoc] at hlen
  · intro h seen more hcut hmore
    cases seen with
    | nil => simpa using hfront
    | cons first seen =>
      rw [List.cons_append, List.cons.injEq] at hcut
      obtain ⟨rfl, rfl⟩ := hcut
      have hflat : (seen ++ more).flatten ≠ [] := by
        rw [List.flatten_append]
        exact fun hnil => hmore (List.append_eq_nil_iff.mp hnil).2
      have hlen := (h hflat).2 seen more rfl hmore
      rwa [List.append_assoc, ← List.flatten_cons] at hlen

/-- A frame in chunks that keep the bound is taken, whatever its length is. -/
theorem feedAll_frame (hv : Value.parse limits (front ++ chunks.flatten) = .value v [])
    (hmore : chunks.flatten ≠ []) (hfront : front.length ≤ limits.maxFrame)
    (hbound : KeepsBound limits front chunks) :
    feedAll limits ⟨[], none, front⟩ chunks = ⟨[v], none, []⟩ := by
  induction chunks generalizing front with
  | nil => exact absurd rfl hmore
  | cons chunk chunks ih =>
    rw [List.flatten_cons, ← List.append_assoc] at hv
    rw [keepsBound_cons_iff hfront] at hbound
    rw [feedAll_cons]
    by_cases hlast : chunks.flatten = []
    · rw [hlast, List.append_nil] at hv
      rw [drain_frame hv]
      exact feedAll_of_flatten_eq_nil hlast
    · obtain ⟨hlen, hbound⟩ := hbound hlast
      rw [drain_front hv hlast, if_pos hlen]
      exact ih hv hlast hlen hbound

theorem feedAll_of_failure {seen : Drained} (h : seen.failure? ≠ none) (chunks : List Bytes) :
    feedAll limits seen chunks = seen := by
  cases chunks with
  | nil => rfl
  | cons chunk chunks => rw [feedAll, if_pos (Option.isSome_iff_ne_none.mpr h)]

/-- In other chunks it is refused where the first of them ends beyond the bound. -/
theorem feedAll_frame_of_not_keepsBound
    (hv : Value.parse limits (front ++ chunks.flatten) = .value v [])
    (hfront : front.length ≤ limits.maxFrame) (hbound : ¬ KeepsBound limits front chunks) :
    (feedAll limits ⟨[], none, front⟩ chunks).values = [] ∧
      (feedAll limits ⟨[], none, front⟩ chunks).failure? = some (tooLong limits) := by
  induction chunks generalizing front with
  | nil => exact absurd keepsBound_nil hbound
  | cons chunk chunks ih =>
    rw [List.flatten_cons, ← List.append_assoc] at hv
    rw [keepsBound_cons_iff hfront, Classical.not_imp] at hbound
    obtain ⟨hmore, hbound⟩ := hbound
    rw [feedAll_cons, drain_front hv hmore]
    split_ifs with hlen
    · exact ih hv hlen fun hkeeps => hbound ⟨hlen, hkeeps⟩
    · rw [feedAll_of_failure (Option.some_ne_none _)]
      exact ⟨rfl, rfl⟩

/-- A frame is taken in any chunks if it exceeds the bound by one byte at most: as long as it is not
whole, it keeps to the bound. -/
theorem keepsBound_of_length_le (h : frame.length ≤ limits.maxFrame + 1)
    (hchunks : chunks.flatten = frame) : KeepsBound limits [] chunks := by
  intro seen more hcut hmore
  have hpos := List.length_pos_iff.mpr hmore
  have hlength := congrArg List.length hchunks
  rw [← hcut, List.flatten_append, List.length_append] at hlength
  rw [List.nil_append]
  omega

/-- Of a longer frame the last byte may come by itself. -/
theorem not_keepsBound_of_length_lt (h : limits.maxFrame + 1 < frame.length) :
    ∃ chunks : List Bytes, chunks.flatten = frame ∧ ¬ KeepsBound limits [] chunks := by
  have hne : frame ≠ [] := List.ne_nil_of_length_pos (by omega)
  refine ⟨[frame.dropLast, [frame.getLast hne]], ?_, fun hkeeps => ?_⟩
  · simpa using List.dropLast_append_getLast hne
  · have hlen := hkeeps [frame.dropLast] [[frame.getLast hne]] rfl (by simp)
    simp only [List.nil_append, List.flatten_cons, List.flatten_nil, List.append_nil,
      List.length_dropLast] at hlen
    omega

/-- What a receiver takes off its buffer is not bounded; what it keeps while it waits is. A frame is
taken or refused according to the chunks in which it arrives, and it is taken in any chunks exactly
if it exceeds the bound by one byte at most. -/
theorem frame_taken_iff (limits : Limits) :
    (∀ n, ∃ frame v, n < frame.length ∧ decode limits frame = .ok (some (v, []))) ∧
    (∀ buffer, decode limits buffer = .ok none → buffer.length ≤ limits.maxFrame) ∧
    ∀ frame v, Value.parse limits frame = .value v [] →
      (∀ chunks, chunks.flatten = frame → KeepsBound limits [] chunks →
        feedAll limits .empty chunks = ⟨[v], none, []⟩) ∧
      (∀ chunks, chunks.flatten = frame → ¬ KeepsBound limits [] chunks →
        (feedAll limits .empty chunks).values = [] ∧
          (feedAll limits .empty chunks).failure? = some (tooLong limits)) ∧
      ((∀ chunks, chunks.flatten = frame → feedAll limits .empty chunks = ⟨[v], none, []⟩) ↔
        frame.length ≤ limits.maxFrame + 1) := by
  refine ⟨exists_frame_length_lt limits, fun _ => length_le_of_decode_none, fun frame v hv => ?_⟩
  have hne : frame ≠ [] := by
    rintro rfl
    have hprogress := Value.length_lt_of_parse hv
    contradiction
  have hnil : ([] : Bytes).length ≤ limits.maxFrame := Nat.zero_le _
  have htaken : ∀ chunks, chunks.flatten = frame → KeepsBound limits [] chunks →
      feedAll limits .empty chunks = ⟨[v], none, []⟩ := by
    rintro chunks rfl hkeeps
    exact feedAll_frame hv hne hnil hkeeps
  have hrefused : ∀ chunks, chunks.flatten = frame → ¬ KeepsBound limits [] chunks →
      (feedAll limits .empty chunks).values = [] ∧
        (feedAll limits .empty chunks).failure? = some (tooLong limits) := by
    rintro chunks rfl hkeeps
    exact feedAll_frame_of_not_keepsBound hv hnil hkeeps
  refine ⟨htaken, hrefused, fun hall => ?_, fun hlen chunks hchunks => ?_⟩
  · by_contra hlen
    obtain ⟨chunks, hchunks, hkeeps⟩ := not_keepsBound_of_length_lt (Nat.lt_of_not_le hlen)
    have hvalues := (hrefused chunks hchunks hkeeps).1
    rw [hall chunks hchunks] at hvalues
    cases hvalues
  · exact htaken chunks hchunks (keepsBound_of_length_le hlen hchunks)

/-- Bounds as for requests, but with sixteen bytes for a frame. -/
def narrow : Limits := { Limits.request with maxFrame := 16 }

/-- A frame of twenty-one bytes is taken at once, and refused in two chunks. -/
theorem frame_taken_iff_narrow :
    feedAll narrow .empty [.ofText "+abcdefghijklmnopqr\r\n"]
        = ⟨[.simple "abcdefghijklmnopqr"], none, []⟩ ∧
      (feedAll narrow .empty [.ofText "+abcdefghijklmnopqr", .ofText "\r\n"]).failure?
        = some (tooLong narrow) := by
  have hv : Value.parse narrow (.ofText "+abcdefghijklmnopqr\r\n")
      = .value (.simple "abcdefghijklmnopqr") [] := rfl
  obtain ⟨htaken, hrefused, -⟩ := (frame_taken_iff narrow).2.2 _ _ hv
  refine ⟨htaken _ rfl ?_, (hrefused _ rfl ?_).2⟩
  · rw [keepsBound_cons_iff (Nat.zero_le _)]
    intro hmore
    exact absurd rfl hmore
  · intro hkeeps
    have hlen := hkeeps [.ofText "+abcdefghijklmnopqr"] [.ofText "\r\n"] rfl (by decide)
    revert hlen
    decide

end Telemetry.Resp.Codec
