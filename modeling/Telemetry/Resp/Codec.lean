import Telemetry.Failure
import Telemetry.Resp.Parser

/-!
# Frames of a byte stream

A receiver appends what arrives to a buffer and takes whole values off its front. Bytes that cannot
become a value, or that stay incomplete beyond the bound on frames, are a transport failure; the
buffer is then left as it is.
-/
namespace Telemetry.Resp.Codec

/-- What the front of a buffer holds: a whole value and what is behind it, or none yet. -/
def decode (limits : Limits) (buffer : Bytes) : Except Failure (Option (Value × Bytes)) :=
  match Value.parse limits buffer with
  | .value v rest => .ok (some (v, rest))
  | .incomplete =>
    if limits.maxFrame < buffer.length then
      .error (.transport ("frame exceeds " ++ toString limits.maxFrame ++ " bytes"))
    else .ok none
  | .invalid fault => .error (.transport fault.message)

theorem length_lt_of_decode {limits : Limits} {buffer rest : Bytes} {v : Value}
    (h : decode limits buffer = .ok (some (v, rest))) : rest.length < buffer.length := by
  unfold decode at h
  split at h
  · rename_i hp
    cases h
    exact Value.length_lt_of_parse hp
  · split at h <;> cases h
  · cases h

/-- What a buffer was taken apart into. -/
structure Drained where
  /-- The whole values, in the order of arrival. -/
  values : List Value
  /-- What is wrong with the bytes behind them, if anything. -/
  failure? : Option Failure
  /-- The bytes that are left. -/
  rest : Bytes

/-- Takes values off the front of a buffer until no whole one is left, behind values that were taken
off before and are given in reverse. -/
def drainBehind (limits : Limits) (seen : List Value) (buffer : Bytes) : Drained :=
  match _h : decode limits buffer with
  | .ok (some (v, rest)) => drainBehind limits (v :: seen) rest
  | .ok none => ⟨seen.reverse, none, buffer⟩
  | .error failure => ⟨seen.reverse, some failure, buffer⟩
termination_by buffer.length
decreasing_by exact length_lt_of_decode ‹_›

/-- Takes all whole values off the front of a buffer. -/
def drain (limits : Limits) (buffer : Bytes) : Drained := drainBehind limits [] buffer

/-- Appends a chunk to what is left of earlier ones and takes off the whole values. -/
def feed (limits : Limits) (buffer chunk : Bytes) : Drained := drain limits (buffer ++ chunk)

end Telemetry.Resp.Codec
