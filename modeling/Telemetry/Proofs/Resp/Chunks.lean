import Telemetry.Proofs.Resp.Incremental
import Mathlib

/-!
# Streams that arrive in chunks

A receiver takes whole values off its buffer whenever a chunk has arrived. Where the chunks are cut
makes no difference, as long as nothing that stays incomplete exceeds the bound on frames: draining
a buffer and then what is left with more behind it is draining both at once (`Codec.drain_append`).

## Main definitions

* `Codec.feedAll`: chunks fed one after the other, up to the first failure.
* `Codec.NeverCutOff`: no beginning of a stream leaves a receiver with too many bytes that make no
  value.
-/
namespace Telemetry.Resp.Codec

variable {limits : Limits} {buffer more : Bytes}

/-! ## Single values -/

theorem decode_of_value {v : Value} {rest : Bytes} (h : Value.parse limits buffer = .value v rest) :
    decode limits buffer = .ok (some (v, rest)) := by rw [decode, h]

theorem decode_of_invalid {fault : Fault} (h : Value.parse limits buffer = .invalid fault) :
    decode limits buffer = .error (.transport fault.message) := by rw [decode, h]

theorem decode_of_incomplete (h : Value.parse limits buffer = .incomplete)
    (hlen : buffer.length ≤ limits.maxFrame) : decode limits buffer = .ok none := by
  rw [decode, h]
  simp only [if_neg (Nat.not_lt.mpr hlen)]

theorem parse_of_decode {v : Value} {rest : Bytes}
    (h : decode limits buffer = .ok (some (v, rest))) :
    Value.parse limits buffer = .value v rest := by
  unfold decode at h
  split at h
  · rename_i hp
    cases h
    exact hp
  · split at h <;> cases h
  · cases h

/-! ## Draining -/

/-- What was drained, behind values that were taken off before. -/
def Drained.behind (values : List Value) (d : Drained) : Drained :=
  { d with values := values ++ d.values }

theorem drainBehind_of_value {seen : List Value} {v : Value} {rest : Bytes}
    (h : Value.parse limits buffer = .value v rest) :
    drainBehind limits seen buffer = drainBehind limits (v :: seen) rest := by
  have hd := decode_of_value h
  rw [drainBehind]
  split
  · cases hd.symm.trans ‹_›
    rfl
  · cases hd.symm.trans ‹_›
  · cases hd.symm.trans ‹_›

theorem drainBehind_of_none {seen : List Value} (h : decode limits buffer = .ok none) :
    drainBehind limits seen buffer = ⟨seen.reverse, none, buffer⟩ := by
  rw [drainBehind]
  split
  · cases h.symm.trans ‹_›
  · rfl
  · cases h.symm.trans ‹_›

theorem drainBehind_of_error {seen : List Value} {failure : Failure}
    (h : decode limits buffer = .error failure) :
    drainBehind limits seen buffer = ⟨seen.reverse, some failure, buffer⟩ := by
  rw [drainBehind]
  split
  · cases h.symm.trans ‹_›
  · cases h.symm.trans ‹_›
  · cases h.symm.trans ‹_›
    rfl

theorem drain_of_none (h : decode limits buffer = .ok none) :
    drain limits buffer = ⟨[], none, buffer⟩ := drainBehind_of_none h

theorem drain_of_error {failure : Failure} (h : decode limits buffer = .error failure) :
    drain limits buffer = ⟨[], some failure, buffer⟩ := drainBehind_of_error h

theorem drainBehind_eq (seen : List Value) (buffer : Bytes) :
    drainBehind limits seen buffer = (drain limits buffer).behind seen.reverse := by
  induction hn : buffer.length using Nat.strong_induction_on generalizing seen buffer with
  | _ n ih =>
  cases hd : decode limits buffer with
  | error failure => rw [drainBehind_of_error hd, drain_of_error hd]; simp [Drained.behind]
  | ok o =>
    cases o with
    | none => rw [drainBehind_of_none hd, drain_of_none hd]; simp [Drained.behind]
    | some p =>
      obtain ⟨v, rest⟩ := p
      have hp := parse_of_decode hd
      have hlt : rest.length < n := hn ▸ length_lt_of_decode hd
      rw [drain, drainBehind_of_value hp, drainBehind_of_value hp, ih _ hlt (v :: seen) rest rfl,
        ih _ hlt [v] rest rfl]
      simp [Drained.behind]

theorem drain_of_value {v : Value} {rest : Bytes} (h : Value.parse limits buffer = .value v rest) :
    drain limits buffer = (drain limits rest).behind [v] := by
  rw [drain, drainBehind_of_value h, drainBehind_eq]
  rfl

/-- Draining stops where no value can be taken off, and tells why. -/
theorem decode_rest_drain (limits : Limits) (buffer : Bytes) :
    decode limits (drain limits buffer).rest
      = match (drain limits buffer).failure? with
        | none => .ok none
        | some failure => .error failure := by
  induction hn : buffer.length using Nat.strong_induction_on generalizing buffer with
  | _ n ih =>
  cases hd : decode limits buffer with
  | error failure => rw [drain_of_error hd]; exact hd
  | ok o =>
    cases o with
    | none => rw [drain_of_none hd]; exact hd
    | some p =>
      obtain ⟨v, rest⟩ := p
      rw [drain_of_value (parse_of_decode hd)]
      exact ih _ (hn ▸ length_lt_of_decode hd) rest rfl

/-- Draining a buffer, and then what it leaves with more behind it, is draining both at once. -/
theorem drain_append (h : (drain limits buffer).failure? = none) (more : Bytes) :
    drain limits (buffer ++ more)
      = (drain limits ((drain limits buffer).rest ++ more)).behind
          (drain limits buffer).values := by
  induction hn : buffer.length using Nat.strong_induction_on generalizing buffer with
  | _ n ih =>
  cases hd : decode limits buffer with
  | error failure => rw [drain_of_error hd] at h; cases h
  | ok o =>
    cases o with
    | none => rw [drain_of_none hd]; simp [Drained.behind]
    | some p =>
      obtain ⟨v, rest⟩ := p
      have hp := parse_of_decode hd
      rw [drain_of_value hp] at h ⊢
      rw [drain_of_value (Value.parse_append_of_value hp more),
        ih _ (hn ▸ length_lt_of_decode hd) h rfl]
      simp [Drained.behind]

/-- A fault ends a stream for good: more bytes change neither the values before it nor the failure.
-/
theorem drain_append_of_invalid {fault : Fault}
    (h : Value.parse limits (drain limits buffer).rest = .invalid fault) (more : Bytes) :
    (drain limits (buffer ++ more)).values = (drain limits buffer).values ∧
      (drain limits (buffer ++ more)).failure? = (drain limits buffer).failure? := by
  induction hn : buffer.length using Nat.strong_induction_on generalizing buffer with
  | _ n ih =>
  cases hp : Value.parse limits buffer with
  | incomplete =>
    have hrest : (drain limits buffer).rest = buffer := by
      cases hd : decode limits buffer with
      | error failure => rw [drain_of_error hd]
      | ok o =>
        cases o with
        | none => rw [drain_of_none hd]
        | some p => rw [parse_of_decode hd] at hp; cases hp
    rw [hrest, hp] at h
    cases h
  | invalid fault' =>
    have hmore := Value.parse_append_of_invalid hp more
    rw [drain_of_error (decode_of_invalid hp), drain_of_error (decode_of_invalid hmore)]
    exact ⟨rfl, rfl⟩
  | value v rest =>
    have hlt : rest.length < n := hn ▸ Value.length_lt_of_parse hp
    rw [drain_of_value hp] at h ⊢
    rw [drain_of_value (Value.parse_append_of_value hp more)]
    obtain ⟨hvalues, hfailure⟩ := ih _ hlt h rfl
    exact ⟨congrArg ([v] ++ ·) hvalues, hfailure⟩

/-! ## Chunks -/

/-- Feeds chunks one after the other, up to the first failure, behind what was drained before. -/
def feedAll (limits : Limits) (seen : Drained) : List Bytes → Drained
  | [] => seen
  | chunk :: chunks =>
    if seen.failure?.isSome then seen
    else feedAll limits ((feed limits seen.rest chunk).behind seen.values) chunks

/-- What is drained of a buffer that is empty still. -/
def Drained.empty : Drained := ⟨[], none, []⟩

theorem drain_nil (limits : Limits) : drain limits [] = .empty :=
  drain_of_none (decode_of_incomplete Value.parseWithin_nil (Nat.zero_le _))

/-- Whether whatever a beginning of the stream leaves undecided keeps to the bound on frames. -/
def NeverCutOff (limits : Limits) (stream : Bytes) : Prop :=
  ∀ buffer more, stream = buffer ++ more →
    Value.parse limits (drain limits buffer).rest = .incomplete →
      (drain limits buffer).rest.length ≤ limits.maxFrame

theorem exists_invalid_of_failure {failure : Failure}
    (hcut : Value.parse limits (drain limits buffer).rest = .incomplete →
      (drain limits buffer).rest.length ≤ limits.maxFrame)
    (h : (drain limits buffer).failure? = some failure) :
    ∃ fault, Value.parse limits (drain limits buffer).rest = .invalid fault := by
  have hdecode := decode_rest_drain limits buffer
  rw [h] at hdecode
  cases hp : Value.parse limits (drain limits buffer).rest with
  | invalid fault => exact ⟨fault, rfl⟩
  | incomplete => rw [decode_of_incomplete hp (hcut hp)] at hdecode; cases hdecode
  | value v rest => rw [decode_of_value hp] at hdecode; cases hdecode

/-- What was fed in chunks and what was fed at once agree in the values and the failure, and without
a failure in what is left. -/
def Drained.Agrees (d e : Drained) : Prop :=
  d.values = e.values ∧ d.failure? = e.failure? ∧ (e.failure? = none → d.rest = e.rest)

theorem feedAll_agrees {chunks : List Bytes} (h : NeverCutOff limits (buffer ++ chunks.flatten)) :
    (feedAll limits (drain limits buffer) chunks).Agrees
      (drain limits (buffer ++ chunks.flatten)) := by
  -- the invariant: what was drained so far is what the stream so far drains to
  induction chunks generalizing buffer with
  | nil => rw [List.flatten_nil, List.append_nil]; exact ⟨rfl, rfl, fun _ => rfl⟩
  | cons chunk chunks ih =>
    rw [List.flatten_cons, feedAll]
    cases hf : (drain limits buffer).failure? with
    | none =>
      rw [Option.isSome_none, if_neg Bool.false_ne_true, feed, ← drain_append hf,
        ← List.append_assoc]
      rw [List.flatten_cons, ← List.append_assoc] at h
      exact ih h
    | some failure =>
      obtain ⟨fault, hp⟩ := exists_invalid_of_failure (h _ _ rfl) hf
      obtain ⟨hvalues, hfailure⟩ := drain_append_of_invalid hp (chunk ++ chunks.flatten)
      rw [Option.isSome_some, if_pos rfl]
      refine ⟨hvalues.symm, hfailure.symm, fun hnone => ?_⟩
      rw [hfailure, hf] at hnone
      cases hnone

/-! ## Frames and a tail -/

/-- Whether bytes are one whole value that keeps to the bound on frames. -/
def IsFrame (limits : Limits) (bytes : Bytes) : Prop :=
  (∃ v, Value.parse limits bytes = .value v []) ∧ bytes.length ≤ limits.maxFrame

/-- Whether bytes hold no whole value, and keep to the bound on frames. -/
def IsTail (limits : Limits) (bytes : Bytes) : Prop :=
  (∀ v rest, Value.parse limits bytes ≠ .value v rest) ∧ bytes.length ≤ limits.maxFrame

theorem rest_drain_of_not_value (h : ∀ v rest, Value.parse limits buffer ≠ .value v rest) :
    (drain limits buffer).rest = buffer := by
  cases hd : decode limits buffer with
  | error failure => rw [drain_of_error hd]
  | ok o =>
    cases o with
    | none => rw [drain_of_none hd]
    | some p => exact absurd (parse_of_decode hd) (h _ _)

theorem neverCutOff_of_isTail {tail : Bytes} (h : IsTail limits tail) :
    NeverCutOff limits tail := by
  rintro buffer more rfl -
  have hno : ∀ v rest, Value.parse limits buffer ≠ .value v rest := fun v rest hp =>
    h.1 v (rest ++ more) (Value.parse_append_of_value hp more)
  rw [rest_drain_of_not_value hno]
  exact le_trans (by simp) h.2

theorem neverCutOff_append {frame stream : Bytes} (hf : IsFrame limits frame)
    (hs : NeverCutOff limits stream) : NeverCutOff limits (frame ++ stream) := by
  intro buffer more hsplit hinc
  obtain ⟨⟨v, hv⟩, hlen⟩ := hf
  -- the beginning ends inside the frame, or it holds the frame and a beginning of the rest
  rcases List.append_eq_append_iff.mp hsplit with ⟨tail, rfl, rfl⟩ | ⟨tail, rfl, rfl⟩
  · have hp : Value.parse limits (frame ++ tail) = .value v tail := by
      simpa using Value.parse_append_of_value hv tail
    rw [drain_of_value hp] at hinc ⊢
    exact hs tail more rfl hinc
  · by_cases ht : tail = []
    · subst ht
      rw [List.append_nil] at hv hlen
      rw [drain_of_value hv] at hinc ⊢
      exact hs [] stream rfl hinc
    · have hp := Value.parse_eq_incomplete_of_prefix hv ht
      rw [rest_drain_of_not_value fun v rest h => by rw [hp] at h; cases h]
      exact le_trans (by simp) hlen

theorem neverCutOff_flatten_append {frames : List Bytes} {tail : Bytes}
    (hf : ∀ frame ∈ frames, IsFrame limits frame) (ht : IsTail limits tail) :
    NeverCutOff limits (frames.flatten ++ tail) := by
  induction frames with
  | nil => exact neverCutOff_of_isTail ht
  | cons frame frames ih =>
    rw [List.flatten_cons, List.append_assoc]
    exact neverCutOff_append (hf frame (List.mem_cons_self ..))
      (ih fun g hg => hf g (List.mem_cons_of_mem _ hg))

/-- Draining takes the frames off one by one. -/
theorem drain_flatten_append {frames : List Bytes} {values : List Value}
    (h : List.Forall₂ (fun frame v => Value.parse limits frame = .value v []) frames values)
    (tail : Bytes) :
    drain limits (frames.flatten ++ tail) = (drain limits tail).behind values := by
  induction h with
  | nil => rfl
  | @cons frame v frames values hv hs ih =>
    have hp : Value.parse limits (frame ++ (frames.flatten ++ tail))
        = .value v (frames.flatten ++ tail) := Value.parse_append_of_value hv _
    rw [List.flatten_cons, List.append_assoc, drain_of_value hp, ih]
    simp [Drained.behind]

theorem exists_values {frames : List Bytes} (h : ∀ frame ∈ frames, IsFrame limits frame) :
    ∃ values,
      List.Forall₂ (fun frame v => Value.parse limits frame = .value v []) frames values := by
  induction frames with
  | nil => exact ⟨[], .nil⟩
  | cons frame frames ih =>
    obtain ⟨v, hv⟩ := (h frame (List.mem_cons_self ..)).1
    obtain ⟨values, hvalues⟩ := ih fun g hg => h g (List.mem_cons_of_mem _ hg)
    exact ⟨v :: values, .cons hv hvalues⟩

theorem suffix_of_decode {v : Value} {rest : Bytes}
    (h : decode limits buffer = .ok (some (v, rest))) : rest <:+ buffer := by
  obtain ⟨used, -, rfl⟩ := Value.parse_eq_value_iff.mp (parse_of_decode h)
  exact List.suffix_append used rest

/-- However a stream of frames and a tail is cut into chunks, feeding them one by one yields what
feeding the stream at once does: the values of the frames, the failure of the tail, and the tail
itself if there is no failure. A value takes at least one byte off the buffer, and everything else
leaves the buffer as it is. -/
theorem feedAll_agrees_feed {frames chunks : List Bytes} {tail : Bytes}
    (hframes : ∀ frame ∈ frames, IsFrame limits frame) (htail : IsTail limits tail)
    (hcut : chunks.flatten = frames.flatten ++ tail) :
    ((feedAll limits .empty chunks).Agrees (feed limits [] (frames.flatten ++ tail)) ∧
      List.Forall₂ (fun frame v => Value.parse limits frame = .value v []) frames
        (feedAll limits .empty chunks).values ∧
      (feed limits [] (frames.flatten ++ tail)).rest = tail) ∧
    ∀ buffer,
      (∀ v rest, decode limits buffer = .ok (some (v, rest)) →
        rest <:+ buffer ∧ rest.length < buffer.length) ∧
      (decode limits buffer = .ok none → drain limits buffer = ⟨[], none, buffer⟩) ∧
      ∀ failure, decode limits buffer = .error failure →
        drain limits buffer = ⟨[], some failure, buffer⟩ := by
  have hagrees : (feedAll limits .empty chunks).Agrees
      (drain limits (frames.flatten ++ tail)) := by
    have h := neverCutOff_flatten_append hframes htail
    rw [← hcut] at h ⊢
    rw [← drain_nil]
    exact @feedAll_agrees limits [] chunks h
  obtain ⟨values, hvalues⟩ := exists_values hframes
  have hdrain := drain_flatten_append hvalues tail
  have hnone : (drain limits tail).values = [] := by
    cases hd : decode limits tail with
    | error failure => rw [drain_of_error hd]
    | ok o =>
      cases o with
      | none => rw [drain_of_none hd]
      | some p => exact absurd (parse_of_decode hd) (htail.1 _ _)
  refine ⟨⟨hagrees, ?_, ?_⟩,
    fun buffer => ⟨fun v rest hd => ?_, drain_of_none, fun _ => drain_of_error⟩⟩
  · rw [hagrees.1, hdrain]
    simpa [Drained.behind, hnone] using hvalues
  · rw [feed, List.nil_append, hdrain]
    exact rest_drain_of_not_value htail.1
  · exact ⟨suffix_of_decode hd, length_lt_of_decode hd⟩

/-- Cuts inside a header, between the two bytes of a line end, inside a byte string and between the
elements of an array, in front of a byte string whose length is no number. -/
theorem feedAll_agrees_feed_cut :
    (feedAll .request .empty
        (["*2\r", "\n$2\r\n\r", "\n\r\n", ":1\r\n:7", "\r\n$x\r", "\n"].map .ofText)).Agrees
      (feed .request [] ((["*2\r\n$2\r\n\r\n\r\n:1\r\n", ":7\r\n"].map Bytes.ofText).flatten
        ++ .ofText "$x\r\n")) := by
  have hframes : ∀ frame ∈ ["*2\r\n$2\r\n\r\n\r\n:1\r\n", ":7\r\n"].map Bytes.ofText,
      IsFrame .request frame := by
    intro frame hm
    rcases List.mem_pair.mp hm with rfl | rfl
    · exact ⟨⟨.array [.bulk [13, 10], .integer 1], rfl⟩, by decide⟩
    · exact ⟨⟨.integer 7, rfl⟩, by decide⟩
  have htail : IsTail .request (.ofText "$x\r\n") := by
    refine ⟨fun v rest h => ?_, by decide⟩
    have hp : Value.parse .request (.ofText "$x\r\n") = .invalid (.notNumber .notDigit) := rfl
    rw [hp] at h
    cases h
  exact (feedAll_agrees_feed hframes htail (by decide)).1.1

end Telemetry.Resp.Codec
