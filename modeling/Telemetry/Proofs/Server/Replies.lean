import Telemetry.Proofs.Protocol.Frames
import Telemetry.Proofs.Protocol.Requests
import Telemetry.Proofs.Provider.Answers
import Telemetry.Proofs.Resp.Faults
import Telemetry.Server.Session
import Mathlib

/-!
# What a connection carries back

A session writes the frames for every request that it decodes and one rejection if the stream goes
wrong. A rejection repeats words of the request without a bound on what they hold, and it is a line:
one carriage return in such a word, or in the place of a type, and the stream of replies is not read
back. Nothing else can do that.

## Main definitions

* `Session.replies`: all that a session answers.
* `readFrames`: what the client makes of the bytes.

## Main statements

* `Session.replies_eq`: the frames for the decoded requests, then at most one rejection.
* `readFrames_encodeFrames_iff`: which frames are read back.
* `Session.readFrames_replies_iff`: which streams of requests have replies that are read back.
-/
namespace Telemetry

open Resp (Value Limits)
open Resp.Codec (Drained drain feedAll)

/-! ## Reading frames -/

/-- The frames that some bytes hold, if they hold frames and nothing else. -/
def readFrames (bytes : Bytes) : Option (List Frame) :=
  let drained := drain .peer bytes
  if drained.failure?.isNone && drained.rest.isEmpty then
    (drained.values.mapM Frame.ofValue).toOption
  else none

variable {frames : List Frame}

/-- Whether a frame can be written for a peer. -/
def Frame.IsWritable (f : Frame) : Prop := f.KeepsBounds ∧ f.IsNamed

theorem Resp.Codec.drain_encodeFrames (hw : ∀ f ∈ frames, f.IsWritable)
    (hl : ∀ f ∈ frames, f.IsOneLine) (rest : Bytes) :
    drain .peer (encodeFrames frames ++ rest)
      = (drain .peer rest).behind (frames.map Frame.toValue) := by
  induction frames with
  | nil => rfl
  | cons f frames ih =>
    obtain ⟨hb, hn⟩ := hw f (List.mem_cons_self ..)
    have hf := hl f (List.mem_cons_self ..)
    have hp := Frame.parse_toValue hb hn hf (encodeFrames frames ++ rest)
    have hcons : encodeFrames (f :: frames) = f.toValue.encode ++ encodeFrames frames := rfl
    rw [hcons, List.append_assoc, drain_of_value hp,
      ih (fun g hg => hw g (List.mem_cons_of_mem _ hg)) fun g hg =>
        hl g (List.mem_cons_of_mem _ hg)]
    simp [Drained.behind]

theorem mapM_ofValue_map_toValue (frames : List Frame) :
    (frames.map Frame.toValue).mapM Frame.ofValue = .ok frames := by
  induction frames with
  | nil => rfl
  | cons f frames ih =>
    rw [List.map_cons, List.mapM_cons, Frame.ofValue_toValue, ih]
    rfl

/-- Everything that is taken off a buffer keeps to the bounds. -/
theorem Resp.Codec.admits_of_mem_drain {limits : Limits} {buffer : Bytes} {v : Value}
    (h : v ∈ (drain limits buffer).values) : limits.Admits v := by
  induction hn : buffer.length using Nat.strong_induction_on generalizing buffer with
  | _ n ih =>
  cases hd : decode limits buffer with
  | error failure => rw [drain_of_error hd] at h; cases h
  | ok o =>
    cases o with
    | none => rw [drain_of_none hd] at h; cases h
    | some p =>
      obtain ⟨w, rest⟩ := p
      have hp := parse_of_decode hd
      rw [drain_of_value hp] at h
      rcases List.mem_cons.mp h with rfl | h
      · obtain ⟨used, hs, -⟩ := Value.parse_eq_value_iff.mp hp
        exact (Value.admits_of_spells hs).1
      · exact ih _ (hn ▸ length_lt_of_decode hd) h rfl

theorem exists_ofValue_of_mapM {values : List Value} (h : values.mapM Frame.ofValue = .ok frames) :
    ∀ f ∈ frames, ∃ v ∈ values, Frame.ofValue v = .ok f := by
  induction values generalizing frames with
  | nil => cases h; intro f hf; cases hf
  | cons v values ih =>
    simp only [List.mapM_cons, Failure.bind_eq_ok_iff] at h
    obtain ⟨g, hg, more, hmore, h⟩ := h
    cases h
    intro f hf
    rcases List.mem_cons.mp hf with rfl | hf
    · exact ⟨v, List.mem_cons_self .., hg⟩
    · obtain ⟨w, hw, hfw⟩ := ih hmore f hf
      exact ⟨w, List.mem_cons_of_mem _ hw, hfw⟩

/-- Frames are read back from their bytes, in order and with nothing between them, if and only if
every message is on one line. -/
theorem readFrames_encodeFrames_iff (hw : ∀ f ∈ frames, f.IsWritable) :
    readFrames (encodeFrames frames) = some frames ↔ ∀ f ∈ frames, f.IsOneLine := by
  constructor
  · intro h f hf
    unfold readFrames at h
    simp only at h
    split at h
    · obtain ⟨values, hvalues⟩ : ∃ vs, vs = (drain .peer (encodeFrames frames)).values := ⟨_, rfl⟩
      rw [← hvalues] at h
      have hmap : values.mapM Frame.ofValue = .ok frames := by
        cases hm : values.mapM Frame.ofValue with
        | error failure => rw [hm] at h; cases h
        | ok more => rw [hm] at h; cases h; rfl
      obtain ⟨v, hv, hfv⟩ := exists_ofValue_of_mapM hmap f hf
      rw [hvalues] at hv
      exact Frame.isOneLine_of_ofValue (Resp.Codec.admits_of_mem_drain hv) hfv
    · cases h
  · intro hl
    have hd := Resp.Codec.drain_encodeFrames hw hl []
    rw [List.append_nil, Resp.Codec.drain_nil] at hd
    unfold readFrames
    rw [hd]
    simp only [Drained.behind, Drained.empty, Option.isNone_none, List.isEmpty_nil, Bool.and_self,
      if_true, List.append_nil, mapM_ofValue_map_toValue]
    rfl

/-! ## Sessions -/

namespace Session

variable {lookup : UInt16 → Option Provider} {chunks : List Bytes} {v : Value} {f : Frame}

/-- What a session answers to chunks that come in one by one, and the session after them. -/
def answers (lookup : UInt16 → Option Provider) (s : Session) : List Bytes → List Frame × Session
  | [] => ([], s)
  | chunk :: chunks =>
    let (frames, s) := s.feed lookup chunk
    let (more, s) := s.answers lookup chunks
    (frames ++ more, s)

/-- All that a session answers to chunks, and to the end of the stream if the client stops there. -/
def replies (lookup : UInt16 → Option Provider) (chunks : List Bytes) (stops : Bool) : List Frame :=
  let (frames, s) := answers lookup {} chunks
  frames ++ if stops then s.finish else []

/-- The session in which some bytes were drained. -/
def ofDrained (d : Drained) : Session := { inbox := d.rest, ended := d.failure?.isSome }

/-- What a session answers to what was drained. -/
def framesOf (lookup : UInt16 → Option Provider) (d : Drained) : List Frame :=
  d.values.flatMap (answerValue lookup) ++ (d.failure?.map rejection).toList

/-- What is wrong with a stream, if anything: bytes that cannot be a request, or an end inside one.
-/
def streamFailure? (d : Drained) (stops : Bool) : Option Failure :=
  d.failure?.or (if stops && !d.rest.isEmpty then some (.io "bytes remaining on stream") else none)

theorem feed_ofDrained {d : Drained} (h : d.failure? = none) (chunk : Bytes) :
    (ofDrained d).feed lookup chunk
      = (framesOf lookup (Resp.Codec.feed .request d.rest chunk),
        ofDrained (Resp.Codec.feed .request d.rest chunk)) := by
  have hended : (ofDrained d).ended = false := by rw [ofDrained, h]; rfl
  rw [Session.feed, hended]
  rfl

theorem answers_of_ended {s : Session} (h : s.ended = true) (chunks : List Bytes) :
    s.answers lookup chunks = ([], s) := by
  induction chunks with
  | nil => rfl
  | cons chunk chunks ih =>
    have hfeed : s.feed lookup chunk = ([], s) := by rw [Session.feed, h]; rfl
    rw [answers, hfeed]
    simp only [ih, List.nil_append]

/-- The invariant of a session: what it answered so far are the frames for what was drained. -/
theorem answers_ofDrained (d : Drained) (chunks : List Bytes) :
    framesOf lookup d ++ ((ofDrained d).answers lookup chunks).1
        = framesOf lookup (feedAll .request d chunks) ∧
      ((ofDrained d).answers lookup chunks).2 = ofDrained (feedAll .request d chunks) := by
  induction chunks generalizing d with
  | nil => exact ⟨List.append_nil _, rfl⟩
  | cons chunk chunks ih =>
    rw [feedAll]
    cases hf : d.failure? with
    | some failure =>
      have hended : (ofDrained d).ended = true := by rw [ofDrained, hf]; rfl
      rw [answers_of_ended hended]
      exact ⟨List.append_nil _, rfl⟩
    | none =>
      obtain ⟨hframes, hsession⟩ := ih ((Resp.Codec.feed .request d.rest chunk).behind d.values)
      rw [answers, feed_ofDrained hf]
      refine ⟨?_, hsession⟩
      rw [if_neg (by decide), ← hframes]
      simp [framesOf, Drained.behind, hf, ofDrained]

/-- A session answers every request that it decodes, in order, and then rejects what is wrong with
the stream, if anything is. -/
theorem replies_eq (lookup : UInt16 → Option Provider) (chunks : List Bytes) (stops : Bool) :
    replies lookup chunks stops
      = (feedAll .request .empty chunks).values.flatMap (answerValue lookup)
        ++ ((streamFailure? (feedAll .request .empty chunks) stops).map rejection).toList := by
  obtain ⟨hframes, hsession⟩ := @answers_ofDrained lookup .empty chunks
  have hstart : ({} : Session) = ofDrained .empty := rfl
  rw [replies, hstart]
  simp only [hsession]
  rw [show framesOf lookup Drained.empty = [] from rfl, List.nil_append] at hframes
  rw [hframes, framesOf, List.append_assoc, List.append_cancel_left_eq]
  rcases feedAll .request .empty chunks with ⟨values, failure?, rest⟩
  cases failure? <;> cases stops <;> cases rest <;> rfl

/-! ## What the frames hold -/

/-- The names in all that a session answers are those of registered metrics. -/
theorem isNamed_of_mem_replies (hnamed : ∀ number p, lookup number = some p → p.IsNamed)
    {stops : Bool} (hf : f ∈ replies lookup chunks stops) : f.IsNamed := by
  rw [replies_eq, List.mem_append, List.mem_flatMap] at hf
  rcases hf with ⟨v, -, hf⟩ | hf
  · unfold answerValue at hf
    split at hf
    · exact Request.isNamed_of_mem_answer hnamed hf
    · rw [List.mem_singleton.mp hf]
      trivial
  · obtain ⟨failure, -, rfl⟩ : ∃ failure, _ ∧ rejection failure = f := by simpa using hf
    trivial

/-- An answer stays on its lines if and only if the value is a request, or its refusal repeats no
carriage return. -/
theorem isOneLine_answerValue_iff :
    (∀ f ∈ answerValue lookup v, f.IsOneLine) ↔
      ∀ failure text, Request.ofValue v = .error failure → Request.Repeated text failure →
        Text.IsOneLine text := by
  unfold answerValue
  cases hv : Request.ofValue v with
  | ok r =>
    exact iff_of_true (fun f hf => Request.isOneLine_of_mem_answer hf) nofun
  | error failure =>
    simp only [List.mem_singleton, forall_eq]
    refine (Request.isOneLine_message_iff hv).trans ⟨fun h failure' text he => ?_, fun h text => ?_⟩
    · cases he
      exact h text
    · exact h failure text rfl

/-- The rejection of a stream stays on its line unless it is about a carriage return in the place of
a type. -/
theorem isOneLine_streamFailure_iff {d : Drained} (stops : Bool)
    (hd : ∀ failure, d.failure? = some failure →
      ∃ buffer, Resp.Codec.decode .request buffer = .error failure) :
    (∀ f ∈ ((streamFailure? d stops).map rejection).toList, f.IsOneLine) ↔
      d.failure? ≠ some Resp.Codec.crFailure := by
  cases hf : d.failure? with
  | some failure =>
    obtain ⟨buffer, hdecode⟩ := hd failure hf
    have hline := Resp.Codec.isOneLine_of_decode hdecode
    simpa [streamFailure?, hf, rejection, Frame.IsOneLine] using hline
  | none =>
    refine iff_of_true (fun f hm => ?_) (by simp)
    have hio : Text.IsOneLine (Failure.io "bytes remaining on stream").message := by decide +kernel
    simp only [streamFailure?, hf, Option.none_or] at hm
    split at hm
    · rw [List.mem_singleton.mp hm]
      exact hio
    · cases hm

/-- Replies that a peer takes are read back unless a carriage return gets into a rejection. -/
theorem reads_replies_iff (chunks : List Bytes) (stops : Bool)
    (hw : ∀ f ∈ replies lookup chunks stops, f.IsWritable) :
    readFrames (encodeFrames (replies lookup chunks stops)) = some (replies lookup chunks stops) ↔
      (∀ v ∈ (feedAll .request .empty chunks).values, ∀ failure text,
        Request.ofValue v = .error failure → Request.Repeated text failure →
          Text.IsOneLine text) ∧
      (feedAll .request .empty chunks).failure? ≠ some Resp.Codec.crFailure := by
  have hdecode : ∀ failure, (feedAll .request .empty chunks).failure? = some failure →
      ∃ buffer, Resp.Codec.decode .request buffer = .error failure := fun failure hd =>
    Resp.Codec.exists_decode_of_feedAll (fun h => by cases h) hd
  rw [readFrames_encodeFrames_iff hw, replies_eq lookup chunks stops, List.forall_mem_append,
    isOneLine_streamFailure_iff stops hdecode, List.forall_mem_flatMap]
  exact and_congr_left fun _ => forall₂_congr fun v _ => isOneLine_answerValue_iff

/-- The bytes that a connection carries back hold exactly the frames that were answered, unless a
carriage return gets into a rejection: as the type of a value, in an unknown command, or in a text
that stands where a number should. -/
theorem readFrames_replies_iff (hnamed : ∀ number p, lookup number = some p → p.IsNamed)
    (chunks : List Bytes) (stops : Bool)
    (hbounds : ∀ f ∈ replies lookup chunks stops, f.KeepsBounds) :
    replies lookup chunks stops
        = (feedAll .request .empty chunks).values.flatMap (answerValue lookup)
          ++ ((streamFailure? (feedAll .request .empty chunks) stops).map rejection).toList ∧
      (readFrames (encodeFrames (replies lookup chunks stops))
          = some (replies lookup chunks stops) ↔
        (∀ v ∈ (feedAll .request .empty chunks).values, ∀ failure text,
          Request.ofValue v = .error failure → Request.Repeated text failure →
            Text.IsOneLine text) ∧
        (feedAll .request .empty chunks).failure? ≠ some Resp.Codec.crFailure) := by
  refine ⟨replies_eq lookup chunks stops, reads_replies_iff chunks stops fun f hf => ?_⟩
  exact ⟨hbounds f hf, isNamed_of_mem_replies hnamed hf⟩

/-- An unknown command with a line end in it, sent to a server without providers: the rejection that
repeats the command is not read back. -/
theorem readFrames_replies_iff_unknown :
    readFrames (encodeFrames (replies (fun _ => none) [.ofText "*1\r\n$4\r\nA\r\nB\r\n"] false))
      ≠ some (replies (fun _ => none) [.ofText "*1\r\n$4\r\nA\r\nB\r\n"] false) := by
  have hp : Value.parse .request (.ofText "*1\r\n$4\r\nA\r\nB\r\n")
      = .value (.array [.text "A\r\nB"]) [] := rfl
  have hd : feedAll .request .empty [.ofText "*1\r\n$4\r\nA\r\nB\r\n"]
      = ⟨[.array [.text "A\r\nB"]], none, []⟩ := by
    show (drain .request (.ofText "*1\r\n$4\r\nA\r\nB\r\n")).behind [] = _
    rw [Resp.Codec.drain_of_value hp, Resp.Codec.drain_nil]
    rfl
  have hv : Request.ofValue (.array [.text "A\r\nB"])
      = .error (.unsupported ("unknown request '" ++ "A\r\nB" ++ "'")) := by
    have hupper : "A\r\nB".map Char.toUpper = "A\r\nB" := by
      rw [← String.toList_inj, String.toList_map]
      decide
    rw [Request.ofValue, Request.readText_text]
    simp only [hupper]
    rfl
  have hbounds : ∀ f ∈ replies (fun _ => none) [.ofText "*1\r\n$4\r\nA\r\nB\r\n"] false,
      f.KeepsBounds := by
    intro f hf
    rw [replies_eq, hd] at hf
    simp only [List.flatMap_cons, List.flatMap_nil, answerValue, hv] at hf
    rw [List.mem_singleton.mp hf]
    trivial
  intro h
  have hrepeated := ((readFrames_replies_iff (fun _ _ hp => by cases hp) _ false hbounds).2.mp h).1
  rw [hd] at hrepeated
  exact absurd (hrepeated _ (List.mem_singleton_self _) _ _ hv .command) (by decide)

end Session

end Telemetry
