import Telemetry.Proofs.Provider.Answers
import Telemetry.Provider.Scratch

/-!
# What requests are answered with

The buffers that wait in a pool are empty, whatever was packed in them before and by whom. So what a
request is answered with does not depend on the requests before it: there is one reply that fits the
request, and a push before it exactly if samples are delivered, with nothing but these samples.

## Main definitions

* `ScratchPool.IsClean`, `Desks.IsClean`: nothing is written in buffers that wait.
* `DeskEvent`: what happens between two requests.
* `IsDelivery`, `IsAnswer`: what a fetch delivers, and what an answer is.

## Main statements

* `Desks.IsClean.performAll`: buffers that wait stay empty.
* `Desks.IsClean.serveValue`: the pools make no difference to what is answered.
* `isAnswer_serveValue_performAll`: what a request is answered with after any history.
-/
namespace Telemetry

open Resp (Value)

variable {lookup : UInt16 → Option Provider} {desks : Desks} {d : Desk} {p : Provider} {m : Metric}
  {v : Value} {r : Request} {id : MetricId} {count : Int64} {region : RegionDescriptor}
  {token : Option String} {number : UInt16}

/-! ## Buffers that wait -/

namespace ScratchPool

variable {pool : ScratchPool}

/-- Whether nothing is written in the buffers that wait. -/
def IsClean (pool : ScratchPool) : Prop := ∀ s ∈ pool.waiting, s.written = []

theorem isClean_ofSize (size bufferCapacity : Nat) : (ofSize size bufferCapacity).IsClean := by
  intro s hs
  rw [List.eq_of_mem_replicate hs]
  rfl

/-- A buffer that is taken is empty, whether it waited or is new. -/
theorem IsClean.acquire (h : pool.IsClean) :
    pool.acquire.1.written = [] ∧ pool.acquire.2.IsClean := by
  unfold ScratchPool.acquire
  split
  case h_1 => exact ⟨rfl, h⟩
  case h_2 s waiting hwaiting =>
    have hmem : ∀ t ∈ s :: waiting, t.written = [] := by
      intro t ht
      exact h t (hwaiting ▸ ht)
    exact ⟨hmem s List.mem_cons_self, fun t ht => hmem t (List.mem_cons_of_mem s ht)⟩

/-- Whatever is written in a buffer that is given back, it waits empty or not at all. -/
theorem IsClean.release (h : pool.IsClean) (s : Scratch) : (pool.release s).IsClean := by
  unfold ScratchPool.release
  split_ifs
  · exact h
  · intro t ht
    rcases List.mem_append.mp ht with ht | ht
    · exact h t ht
    · rw [List.mem_singleton.mp ht]
      rfl
  · exact h

end ScratchPool

/-! ## Work at a desk -/

namespace Desk

/-- Whether work at a desk yields some frames, leaves its provider alone, and leaves its pool clean. -/
structure Yields (d : Desk) (frames : List Frame) (outcome : List Frame × Desk) : Prop where
  frames_eq : outcome.1 = frames
  provider_eq : outcome.2.provider = d.provider
  isClean : outcome.2.pool.IsClean

theorem yields_deliver (h : d.pool.IsClean) (m : Metric) (count : Nat) (region : RegionDescriptor)
    (spare : Nat) :
    d.Yields (d.provider.deliver m count region) (d.deliver m count region spare) where
  frames_eq := by
    simp only [deliver, Provider.deliver, Scratch.pack, Scratch.split, h.acquire.1]
  provider_eq := rfl
  isClean := h.acquire.2.release _

theorem yields_answerFetch (h : d.pool.IsClean) (id : MetricId) (count : Int64)
    (region : RegionDescriptor) (token : Option String) (spare : Nat) :
    d.Yields (d.provider.answerFetch id count region token)
      (d.answerFetch id count region token spare) := by
  unfold answerFetch Provider.answerFetch
  cases d.provider.authorize token with
  | error failure => exact ⟨rfl, rfl, h⟩
  | ok accepted =>
    by_cases hcount : count < 0
    · simp only [if_pos hcount]
      exact ⟨rfl, rfl, h⟩
    · simp only [if_neg hcount]
      cases d.provider.find? id with
      | none => exact ⟨rfl, rfl, h⟩
      | some m => exact d.yields_deliver h m count.toInt.toNat region spare

end Desk

namespace Desks

/-- Whether nothing is written in the buffers that wait at any desk. -/
def IsClean (desks : Desks) : Prop := ∀ number d, desks number = some d → d.pool.IsClean

/-- Whether requests at the desks yield some frames, leave the providers alone, and leave the pools
clean. -/
structure Yields (desks : Desks) (frames : List Frame) (outcome : List Frame × Desks) : Prop where
  frames_eq : outcome.1 = frames
  provider?_eq : outcome.2.provider? = desks.provider?
  isClean : outcome.2.IsClean

theorem IsClean.set (h : desks.IsClean) (hd : d.pool.IsClean) : (desks.set number d).IsClean := by
  intro other d' hd'
  rw [Desks.set] at hd'
  split_ifs at hd'
  · cases hd'
    exact hd
  · exact h other d' hd'

theorem provider?_set (hd : desks.provider? number = some d.provider) :
    (desks.set number d).provider? = desks.provider? := by
  funext other
  rw [provider?, set]
  split_ifs with hother
  · rw [hother, hd]
    rfl
  · rfl

/-- The pools make no difference to what is answered, as long as they are clean, and stay clean. -/
theorem IsClean.serve (h : desks.IsClean) (r : Request) (spare : Nat) :
    desks.Yields (r.answer desks.provider?) (r.serve desks spare) := by
  unfold Request.answer Request.serve
  cases hd : desks r.provider with
  | none =>
    rw [provider?, hd]
    exact ⟨rfl, rfl, h⟩
  | some d =>
    have hp : desks.provider? r.provider = some d.provider := by rw [provider?, hd, Option.map_some]
    rw [hp]
    cases r with
    | list number maxIds token => exact ⟨rfl, rfl, h⟩
    | fetch number id count region token =>
      have hyields := d.yields_answerFetch (h _ d hd) id count region token spare
      refine ⟨hyields.frames_eq, provider?_set ?_, h.set hyields.isClean⟩
      rw [hyields.provider_eq]
      exact hp

theorem IsClean.serveValue (h : desks.IsClean) (v : Value) (spare : Nat) :
    desks.Yields (answerValue desks.provider? v) (serveValue desks v spare) := by
  unfold answerValue Telemetry.serveValue
  cases Request.ofValue v with
  | error failure => exact ⟨rfl, rfl, h⟩
  | ok r => exact h.serve r spare

/-! ## Histories -/

/-- The desks of some providers, each with new buffers. -/
def ofProviders (size bufferCapacity : Nat) (lookup : UInt16 → Option Provider) : Desks :=
  fun number => (lookup number).map fun p => ⟨p, .ofSize size bufferCapacity⟩

theorem isClean_ofProviders (size bufferCapacity : Nat) (lookup : UInt16 → Option Provider) :
    (ofProviders size bufferCapacity lookup).IsClean := by
  intro number d hd
  obtain ⟨p, -, rfl⟩ := Option.map_eq_some_iff.mp hd
  exact ScratchPool.isClean_ofSize size bufferCapacity

/-- The desks after one of them, if it is there, has changed in some way. -/
def modify (desks : Desks) (number : UInt16) (f : Desk → Desk) : Desks :=
  fun other => if other = number then (desks other).map f else desks other

theorem IsClean.modify (h : desks.IsClean) {f : Desk → Desk}
    (hf : ∀ d : Desk, d.pool.IsClean → (f d).pool.IsClean) : (desks.modify number f).IsClean := by
  intro other d hd
  rw [Desks.modify] at hd
  split_ifs at hd
  · obtain ⟨before, hbefore, rfl⟩ := Option.map_eq_some_iff.mp hd
    exact hf before (h other before hbefore)
  · exact h other d hd

end Desks

/-- What happens at desks. Requests that are answered side by side take and give back buffers at any
time. -/
inductive DeskEvent where
  /-- A request is answered. -/
  | request (v : Value) (spare : Nat)
  /-- A provider changes: metrics come and go, and values are recorded. -/
  | change (number : UInt16) (f : Provider → Provider)
  /-- A request that is under way takes a buffer. -/
  | acquire (number : UInt16)
  /-- A request that is under way gives a buffer back, whatever it has left in it. -/
  | release (number : UInt16) (s : Scratch)

namespace DeskEvent

/-- The desks after something has happened. -/
def perform (desks : Desks) : DeskEvent → Desks
  | request v spare => (serveValue desks v spare).2
  | change number f => desks.modify number fun d => { d with provider := f d.provider }
  | acquire number => desks.modify number fun d => { d with pool := d.pool.acquire.2 }
  | release number s => desks.modify number fun d => { d with pool := d.pool.release s }

/-- The desks after a history. -/
def performAll (desks : Desks) (history : List DeskEvent) : Desks := history.foldl perform desks

end DeskEvent

namespace Desks

/-- Nothing that happens leaves bytes in a buffer that waits. -/
theorem IsClean.perform (h : desks.IsClean) (event : DeskEvent) : (event.perform desks).IsClean := by
  cases event with
  | request v spare => exact (h.serveValue v spare).isClean
  | change number f => exact h.modify fun d hd => hd
  | acquire number => exact h.modify fun d hd => hd.acquire.2
  | release number s => exact h.modify fun d hd => hd.release s

theorem IsClean.performAll (h : desks.IsClean) (history : List DeskEvent) :
    (DeskEvent.performAll desks history).IsClean := by
  induction history generalizing desks with
  | nil => exact h
  | cons event history ih => exact ih (h.perform event)

end Desks

/-! ## What a fetch delivers -/

/-- Whether a count, and a push if there is one, are those of the newest samples of a metric. -/
structure IsDelivery (p : Provider) (m : Metric) (count : Int64) (region : RegionDescriptor)
    (push? : Option Push) (actual : Int64) : Prop where
  count_eq : actual.toInt = min (min (min count.toInt p.settings.maxFetchCount)
    ((region.length.toNat / Sample.packedLength : Nat) : Int)) m.buffer.window.length
  region_eq : ∀ push ∈ push?, push.region = region.id
  payload_eq : ∀ push ∈ push?, push.payload
    = Sample.packAll (m.buffer.window.drop (m.buffer.window.length - actual.toInt.toNat))
  length_eq : ∀ push ∈ push?, (push.payload.length : Int) = Sample.packedLength * actual.toInt
  length_le : ∀ push ∈ push?, push.payload.length ≤ region.length.toNat

namespace Provider

variable {n : Nat} {push : Push}

theorem mem_push? : push ∈ p.push? m n region ↔ p.actual m n region ≠ 0 ∧
    push = ⟨region.id, Sample.packAll (m.buffer.tail (p.actual m n region))⟩ := by
  rw [push?]
  split_ifs with h
  · simp [h]
  · simp [h, eq_comm]

/-- What is delivered is not more than was asked for, so it can be told in the reply. -/
theorem toInt_ofNat_actual (p : Provider) (m : Metric) (count : Int64)
    (region : RegionDescriptor) : (Int64.ofNat (p.actual m count.toInt.toNat region)).toInt
      = p.actual m count.toInt.toNat region := by
  have hlt := count.toInt_lt
  refine Int64.toInt_ofNat_of_lt ?_
  rw [actual, wanted]
  omega

theorem isSome_push?_iff (p : Provider) (m : Metric) (count : Int64) (region : RegionDescriptor) :
    (p.push? m count.toInt.toNat region).isSome ↔
      0 < Int64.ofNat (p.actual m count.toInt.toNat region) := by
  rw [Int64.lt_iff_toInt_lt, toInt_ofNat_actual, push?, Int64.toInt_zero, Int.natCast_pos]
  split_ifs with h
  · rw [h]
    simp
  · exact iff_of_true rfl (Nat.pos_of_ne_zero h)

theorem isDelivery (p : Provider) (m : Metric) (region : RegionDescriptor) (hcount : 0 ≤ count) :
    IsDelivery p m count region (p.push? m count.toInt.toNat region)
      (Int64.ofNat (p.actual m count.toInt.toNat region)) where
  count_eq := by
    have hpos : 0 ≤ count.toInt := by
      rw [← Int64.toInt_zero]
      exact Int64.le_iff_toInt_le.mp hcount
    rw [toInt_ofNat_actual, actual, wanted, RegionDescriptor.sampleCapacity]
    omega
  region_eq := by
    intro push hpush
    rw [(mem_push?.mp hpush).2]
  payload_eq := by
    intro push hpush
    rw [(mem_push?.mp hpush).2, toInt_ofNat_actual, Int.toNat_natCast, SampleBuffer.tail_eq_drop]
  length_eq := by
    intro push hpush
    rw [(mem_push?.mp hpush).2, toInt_ofNat_actual, Sample.length_packAll, length_tail_actual]
    push_cast
    rw [mul_comm]
  length_le := by
    intro push hpush
    have hroom : p.actual m count.toInt.toNat region ≤ region.length.toNat / Sample.packedLength :=
      (min_le_left _ _).trans (min_le_right _ _)
    rw [(mem_push?.mp hpush).2, Sample.length_packAll, length_tail_actual]
    exact (Nat.mul_le_mul_right _ hroom).trans (Nat.div_mul_le_self _ _)

end Provider

/-! ## What an answer is -/

/-- Whether a value is a fetch that its provider permits. -/
def Permits (lookup : UInt16 → Option Provider) (v : Value) (p : Provider) (id : MetricId)
    (count : Int64) (region : RegionDescriptor) : Prop :=
  ∃ number token, Request.ofValue v = .ok (.fetch number id count region token) ∧
    lookup number = some p ∧ p.authorize token = .ok ()

/-- Whether a reply, and the push before it if there is one, answer a value. -/
structure IsAnswer (lookup : UInt16 → Option Provider) (v : Value) (push? : Option Push)
    (reply : Frame) : Prop where
  not_bulk : ∀ push, reply ≠ .bulk push
  rejected_iff : (∃ status message, reply = .rejected status message) ↔
    ∃ failure, Request.ofValue v = .error failure
  list_iff : (∃ status ids, reply = .list status ids) ↔
    ∃ number maxIds token, Request.ofValue v = .ok (.list number maxIds token)
  fetch_iff : (∃ status actual name ns, reply = .fetch status actual name ns) ↔
    ∃ number id count region token,
      Request.ofValue v = .ok (.fetch number id count region token)
  pushed_iff : push?.isSome ↔ ∃ actual name ns, reply = .fetch .success actual name ns ∧ 0 < actual
  success : ∀ actual name ns, reply = .fetch .success actual name ns →
    ∃ p id count region m, Permits lookup v p id count region ∧ 0 ≤ count ∧ p.find? id = some m
  delivery : ∀ p id count region m, Permits lookup v p id count region → 0 ≤ count →
    p.find? id = some m → ∃ actual, reply = .fetch .success actual m.name m.ns ∧
      IsDelivery p m count region push? actual
  negative : ∀ p id count region, Permits lookup v p id count region → count < 0 →
    reply = .fetchFailed .invalidArgs

namespace IsAnswer

theorem rejected {failure : Failure} (hv : Request.ofValue v = .error failure) :
    IsAnswer lookup v none (.rejected failure.status failure.message) := by
  constructor <;> simp [hv, Permits]

theorem list {maxIds : UInt64} (hv : Request.ofValue v = .ok (.list number maxIds token))
    (status : Status) (ids : List MetricId) : IsAnswer lookup v none (.list status ids) := by
  constructor <;> simp [hv, Permits, Frame.fetchFailed]

/-- A fetch that fails delivers nothing. -/
theorem failed {status : Status} (hv : Request.ofValue v = .ok (.fetch number id count region token))
    (hstatus : status ≠ .success)
    (hnegative : ∀ p, lookup number = some p → p.authorize token = .ok () → count < 0 →
      status = .invalidArgs)
    (hmissing : ∀ p, lookup number = some p → p.authorize token = .ok () → 0 ≤ count →
      p.find? id = none) :
    IsAnswer lookup v none (.fetchFailed status) where
  not_bulk := by simp [Frame.fetchFailed]
  rejected_iff := by simp [hv, Frame.fetchFailed]
  list_iff := by simp [hv, Frame.fetchFailed]
  fetch_iff := by simp [hv, Frame.fetchFailed]
  pushed_iff := by simp [Frame.fetchFailed, hstatus]
  success := by simp [Frame.fetchFailed, hstatus]
  delivery := by
    rintro p _ _ _ m ⟨_, _, hv', hp, hpermits⟩ hcount hm
    cases hv.symm.trans hv'
    rw [hmissing p hp hpermits hcount] at hm
    cases hm
  negative := by
    rintro p _ _ _ ⟨_, _, hv', hp, hpermits⟩ hcount
    cases hv.symm.trans hv'
    rw [hnegative p hp hpermits hcount]

/-- A fetch that passes every check delivers what there is. -/
theorem delivered (hv : Request.ofValue v = .ok (.fetch number id count region token))
    (hp : lookup number = some p) (hpermits : p.authorize token = .ok ()) (hcount : 0 ≤ count)
    (hm : p.find? id = some m) :
    IsAnswer lookup v (p.push? m count.toInt.toNat region)
      (.fetch .success (Int64.ofNat (p.actual m count.toInt.toNat region)) m.name m.ns) where
  not_bulk := by simp
  rejected_iff := by simp [hv]
  list_iff := by simp [hv]
  fetch_iff := by simp [hv]
  pushed_iff := by
    rw [Provider.isSome_push?_iff]
    simp
  success := by
    intro _ _ _ _
    exact ⟨p, id, count, region, m, ⟨number, token, hv, hp, hpermits⟩, hcount, hm⟩
  delivery := by
    rintro p' _ _ _ m' ⟨_, _, hv', hp', -⟩ - hm'
    cases hv.symm.trans hv'
    cases hp.symm.trans hp'
    cases hm.symm.trans hm'
    exact ⟨_, rfl, p.isDelivery m region hcount⟩
  negative := by
    rintro _ _ _ _ ⟨_, _, hv', -⟩ hnegative
    cases hv.symm.trans hv'
    exact absurd hnegative (Int64.not_lt.mpr hcount)

end IsAnswer

theorem Provider.exists_isAnswer_answerFetch
    (hv : Request.ofValue v = .ok (.fetch number id count region token))
    (hp : lookup number = some p) :
    ∃ push? reply, p.answerFetch id count region token = push?.toList.map .bulk ++ [reply] ∧
      IsAnswer lookup v push? reply := by
  have hsame : ∀ p', lookup number = some p' → p' = p := by
    intro p' hp'
    rw [hp] at hp'
    exact (Option.some.inj hp').symm
  rw [answerFetch]
  -- the checks in their order: the token, the count, the metric
  cases hpermits : p.authorize token with
  | error failure =>
    have hdenied : ∀ p', lookup number = some p' → p'.authorize token ≠ .ok () := by
      intro p' hp'
      rw [hsame p' hp', hpermits]
      simp
    refine ⟨none, _, rfl, .failed hv ?_ ?_ ?_⟩
    · have hfailure : failure = .invalidToken := by
        rw [authorize_eq] at hpermits
        split_ifs at hpermits
        cases hpermits
        rfl
      rw [hfailure]
      decide
    · exact fun p' hp' hok => absurd hok (hdenied p' hp')
    · exact fun p' hp' hok => absurd hok (hdenied p' hp')
  | ok accepted =>
    by_cases hcount : count < 0
    · refine ⟨none, _, if_pos hcount, .failed hv (by decide) (fun _ _ _ _ => rfl) ?_⟩
      exact fun p' _ _ hpos => absurd hcount (Int64.not_lt.mpr hpos)
    · simp only [if_neg hcount]
      cases hm : p.find? id with
      | none =>
        refine ⟨none, _, rfl, .failed hv (by decide) ?_ ?_⟩
        · exact fun p' _ _ hnegative => absurd hnegative hcount
        · intro p' hp' _ _
          rw [hsame p' hp', hm]
      | some m =>
        have hpos : 0 ≤ count := Int64.not_lt.mp hcount
        exact ⟨_, _, p.deliver_eq_push? m _ region, .delivered hv hp hpermits hpos hm⟩

theorem Provider.exists_answerList_eq (p : Provider) (maxIds : UInt64) (token : Option String) :
    ∃ status ids, p.answerList maxIds token = .list status ids := by
  unfold answerList
  cases p.authorize token with
  | error failure => exact ⟨_, _, rfl⟩
  | ok accepted => exact ⟨_, _, rfl⟩

theorem Request.exists_isAnswer_answer (lookup : UInt16 → Option Provider)
    (hv : Request.ofValue v = .ok r) :
    ∃ push? reply, r.answer lookup = push?.toList.map .bulk ++ [reply] ∧
      IsAnswer lookup v push? reply := by
  unfold answer
  cases hp : lookup r.provider with
  | none =>
    cases r with
    | list number maxIds token => exact ⟨none, _, rfl, .list hv .invalidProvider []⟩
    | fetch number id count region token =>
      have hnone : ∀ p, lookup number ≠ some p := by
        intro p hsome
        cases hp.symm.trans hsome
      refine ⟨none, .fetchFailed .invalidProvider, rfl, .failed hv (by decide) ?_ ?_⟩
      · exact fun p hsome => absurd hsome (hnone p)
      · exact fun p hsome => absurd hsome (hnone p)
  | some p =>
    cases r with
    | list number maxIds token =>
      obtain ⟨status, ids, hlist⟩ := p.exists_answerList_eq maxIds token
      exact ⟨none, .list status ids, congrArg List.singleton hlist, .list hv status ids⟩
    | fetch number id count region token => exact p.exists_isAnswer_answerFetch hv hp

/-- What is sent for a value is an answer to it, if no pool is involved. -/
theorem exists_isAnswer (lookup : UInt16 → Option Provider) (v : Value) :
    ∃ push? reply, answerValue lookup v = push?.toList.map .bulk ++ [reply] ∧
      IsAnswer lookup v push? reply := by
  rw [answerValue]
  cases hv : Request.ofValue v with
  | error failure =>
    exact ⟨none, .rejected failure.status failure.message, rfl, .rejected hv⟩
  | ok r => exact r.exists_isAnswer_answer lookup hv

/-- A provider with one metric, of which two samples are recorded. -/
def twoSamples : Provider :=
  { Provider.plain with
    registry := (Registry.empty 2).setShard ⟨9⟩
      [(⟨9⟩, {
        id := ⟨9⟩, ns := "load", name := "cpu", description := "", tags := .empty
        operator := .sum
        buffer := ⟨.gauge, 2, #[⟨⟨1⟩, ⟨10⟩, 0⟩, ⟨⟨2⟩, ⟨20⟩, 0⟩], Nat.two_pos, Nat.le_refl 2⟩
        context := none })] 1 }

/-- A fetch of one sample in the buffer in which two were packed before. -/
example :
    let fetch (count : Int64) := (Request.fetch 1 ⟨9⟩ count ⟨7, 48⟩ none).toValue
    let desks := Desks.ofProviders 1 48 fun _ => some twoSamples
    (serveValue (serveValue desks (fetch 2) 0).2 (fetch 1) 0).1
      = [.bulk ⟨7, Sample.pack ⟨⟨2⟩, ⟨20⟩, 0⟩⟩, .fetch .success 1 "cpu" "load"] := by
  decide +kernel

end Telemetry
