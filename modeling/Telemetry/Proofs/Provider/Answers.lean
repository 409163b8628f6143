import Telemetry.Proofs.Metric.Samples
import Telemetry.Proofs.Protocol.Frames
import Telemetry.Proofs.Provider.Reachable
import Telemetry.Provider.Answer
import Mathlib

/-!
# Answers to requests

An answer is one reply behind any number of pushes. What it names is a registered metric.

## Main statements

* `Request.exists_answer_eq`: the shape of an answer.
* `Provider.deliver_eq_push?`, `Provider.deliver_eq`: what is delivered of a metric.
-/
namespace Telemetry

variable {lookup : UInt16 → Option Provider} {f : Frame} {p : Provider} {m : Metric} {count : Nat}
  {region : RegionDescriptor} {token : Option String}

/-- Whether a frame is the reply to a request that could be read. -/
def Frame.IsReply : Frame → Prop
  | list _ _ | fetch _ _ _ _ => True
  | bulk _ | rejected _ _ => False

theorem Frame.IsReply.isOneLine (h : f.IsReply) : f.IsOneLine := by
  cases f with
  | list _ _ | fetch _ _ _ _ => trivial
  | bulk _ | rejected _ _ => exact h.elim

theorem Frame.isNamed_fetchFailed (status : Status) : (Frame.fetchFailed status).IsNamed :=
  ⟨Nat.zero_le _, Nat.zero_le _⟩

/-! ## The shape of an answer -/

namespace Provider

/-- The number of samples that a fetch delivers. -/
def actual (p : Provider) (m : Metric) (count : Nat) (region : RegionDescriptor) : Nat :=
  min (p.wanted count region) m.buffer.window.length

/-- The push of a fetch; there is none if there is nothing to deliver. -/
def push? (p : Provider) (m : Metric) (count : Nat) (region : RegionDescriptor) : Option Push :=
  if p.actual m count region = 0 then none
  else some ⟨region.id, Sample.packAll (m.buffer.tail (p.actual m count region))⟩

theorem length_tail_actual (p : Provider) (m : Metric) (n : Nat) (region : RegionDescriptor) :
    (m.buffer.tail (p.actual m n region)).length = p.actual m n region := by
  rw [SampleBuffer.tail_eq_drop, List.length_drop, actual]
  omega

/-- What is delivered is a push, if there is anything to push, and the reply. -/
theorem deliver_eq_push? (p : Provider) (m : Metric) (n : Nat) (region : RegionDescriptor) :
    p.deliver m n region = (p.push? m n region).toList.map .bulk
      ++ [.fetch .success (Int64.ofNat (p.actual m n region)) m.name m.ns] := by
  have htail : m.buffer.tail (p.wanted n region) = m.buffer.tail (p.actual m n region) :=
    (m.buffer.tail_min _).symm
  simp only [deliver, SampleBuffer.packTail_eq, htail, length_tail_actual, List.nil_append, push?]
  split_ifs <;> rfl

theorem exists_deliver_eq (p : Provider) (m : Metric) (count : Nat) (region : RegionDescriptor) :
    ∃ (pushes : List Push) (f : Frame), p.deliver m count region = pushes.map .bulk ++ [f] ∧
      f.IsReply ∧ (m.IsNamed → f.IsNamed) :=
  ⟨_, _, p.deliver_eq_push? m count region, trivial, fun h => ⟨h.1, h.2⟩⟩

theorem exists_answerFetch_eq (p : Provider) (id : MetricId) (count : Int64)
    (region : RegionDescriptor) (token : Option String) :
    ∃ (pushes : List Push) (f : Frame),
      p.answerFetch id count region token = pushes.map .bulk ++ [f] ∧ f.IsReply ∧
        (p.IsNamed → f.IsNamed) := by
  have hfailed : ∀ status, ∃ (pushes : List Push) (f : Frame),
      [Frame.fetchFailed status] = pushes.map .bulk ++ [f] ∧ f.IsReply ∧ (p.IsNamed → f.IsNamed) :=
    fun status => ⟨[], _, rfl, trivial, fun _ => Frame.isNamed_fetchFailed status⟩
  unfold answerFetch
  split
  · exact hfailed _
  · split
    · exact hfailed _
    · split
      · exact hfailed _
      · rename_i m hm
        obtain ⟨pushes, f, heq, hreply, hnamed⟩ := exists_deliver_eq p m count.toInt.toNat region
        exact ⟨pushes, f, heq, hreply, fun hp => hnamed (Registry.All.of_find? hp hm)⟩

end Provider

/-- Every request is answered with one reply, behind any number of pushes. -/
theorem Request.exists_answer_eq (lookup : UInt16 → Option Provider) (r : Request) :
    ∃ (pushes : List Push) (f : Frame), r.answer lookup = pushes.map .bulk ++ [f] ∧ f.IsReply ∧
      ((∀ number p, lookup number = some p → p.IsNamed) → f.IsNamed) := by
  unfold answer
  cases hp : lookup r.provider with
  | none =>
    refine ⟨[], r.unknownProvider, rfl, ?_⟩
    cases r with
    | list number maxIds token => exact ⟨trivial, fun _ => trivial⟩
    | fetch number id count region token =>
      exact ⟨trivial, fun _ => Frame.isNamed_fetchFailed _⟩
  | some p =>
    cases r with
    | list number maxIds token =>
      refine ⟨[], p.answerList maxIds token, rfl, ?_⟩
      unfold Provider.answerList
      split <;> exact ⟨trivial, fun _ => trivial⟩
    | fetch number id count region token =>
      obtain ⟨pushes, f, heq, hreply, hnamed⟩ :=
        p.exists_answerFetch_eq id count region token
      exact ⟨pushes, f, heq, hreply, fun h => hnamed (h _ p hp)⟩

/-- No answer to a request is a rejection. -/
theorem Request.isOneLine_of_mem_answer {r : Request} (hf : f ∈ r.answer lookup) :
    f.IsOneLine := by
  obtain ⟨pushes, g, heq, hreply, -⟩ := r.exists_answer_eq lookup
  rw [heq, List.mem_append, List.mem_map] at hf
  rcases hf with ⟨push, -, rfl⟩ | hf
  · trivial
  · rw [List.mem_singleton.mp hf]
    exact hreply.isOneLine

/-- The names in answers are those of registered metrics. -/
theorem Request.isNamed_of_mem_answer (hnamed : ∀ number p, lookup number = some p → p.IsNamed)
    {r : Request} (hf : f ∈ r.answer lookup) : f.IsNamed := by
  obtain ⟨pushes, g, heq, -, hg⟩ := r.exists_answer_eq lookup
  rw [heq, List.mem_append, List.mem_map] at hf
  rcases hf with ⟨push, -, rfl⟩ | hf
  · trivial
  · rw [List.mem_singleton.mp hf]
    exact hg hnamed

/-! ## What a fetch delivers to a region of the right size -/

namespace Provider

/-- The number of samples that are delivered to a region with room for all that are asked for. -/
def delivered (p : Provider) (m : Metric) (count : Nat) : Nat :=
  min (min count p.settings.maxFetchCount) m.buffer.window.length

/-- The newest samples of a metric, as many as are delivered. -/
def newest (p : Provider) (m : Metric) (count : Nat) : List Sample :=
  m.buffer.window.drop (m.buffer.window.length - p.delivered m count)

theorem length_newest (p : Provider) (m : Metric) (count : Nat) :
    (p.newest m count).length = p.delivered m count := by
  rw [newest, List.length_drop, delivered]
  omega

theorem delivered_le (p : Provider) (m : Metric) (count : Nat) : p.delivered m count ≤ count :=
  (min_le_left _ _).trans (min_le_left _ _)

theorem actual_eq_delivered (p : Provider) (m : Metric) (hregion : region.sampleCapacity = count) :
    p.actual m count region = p.delivered m count := by
  rw [actual, wanted, hregion, delivered]
  omega

/-- The newest samples go in a push before the reply, if there are any. -/
theorem deliver_eq (p : Provider) (m : Metric) (hregion : region.sampleCapacity = count) :
    p.deliver m count region
      = (if p.delivered m count = 0 then []
          else [Frame.bulk ⟨region.id, Sample.packAll (p.newest m count)⟩])
        ++ [Frame.fetch .success (Int64.ofNat (p.delivered m count)) m.name m.ns] := by
  rw [deliver_eq_push?, push?, actual_eq_delivered p m hregion, SampleBuffer.tail_eq_drop, newest]
  split_ifs <;> rfl

/-- A token is accepted if the provider has none, or the same. -/
theorem authorize_eq (p : Provider) (token : Option String) :
    p.authorize token
      = if p.token = none ∨ token = p.token then .ok () else .error .invalidToken := by
  rw [authorize]
  simp

end Provider

end Telemetry
