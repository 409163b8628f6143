import Telemetry.Client.Calls
import Telemetry.Proofs.Client.Exchange

/-!
# What comes off a connection

The other side of a connection may send any frames in any order. An exchange takes pushes up to the
first frame that is none, and every one of them has to be for its region and to fit; the region then
holds the payload of the last.

## Main definitions

* `Connection.Reads`: frames come off a connection one after the other.
* `Region.Takes`: a region takes a push.
* `Region.after`: a region behind some pushes.

## Main statements

* `Endpoint.awaitReply_of_reads`: what an exchange makes of the frames that come in.
* `Endpoint.reads_of_awaitReply`: an exchange has a reply only from frames that came in.
-/
namespace Telemetry

/-- Frames come off a connection one after the other. -/
inductive Connection.Reads : Connection → List Frame → Connection → Prop where
  | nil (c : Connection) : Reads c [] c
  | cons {c c' c'' : Connection} {v : Resp.Value} {f : Frame} {frames : List Frame}
      (receive : c.receive = .value v c') (frame : Frame.ofValue v = .ok f)
      (rest : Reads c' frames c'') : Reads c (f :: frames) c''

/-- Frames that can be written come off the connection on which they came in. -/
theorem Connection.reads_encodeFrames {frames : List Frame}
    (h : ∀ f ∈ frames, f.KeepsBounds ∧ f.IsNamed ∧ f.IsOneLine) (l : Connection) :
    Reads { l with inbox := encodeFrames frames } frames { l with inbox := [] } := by
  induction frames with
  | nil => exact .nil _
  | cons f frames ih =>
    obtain ⟨hbounds, hnamed, hline⟩ := h f List.mem_cons_self
    have hparse := Frame.parse_toValue hbounds hnamed hline (encodeFrames frames)
    have hreceive : receive { l with inbox := encodeFrames (f :: frames) }
        = .value f.toValue { l with inbox := encodeFrames frames } := receive_of_value hparse
    exact .cons hreceive (Frame.ofValue_toValue f)
      (ih fun f' hmem => h f' (List.mem_cons_of_mem _ hmem))

/-- Whether a frame is no push. -/
def Frame.EndsExchange (f : Frame) : Prop := ∀ push, f ≠ .bulk push

variable {region : Region} {push : Push} {pushes : List Push}

/-! ## Pushes into a region -/

namespace Region

/-- Whether a region takes a push: it is for it, and it fits. -/
def Takes (r : Region) (push : Push) : Prop :=
  push.region = r.id ∧ push.payload.length ≤ r.capacity

instance (r : Region) (push : Push) : Decidable (r.Takes push) :=
  inferInstanceAs (Decidable (_ ∧ _))

/-- A region behind some pushes: it holds the last of them. -/
def after (r : Region) (pushes : List Push) : Region :=
  { r with data := (pushes.getLast?.map Push.payload).getD r.data }

theorem accept_of_takes (h : region.Takes push) :
    region.accept push = .ok { region with data := push.payload } := by
  rw [accept, if_neg (not_not.mpr h.1), if_neg (Nat.not_lt.mpr h.2)]

theorem accept_of_not_takes (h : ¬ region.Takes push) :
    ∃ failure, region.accept push = .error failure := by
  rw [accept]
  by_cases hid : push.region = region.id
  · have hlt : region.capacity < push.payload.length := by
      by_contra hle
      exact h ⟨hid, Nat.le_of_not_lt hle⟩
    exact ⟨_, by rw [if_neg (not_not.mpr hid), if_pos hlt]⟩
  · exact ⟨_, if_pos hid⟩

theorem foldlM_takePush (h : ∀ push ∈ pushes, region.Takes push) :
    pushes.foldlM takePush (some region) = .ok (some (region.after pushes)) := by
  induction pushes generalizing region with
  | nil => rfl
  | cons push pushes ih =>
    have hrest : ∀ push' ∈ pushes, Takes { region with data := push.payload } push' :=
      fun push' hmem => h push' (List.mem_cons_of_mem _ hmem)
    rw [List.foldlM_cons, takePush, accept_of_takes (h push List.mem_cons_self)]
    refine (ih hrest).trans ?_
    rw [after, after, List.getLast?_cons]
    cases pushes.getLast? <;> rfl

/-- One push that is not taken fails the exchange. -/
theorem exists_error_of_not_takes (h : ∃ push ∈ pushes, ¬ region.Takes push) :
    ∃ failure, pushes.foldlM takePush (some region) = .error failure := by
  induction pushes generalizing region with
  | nil =>
    obtain ⟨push, hmem, -⟩ := h
    cases hmem
  | cons push pushes ih =>
    rw [List.foldlM_cons, takePush]
    by_cases hpush : region.Takes push
    · have hrest : ∃ push' ∈ pushes, ¬ Takes { region with data := push.payload } push' := by
        obtain ⟨push', hmem, hnot⟩ := h
        rcases List.mem_cons.mp hmem with rfl | hmem
        · exact absurd hpush hnot
        · exact ⟨push', hmem, hnot⟩
      rw [accept_of_takes hpush]
      exact ih hrest
    · obtain ⟨failure, hfailure⟩ := accept_of_not_takes hpush
      exact ⟨failure, by rw [hfailure]; rfl⟩

theorem takes_of_foldlM {filled : Option Region}
    (h : pushes.foldlM takePush (some region) = .ok filled) :
    ∀ push ∈ pushes, region.Takes push := by
  by_contra hnot
  push Not at hnot
  obtain ⟨failure, hfailure⟩ := exists_error_of_not_takes hnot
  rw [hfailure] at h
  cases h

end Region

/-! ## Exchanges -/

namespace Endpoint

variable {e : Endpoint} {c c' : Connection} {region? : Option Region} {f : Frame} {reply : Reply}

/-- Pushes go into the region one after the other, and the first other frame ends the exchange. -/
theorem awaitReply_of_reads (hf : f.EndsExchange)
    (h : c.Reads (pushes.map .bulk ++ [f]) c') :
    e.awaitReply region? c
      = (pushes.foldlM takePush region?).map fun region? => (⟨f, region?⟩, c') := by
  induction pushes generalizing c region? with
  | nil =>
    cases h with
    | cons receive frame rest =>
      cases rest
      rw [awaitReply_of_receive receive, frame]
      cases f with
      | bulk push => exact absurd rfl (hf push)
      | list | fetch | rejected => rfl
  | cons push pushes ih =>
    cases h with
    | cons receive frame rest =>
      rw [awaitReply_of_receive receive, frame, List.foldlM_cons]
      cases htake : takePush region? push with
      | error failure => simp only [htake]; rfl
      | ok region? => simp only [htake]; exact ih rest

/-- A reply is the first frame behind the pushes that came in before it. -/
theorem reads_of_awaitReply (h : e.awaitReply region? c = .ok (reply, c')) :
    ∃ pushes : List Push, c.Reads (pushes.map .bulk ++ [reply.frame]) c' ∧
      reply.frame.EndsExchange ∧ pushes.foldlM takePush region? = .ok reply.region? := by
  induction hn : c.inbox.length using Nat.strong_induction_on generalizing c region? with
  | _ n ih =>
  rw [awaitReply] at h
  split at h
  · cases h
  · cases h
  · rename_i v c'' hr
    have hlt := Connection.inbox_length_lt_of_receive hr
    split at h
    · cases h
    · rename_i push hv
      split at h
      · cases h
      · rename_i region?' htake
        obtain ⟨pushes, hreads, hend, hfold⟩ := ih _ (hn ▸ hlt) h rfl
        refine ⟨push :: pushes, .cons hr hv hreads, hend, ?_⟩
        rw [List.foldlM_cons, htake]
        exact hfold
    · rename_i hpush hv
      cases h
      exact ⟨[], .cons hr hv (.nil _), hpush, rfl⟩

/-- An exchange has a reply only if there is a connection and the reply comes in on it. -/
theorem exchange_eq_ok {net : Network} {request : Resp.Value} {w : Wire}
    (h : (e.exchange net request region? w).1 = .ok reply) :
    ∃ l w' l', e.connect net w = (.ok l, w') ∧
      e.awaitReply region? (l.send net request w').1 = .ok (reply, l') := by
  rw [exchange] at h
  split at h
  · cases h
  · rename_i l w' hl
    simp only at h
    split at h
    · cases h
    · rename_i hreply
      cases h
      exact ⟨l, w', _, hl, hreply⟩

end Endpoint

end Telemetry
