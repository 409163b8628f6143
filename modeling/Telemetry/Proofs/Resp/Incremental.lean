import Telemetry.Proofs.Resp.Spelling
import Mathlib

/-!
# Reading what has arrived so far

Once the reader has decided, more bytes do not change its verdict: a value stays that value, with
the new bytes behind what was left, and a fault stays that fault (`Value.parse_append`). So a value
is read from none of the beginnings of its spelling (`Value.parse_eq_incomplete_of_prefix`), and all
that can be decided later is what is incomplete now (`Value.parse_append_and_parse_take`).
-/
namespace Telemetry.Resp

/-- The outcome once more bytes have arrived, if it was decided before. -/
def Outcome.append (o : Outcome) (more : Bytes) : Outcome :=
  match o with
  | .value v rest => .value v (rest ++ more)
  | .incomplete => .incomplete
  | .invalid fault => .invalid fault

namespace Value

/-- Whether what a reader has decided holds for good. -/
def Settles (read : Bytes → Outcome) : Prop :=
  ∀ input more, read input ≠ .incomplete → read (input ++ more) = (read input).append more

variable {limits : Limits} {levels : Nat} {input more : Bytes}

theorem settles_value (v : Value) : Settles fun input => .value v input := fun _ _ _ => rfl

theorem settles_withLine {next : Bytes → Bytes → Outcome} (h : ∀ line, Settles (next line)) :
    Settles fun input => withLine input next := by
  intro input more hd
  simp only [withLine] at hd ⊢
  cases hl : line? input with
  | none => simp only [hl, ne_eq, not_true_eq_false] at hd
  | some p =>
    obtain ⟨line, rest⟩ := p
    simp only [hl] at hd
    simp only [line?_append hl]
    exact h line rest more hd

theorem settles_withNumber {next : Int64 → Bytes → Outcome} (h : ∀ n, Settles (next n)) :
    Settles fun input => withNumber input next := by
  refine settles_withLine fun line => ?_
  cases readNumber line with
  | error fault => exact fun _ _ _ => rfl
  | ok n => exact h n

theorem settles_withLength {max : Nat} {nothing : Value} {fault : Int64 → Fault}
    {body : Nat → Bytes → Outcome} (h : ∀ k, Settles (body k)) :
    Settles (withLength max nothing fault body) := by
  refine settles_withNumber fun n => ?_
  intro input more hd
  split_ifs at hd ⊢
  · rfl
  · rfl
  · exact h _ input more hd

/-- The two bytes behind a byte string decide about it. -/
theorem parseBulk_append (data rest : Bytes) (a b : UInt8) :
    parseBulk data.length (data ++ a :: b :: rest)
      = if a = 13 ∧ b = 10 then .value (.bulk data) rest else .invalid .notTerminated := by
  unfold parseBulk
  rw [Bytes.splitAt?_append]
  by_cases h : a = 13 ∧ b = 10
  · obtain ⟨rfl, rfl⟩ := h
    rfl
  · rw [if_neg h]
    simp only
    split <;> simp_all

theorem length_add_two_le_of_parseBulk {length : Nat} (h : parseBulk length input ≠ .incomplete) :
    length + 2 ≤ input.length := by
  unfold parseBulk at h
  split at h
  · exact absurd rfl h
  · rename_i data rest hs
    obtain ⟨rfl, rfl⟩ := Bytes.splitAt?_eq_some_iff.mp hs
    rw [List.length_append]
    match rest with
    | [] => exact absurd rfl h
    | [_] => exact absurd (by simp) h
    | _ :: _ :: _ => simp only [List.length_cons]; omega

theorem exists_of_length_add_two_le {length : Nat} (h : length + 2 ≤ input.length) :
    ∃ data a b rest, data.length = length ∧ input = data ++ a :: b :: rest := by
  refine ⟨input.take length, input[length], input[length + 1], input.drop (length + 2), ?_, ?_⟩
  · rw [List.length_take]
    omega
  · rw [← List.drop_eq_getElem_cons, ← List.drop_eq_getElem_cons, List.take_append_drop]

theorem settles_parseBulk (length : Nat) : Settles (parseBulk length) := by
  intro input more hd
  obtain ⟨data, a, b, rest, rfl, rfl⟩ :=
    exists_of_length_add_two_le (length_add_two_le_of_parseBulk hd)
  rw [List.append_assoc, List.cons_append, List.cons_append, parseBulk_append, parseBulk_append]
  split <;> rfl

theorem settles_parseItems {parseItem : Bytes → Outcome} (h : Settles parseItem)
    (seen : List Value) (missing : Nat) : Settles (parseItems parseItem seen missing) := by
  induction missing generalizing seen with
  | zero => exact fun _ _ _ => rfl
  | succ missing ih =>
    intro input more hd
    simp only [parseItems] at hd ⊢
    cases hi : parseItem input with
    | incomplete => simp only [hi, ne_eq, not_true_eq_false] at hd
    | invalid fault =>
      have hmore := h input more (by simp [hi])
      rw [hi, Outcome.append] at hmore
      simp only [hmore, Outcome.append]
    | value v rest =>
      have hmore := h input more (by simp [hi])
      rw [hi, Outcome.append] at hmore
      simp only [hi] at hd
      simp only [hmore]
      exact ih (v :: seen) rest more hd

theorem settles_parseWithin (limits : Limits) (levels : Nat) :
    Settles (parseWithin limits levels) := by
  induction levels using Nat.strong_induction_on with
  | _ levels ih =>
  intro input more hd
  cases input with
  | nil => exact absurd parseWithin_nil hd
  | cons type input =>
    rw [List.cons_append]
    rcases type_cases type with rfl | rfl | rfl | rfl | rfl | hother
    · simp only [parseWithin_simple] at hd ⊢
      exact settles_withLine (fun line => settles_value _) input more hd
    · simp only [parseWithin_error] at hd ⊢
      exact settles_withLine (fun line => settles_value _) input more hd
    · simp only [parseWithin_integer] at hd ⊢
      exact settles_withNumber (fun n => settles_value _) input more hd
    · simp only [parseWithin_bulk] at hd ⊢
      exact settles_withLength settles_parseBulk input more hd
    · cases levels with
      | zero => rfl
      | succ levels =>
        simp only [parseWithin_array_succ] at hd ⊢
        exact settles_withLength (settles_parseItems (ih levels (Nat.lt_succ_self _)) []) input
          more hd
    · rw [hother, hother]
      rfl

/-- What has been decided about an input is decided about everything that begins with it. -/
theorem parse_append (h : parse limits input ≠ .incomplete) (more : Bytes) :
    parse limits (input ++ more) = (parse limits input).append more :=
  settles_parseWithin limits limits.maxDepth input more h

theorem parse_append_of_value {v : Value} {rest : Bytes} (h : parse limits input = .value v rest)
    (more : Bytes) : parse limits (input ++ more) = .value v (rest ++ more) := by
  have hd : parse limits input ≠ .incomplete := by simp [h]
  rw [parse_append hd, h]
  rfl

theorem parse_append_of_invalid {fault : Fault} (h : parse limits input = .invalid fault)
    (more : Bytes) : parse limits (input ++ more) = .invalid fault := by
  have hd : parse limits input ≠ .incomplete := by simp [h]
  rw [parse_append hd, h]
  rfl

/-- Of the bytes that a value takes, no beginning is enough. -/
theorem parse_eq_incomplete_of_prefix {v : Value} (h : parse limits (input ++ more) = .value v [])
    (hmore : more ≠ []) : parse limits input = .incomplete := by
  cases hp : parse limits input with
  | incomplete => rfl
  | value w rest =>
    have := parse_append_of_value hp more
    rw [h] at this
    simp [hmore] at this
  | invalid fault =>
    have := parse_append_of_invalid hp more
    rw [h] at this
    cases this

/-- A verdict stands, whatever follows. If an input begins with a value that takes its first `n`
bytes, then the same value takes the same `n` bytes of every longer input, and no beginning of fewer
bytes is decided. If an input is faulty, every longer input has the same fault. -/
theorem parse_append_and_parse_take (limits : Limits) (input more : Bytes) :
    (∀ v rest, parse limits input = .value v rest →
      ∃ n, 0 < n ∧ n ≤ input.length ∧ rest = input.drop n ∧
        parse limits (input ++ more) = .value v ((input ++ more).drop n) ∧
        ∀ k < n, parse limits (input.take k) = .incomplete) ∧
    ∀ fault, parse limits input = .invalid fault →
      parse limits (input ++ more) = .invalid fault := by
  refine ⟨fun v rest h => ?_, fun fault h => parse_append_of_invalid h more⟩
  obtain ⟨used, hused, rfl⟩ := parse_eq_value_iff.mp h
  have hpos : 0 < used.length := by
    have hlt := length_lt_of_parse h
    rw [List.length_append] at hlt
    omega
  refine ⟨used.length, hpos, ?_, ?_, ?_, fun k hk => ?_⟩
  · rw [List.length_append]
    exact Nat.le_add_right _ _
  · rw [List.drop_left]
  · rw [List.append_assoc, List.drop_left]
    exact parse_eq_value_iff.mpr ⟨used, hused, rfl⟩
  · -- the spelling alone is read to its end, and less of it is not enough
    have halone : parse limits (used.take k ++ used.drop k) = .value v [] := by
      rw [List.take_append_drop]
      exact parse_eq_value_iff.mpr ⟨used, hused, (List.append_nil used).symm⟩
    rw [List.take_append_of_le_length hk.le]
    exact parse_eq_incomplete_of_prefix halone (by simpa using hk)

/-- An array that holds a byte string with a line end in it and an array without elements, and the
type byte of what comes next; and an array whose second element is of no type. -/
theorem parse_append_and_parse_take_nested :
    parse .request (Bytes.ofText "*2\r\n$2\r\n\r\n\r\n*0\r\n:" ++ Bytes.ofText "1\r\n")
        = .value (array [bulk lineEnd, array []]) (Bytes.ofText ":1\r\n") ∧
      (∀ k < 16, parse .request ((Bytes.ofText "*2\r\n$2\r\n\r\n\r\n*0\r\n:").take k)
        = .incomplete) ∧
      parse .request (Bytes.ofText "*2\r\n:1\r\n?" ++ Bytes.ofText "1\r\n")
        = .invalid (.unknownType 63) := by
  have hvalue : parse .request (Bytes.ofText "*2\r\n$2\r\n\r\n\r\n*0\r\n:")
      = .value (array [bulk lineEnd, array []]) [58] := rfl
  obtain ⟨n, -, -, hrest, hmore, htake⟩ :=
    (parse_append_and_parse_take .request _ (Bytes.ofText "1\r\n")).1 _ _ hvalue
  have hn : n = 16 := by
    have hlength := congrArg List.length hrest
    rw [List.length_drop] at hlength
    change 1 = 17 - n at hlength
    omega
  subst hn
  exact ⟨hmore, htake, (parse_append_and_parse_take .request _ _).2 _ rfl⟩

end Value

end Telemetry.Resp
