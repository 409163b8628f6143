import Telemetry.Number.Integer
import Telemetry.Resp.Limits

/-!
# Reading protocol values

`Value.parse` reads one value from the front of the bytes received so far. The answer is the value
and what follows it, that more bytes are needed, or what is wrong; wrong input stays wrong whatever
follows. A value takes at least one byte (`Value.length_lt_of_parse`).
-/
namespace Telemetry.Resp

/-- What is wrong with the bytes received. -/
inductive Fault where
  | unknownType (byte : UInt8)
  | notText (fault : Utf8Fault)
  | notNumber (fault : IntegerFault)
  | bulkLength (n : Int64)
  | arrayLength (n : Int64)
  | notTerminated
  | tooDeep (maxDepth : Nat)
deriving DecidableEq, Repr

/-- What the sender of faulty bytes is told. -/
def Fault.message : Fault → String
  | unknownType byte => "Unknown RESP type: " ++ String.singleton (Char.ofNat byte.toNat)
  | notText fault => fault.message
  | notNumber fault => fault.message
  | bulkLength n => "bad bulk length " ++ toString n.toInt
  | arrayLength n => "bad array length " ++ toString n.toInt
  | notTerminated => "bulk string not CRLF-terminated"
  | tooDeep maxDepth => "arrays nested deeper than " ++ toString maxDepth

/-- What the bytes received so far begin with. -/
inductive Outcome where
  | value (v : Value) (rest : Bytes)
  /-- More bytes are needed. -/
  | incomplete
  | invalid (fault : Fault)

namespace Value

/-- Cuts off a line: what stands before the first carriage return, if a line feed follows that. A
carriage return with another byte behind it never ends a line. -/
def line? (input : Bytes) : Option (Bytes × Bytes) :=
  match input.dropWhile (· != 13) with
  | _ :: 10 :: rest => some (input.takeWhile (· != 13), rest)
  | _ => none

/-- The integer that a line holds. -/
def readNumber (line : Bytes) : Except Fault Int64 :=
  match line.toText with
  | .error fault => .error (.notText fault)
  | .ok s =>
    match IntegerRange.int64.parseText s with
    | .error fault => .error (.notNumber fault)
    | .ok n => .ok (Int64.ofInt n)

/-- Cuts off a line and hands its text on. -/
def withLine (input : Bytes) (next : Bytes → Bytes → Outcome) : Outcome :=
  match line? input with
  | none => .incomplete
  | some (line, rest) => next line rest

/-- Cuts off a line that holds an integer and hands that on. -/
def withNumber (input : Bytes) (next : Int64 → Bytes → Outcome) : Outcome :=
  withLine input fun line rest =>
    match readNumber line with
    | .error fault => .invalid fault
    | .ok n => next n rest

/-- Reads the bytes of a byte string and the line end behind them. -/
def parseBulk (length : Nat) (input : Bytes) : Outcome :=
  match input.splitAt? length with
  | none => .incomplete
  | some (data, rest) =>
    match rest with
    | 13 :: 10 :: rest => .value (.bulk data) rest
    | _ :: _ :: _ => .invalid .notTerminated
    | _ => .incomplete

/-- Reads the elements of an array that are still missing; those already read are given in
reverse. -/
def parseItems (parseItem : Bytes → Outcome) (seen : List Value) : (missing : Nat) → Bytes → Outcome
  | 0, input => .value (.array seen.reverse) input
  | missing + 1, input =>
    match parseItem input with
    | .value v rest => parseItems parseItem (v :: seen) missing rest
    | .incomplete => .incomplete
    | .invalid fault => .invalid fault

/-- Reads one value in which arrays nest at most `levels` deep. -/
def parseWithin (limits : Limits) (levels : Nat) : Bytes → Outcome
  | [] => .incomplete
  | 43 :: input => withLine input fun line rest => .value (.simple line.toTextLossy) rest
  | 45 :: input => withLine input fun line rest => .value (.error line.toTextLossy) rest
  | 58 :: input => withNumber input fun n rest => .value (.integer n) rest
  | 36 :: input => withNumber input fun n rest =>
    if n = -1 then .value .nilBulk rest
    else if n < 0 ∨ limits.maxBulk < n.toInt.toNat then .invalid (.bulkLength n)
    else parseBulk n.toInt.toNat rest
  | 42 :: input =>
    match levels with
    | 0 => .invalid (.tooDeep limits.maxDepth)
    | levels + 1 => withNumber input fun n rest =>
      if n = -1 then .value .nilArray rest
      else if n < 0 ∨ limits.maxArray < n.toInt.toNat then .invalid (.arrayLength n)
      else parseItems (parseWithin limits levels) [] n.toInt.toNat rest
  | byte :: _ => .invalid (.unknownType byte)

/-- Reads one value from the front of the bytes received so far. -/
def parse (limits : Limits) (input : Bytes) : Outcome := parseWithin limits limits.maxDepth input

/-! ## Progress -/

theorem length_le_of_line? {input line rest : Bytes} (h : line? input = some (line, rest)) :
    rest.length ≤ input.length := by
  unfold line? at h
  split at h
  · rename_i c tail hd
    cases h
    have := (List.dropWhile_suffix (l := input) (· != 13)).length_le
    rw [hd] at this
    simp at this
    omega
  · cases h

/-- Whether an outcome leaves at most `n` bytes. -/
def Leaves (n : Nat) (o : Outcome) : Prop := ∀ v rest, o = .value v rest → rest.length ≤ n

theorem leaves_withLine {input : Bytes} {next : Bytes → Bytes → Outcome}
    (h : ∀ line rest, rest.length ≤ input.length → Leaves input.length (next line rest)) :
    Leaves input.length (withLine input next) := by
  intro v rest he
  unfold withLine at he
  split at he
  · cases he
  · rename_i line rest' hl
    exact h line rest' (length_le_of_line? hl) v rest he

theorem leaves_withNumber {input : Bytes} {next : Int64 → Bytes → Outcome}
    (h : ∀ n rest, rest.length ≤ input.length → Leaves input.length (next n rest)) :
    Leaves input.length (withNumber input next) := by
  refine leaves_withLine fun line rest hr v rest' he => ?_
  split at he
  · cases he
  · exact h _ rest hr v rest' he

theorem leaves_parseBulk (length : Nat) (input : Bytes) :
    Leaves input.length (parseBulk length input) := by
  intro v rest he
  unfold parseBulk at he
  split at he
  · cases he
  · rename_i data tail hs
    have : tail.length ≤ input.length := by
      unfold Bytes.splitAt? at hs
      simp only at hs
      split at hs
      · cases hs; simp
      · cases hs
    split at he <;> cases he
    simp at this
    omega

theorem leaves_parseItems {parseItem : Bytes → Outcome}
    (h : ∀ input, Leaves input.length (parseItem input)) (seen : List Value) (missing : Nat)
    (input : Bytes) : Leaves input.length (parseItems parseItem seen missing input) := by
  induction missing generalizing seen input with
  | zero => intro v rest he; cases he; exact Nat.le_refl _
  | succ missing ih =>
    intro v rest he
    unfold parseItems at he
    split at he
    · rename_i item tail hi
      exact Nat.le_trans (ih _ _ v rest he) (h input item tail hi)
    · cases he
    · cases he

/-- A value takes at least one byte. -/
theorem length_lt_of_parseWithin (limits : Limits) {levels : Nat} {input : Bytes} {v : Value}
    {rest : Bytes} (h : parseWithin limits levels input = .value v rest) :
    rest.length < input.length := by
  have done : ∀ (input : Bytes) (v : Value) (rest : Bytes), rest.length ≤ input.length →
      Leaves input.length (.value v rest) := fun _ _ _ hr _ _ he => by cases he; exact hr
  have wrong : ∀ (n : Nat) (fault : Fault), Leaves n (.invalid fault) :=
    fun _ _ _ _ he => by cases he
  induction levels generalizing input v rest with
  | zero =>
    unfold parseWithin at h
    split at h
    · cases h
    · exact Nat.lt_succ_of_le (leaves_withLine (fun _ r hr => done _ _ r hr) v rest h)
    · exact Nat.lt_succ_of_le (leaves_withLine (fun _ r hr => done _ _ r hr) v rest h)
    · exact Nat.lt_succ_of_le (leaves_withNumber (fun _ r hr => done _ _ r hr) v rest h)
    · refine Nat.lt_succ_of_le (leaves_withNumber (fun n r hr => ?_) v rest h)
      split
      · exact done _ _ r hr
      · split
        · exact wrong _ _
        · exact fun v rest he => Nat.le_trans (leaves_parseBulk _ r v rest he) hr
    · cases h
    · cases h
  | succ levels ih =>
    unfold parseWithin at h
    split at h
    · cases h
    · exact Nat.lt_succ_of_le (leaves_withLine (fun _ r hr => done _ _ r hr) v rest h)
    · exact Nat.lt_succ_of_le (leaves_withLine (fun _ r hr => done _ _ r hr) v rest h)
    · exact Nat.lt_succ_of_le (leaves_withNumber (fun _ r hr => done _ _ r hr) v rest h)
    · refine Nat.lt_succ_of_le (leaves_withNumber (fun n r hr => ?_) v rest h)
      split
      · exact done _ _ r hr
      · split
        · exact wrong _ _
        · exact fun v rest he => Nat.le_trans (leaves_parseBulk _ r v rest he) hr
    · refine Nat.lt_succ_of_le (leaves_withNumber (fun n r hr => ?_) v rest h)
      split
      · exact done _ _ r hr
      · split
        · exact wrong _ _
        · exact fun v rest he => Nat.le_trans
            (leaves_parseItems (fun _ _ _ hi => Nat.le_of_lt (ih hi)) _ _ r v rest he) hr
    · cases h

theorem length_lt_of_parse {limits : Limits} {input : Bytes} {v : Value} {rest : Bytes}
    (h : parse limits input = .value v rest) : rest.length < input.length :=
  length_lt_of_parseWithin limits h

end Value

end Telemetry.Resp
