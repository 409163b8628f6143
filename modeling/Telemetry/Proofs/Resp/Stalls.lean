import Telemetry.Proofs.Resp.Incremental
import Mathlib

/-!
# Input that is never decided

A reader that asks for more bytes can nearly always be satisfied: a line can be ended, the bytes of a
byte string and the elements of an array can follow. There is one exception. A carriage return with
another byte than a line feed behind it neither ends its line nor is it refused, so nothing that
follows is ever looked at, at whatever depth the line stands.

## Main definitions

* `Value.Strays`: a line goes on behind a carriage return.
* `Value.Stalls`: the value that is being read, or the element of an array in it, has such a line.

## Main statements

* `Value.parse_append_of_stalls`: what stalls is incomplete, and so is everything that begins with it.
* `Value.exists_decided_iff`: nothing else is incomplete for good.
-/
namespace Telemetry.Resp.Value

variable {limits : Limits} {levels : Nat} {input line rest more : Bytes}

/-- Whether a line goes on behind a carriage return. -/
def Strays (input : Bytes) : Prop :=
  ∃ line b rest, 13 ∉ line ∧ b ≠ 10 ∧ input = line ++ 13 :: b :: rest

/-- The types of the values that begin with a line, within so many levels of arrays. -/
inductive HasLine : Nat → UInt8 → Prop where
  | simple {levels : Nat} : HasLine levels 43
  | error {levels : Nat} : HasLine levels 45
  | integer {levels : Nat} : HasLine levels 58
  | bulk {levels : Nat} : HasLine levels 36
  | array {levels : Nat} : HasLine (levels + 1) 42

/-- Whether the line with which a value begins goes on behind a carriage return, or an array is
begun, and this is so of the element behind those that are whole. -/
inductive Stalls (limits : Limits) : Nat → Bytes → Prop where
  | line {levels : Nat} {type : UInt8} {input : Bytes} (htype : HasLine levels type)
      (h : Strays input) : Stalls limits levels (type :: input)
  | element {levels k : Nat} {line input : Bytes} {n : Int64} {items : List Value}
      {parts : List Bytes} (hn : HoldsNumber line n) (hk : n.toInt = k)
      (hmax : k ≤ limits.maxArray) (hparts : List.Forall₂ (Spells limits levels) items parts)
      (hmissing : items.length < k) (h : Stalls limits levels input) :
      Stalls limits (levels + 1) (header 42 line ++ parts.flatten ++ input)

/-! ## What stalls is incomplete for good -/

theorem Strays.append (h : Strays input) (more : Bytes) : Strays (input ++ more) := by
  obtain ⟨line, b, rest, hline, hb, rfl⟩ := h
  exact ⟨line, b, rest ++ more, hline, hb, by simp⟩

theorem Stalls.append (h : Stalls limits levels input) (more : Bytes) :
    Stalls limits levels (input ++ more) := by
  induction h with
  | line htype h => exact .line htype (h.append more)
  | element hn hk hmax hparts hmissing h ih =>
    rw [List.append_assoc]
    exact .element hn hk hmax hparts hmissing ih

/-- Only the first carriage return can end a line. -/
theorem line?_of_strays (h : Strays input) : line? input = none := by
  obtain ⟨line, b, rest, hline, hb, rfl⟩ := h
  have hall : ∀ c ∈ line, (c != 13) = true := by
    intro c hc
    have hne : c ≠ 13 := fun heq => hline (heq ▸ hc)
    simpa using hne
  have hdrop : (line ++ 13 :: b :: rest).dropWhile (· != 13) = 13 :: b :: rest := by
    rw [List.dropWhile_append_of_pos hall]
    simp
  rw [line?, hdrop]
  split
  · rename_i heq
    simp only [List.cons.injEq] at heq
    exact absurd heq.2.1 hb
  · rfl

theorem withLine_of_strays (h : Strays input) (next : Bytes → Bytes → Outcome) :
    withLine input next = .incomplete := by
  rw [withLine, line?_of_strays h]

theorem Stalls.parseWithin_eq (h : Stalls limits levels input) :
    parseWithin limits levels input = .incomplete := by
  induction h with
  | @line levels type input htype h =>
    cases htype with
    | simple => rw [parseWithin_simple, withLine_of_strays h]
    | error => rw [parseWithin_error, withLine_of_strays h]
    | integer => rw [parseWithin_integer, withNumber, withLine_of_strays h]
    | bulk => rw [parseWithin_bulk, withLength, withNumber, withLine_of_strays h]
    | array => rw [parseWithin_array_succ, withLength, withNumber, withLine_of_strays h]
  | @element levels k line input n items parts hn hk hmax hparts hmissing h ih =>
    obtain ⟨hne, hneg, htoNat⟩ := length_of_toInt_eq hk
    have hline : line? (line ++ lineEnd ++ (parts.flatten ++ input))
        = some (line, parts.flatten ++ input) := line?_eq_some_iff.mpr ⟨hn.1, rfl⟩
    obtain ⟨missing, hlength⟩ : ∃ missing, k = items.length + (missing + 1) :=
      ⟨k - items.length - 1, by omega⟩
    rw [List.append_assoc, header_append, parseWithin_array_succ, withLength, withNumber, withLine,
      hline]
    simp only [hn.2, if_neg hne, hneg, htoNat, false_or, if_neg (Nat.not_lt.mpr hmax)]
    rw [hlength, parseItems_append parseWithin_append_of_spells hparts, parseItems, ih]

theorem parse_append_of_stalls (h : Stalls limits limits.maxDepth input) (more : Bytes) :
    parse limits (input ++ more) = .incomplete := (h.append more).parseWithin_eq

/-! ## Everything else can be decided -/

theorem value_ne_incomplete : Outcome.value v rest ≠ .incomplete := by
  intro h
  cases h

theorem invalid_ne_incomplete {fault : Fault} : Outcome.invalid fault ≠ .incomplete := by
  intro h
  cases h

/-- Whether some continuation of an input is decided. -/
def Decides (read : Bytes → Outcome) (input : Bytes) : Prop :=
  ∃ more, read (input ++ more) ≠ .incomplete

theorem Decides.of_ne {read : Bytes → Outcome} (h : read input ≠ .incomplete) :
    Decides read input := ⟨[], by rwa [List.append_nil]⟩

theorem Decides.of_value {read : Bytes → Outcome} (h : read input = .value v rest) :
    Decides read input := .of_ne (h ▸ value_ne_incomplete)

theorem Decides.of_invalid {read : Bytes → Outcome} {fault : Fault}
    (h : read input = .invalid fault) : Decides read input := .of_ne (h ▸ invalid_ne_incomplete)

theorem Decides.of_append {read : Bytes → Outcome} (h : Decides read (input ++ more)) :
    Decides read input := by
  obtain ⟨more', h⟩ := h
  exact ⟨more ++ more', by rwa [← List.append_assoc]⟩

/-- A line that has not ended yet goes on behind a carriage return, or it can be ended. -/
theorem strays_or_exists_line (h : line? input = none) :
    Strays input ∨ ∃ line ending, line? (input ++ ending) = some (line, []) := by
  by_cases hcr : 13 ∈ input
  · obtain ⟨line, tail, rfl, hline⟩ := List.eq_append_cons_of_mem hcr
    match tail with
    | [] =>
      refine .inr ⟨line, [10], line?_eq_some_iff.mpr ⟨hline, ?_⟩⟩
      simp [lineEnd]
    | b :: rest =>
      refine .inl ⟨line, b, rest, hline, ?_, rfl⟩
      rintro rfl
      have hsome : line? (line ++ 13 :: 10 :: rest) = some (line, rest) :=
        line?_eq_some_iff.mpr ⟨hline, by simp [lineEnd]⟩
      rw [h] at hsome
      cases hsome
  · refine .inr ⟨input, lineEnd, line?_eq_some_iff.mpr ⟨hcr, ?_⟩⟩
    rw [List.append_nil]

theorem decides_withLine {next : Bytes → Bytes → Outcome} (hl : line? input = some (line, rest))
    (h : Decides (next line) rest) : Decides (fun input => withLine input next) input := by
  obtain ⟨more, h⟩ := h
  refine ⟨more, ?_⟩
  simp only [withLine, line?_append hl]
  exact h

/-- What is behind a line can be decided, or something is the matter with it, if there is anything
behind the line at all. -/
theorem withLine_decides {next : Bytes → Bytes → Outcome} {Q : Prop}
    (hnext : ∀ line rest, 13 ∉ line → input = line ++ lineEnd ++ rest →
      Q ∨ Decides (next line) rest)
    (hend : ∀ line, Decides (next line) []) :
    Strays input ∨ Q ∨ Decides (fun input => withLine input next) input := by
  cases hl : line? input with
  | some p =>
    obtain ⟨hline, hinput⟩ := line?_eq_some_iff.mp hl
    rcases hnext p.1 p.2 hline hinput with hq | hd
    · exact .inr (.inl hq)
    · exact .inr (.inr (decides_withLine hl hd))
  | none =>
    rcases strays_or_exists_line hl with hs | ⟨line, ending, hl⟩
    · exact .inl hs
    · exact .inr (.inr (decides_withLine hl (hend line)).of_append)

theorem withNumber_decides {next : Int64 → Bytes → Outcome} {Q : Prop}
    (hnext : ∀ line n rest, HoldsNumber line n → input = line ++ lineEnd ++ rest →
      Q ∨ Decides (next n) rest)
    (hend : ∀ n, Decides (next n) []) :
    Strays input ∨ Q ∨ Decides (fun input => withNumber input next) input := by
  refine withLine_decides (fun line rest hline hinput => ?_) fun line => ?_
  · cases hn : readNumber line with
    | error fault => exact .inr (.of_invalid rfl)
    | ok n => exact hnext line n rest ⟨hline, hn⟩ hinput
  · cases hn : readNumber line with
    | error fault => exact .of_invalid rfl
    | ok n => exact hend n

theorem withLength_decides {max : Nat} {nothing : Value} {fault : Int64 → Fault}
    {body : Nat → Bytes → Outcome} {Q : Prop}
    (hbody : ∀ line n k rest, HoldsNumber line n → n.toInt = (k : Nat) → k ≤ max →
      input = line ++ lineEnd ++ rest → Q ∨ Decides (body k) rest)
    (hend : ∀ k, Decides (body k) []) :
    Strays input ∨ Q ∨ Decides (withLength max nothing fault body) input := by
  have hnone : ∀ rest, Decides (fun rest => Outcome.value nothing rest) rest :=
    fun rest => .of_value rfl
  have hwrong : ∀ n rest, Decides (fun _ => Outcome.invalid (fault n)) rest :=
    fun n rest => .of_invalid rfl
  refine withNumber_decides (fun line n rest hn hinput => ?_) fun n => ?_
  · by_cases hnil : n = -1
    · simp only [if_pos hnil]
      exact .inr (hnone rest)
    · by_cases hbad : n < 0 ∨ max < n.toInt.toNat
      · simp only [if_neg hnil, if_pos hbad]
        exact .inr (hwrong n rest)
      · simp only [if_neg hnil, if_neg hbad]
        rw [Int64.lt_iff_toInt_lt, Int64.toInt_zero, not_or] at hbad
        exact hbody line n n.toInt.toNat rest hn (by omega) (by omega) hinput
  · by_cases hnil : n = -1
    · simp only [if_pos hnil]
      exact hnone []
    · by_cases hbad : n < 0 ∨ max < n.toInt.toNat
      · simp only [if_neg hnil, if_pos hbad]
        exact hwrong n []
      · simp only [if_neg hnil, if_neg hbad]
        exact hend _

/-- A byte string is decided once there are as many bytes as were announced and two more. -/
theorem decides_parseBulk (length : Nat) (input : Bytes) : Decides (parseBulk length) input := by
  refine ⟨List.replicate (length + 2) 0, ?_⟩
  have hlength : length + 2 ≤ (input ++ List.replicate (length + 2) 0).length := by
    rw [List.length_append, List.length_replicate]
    omega
  obtain ⟨data, a, b, rest, rfl, heq⟩ := exists_of_length_add_two_le hlength
  rw [heq, parseBulk_append]
  split_ifs
  · exact value_ne_incomplete
  · exact invalid_ne_incomplete

theorem Decides.cons {read readBody : Bytes → Outcome} {type : UInt8} (h : Decides readBody input)
    (hread : ∀ input, read (type :: input) = readBody input) : Decides read (type :: input) := by
  obtain ⟨more, h⟩ := h
  refine ⟨more, ?_⟩
  rw [List.cons_append, hread]
  exact h

theorem parseWithin_zero_byte (rest : Bytes) :
    parseWithin limits levels (0 :: rest) = .invalid (.unknownType 0) := by
  cases levels <;> rfl

/-- What is incomplete and can be decided can be ended just where its value ends. -/
theorem Decides.exists_end (h : Decides (parseWithin limits levels) input)
    (hinput : parseWithin limits levels input = .incomplete) :
    ∃ more, (∃ v, parseWithin limits levels (input ++ more) = .value v []) ∨
      ∃ fault, parseWithin limits levels (input ++ more) = .invalid fault := by
  obtain ⟨more, h⟩ := h
  cases hp : parseWithin limits levels (input ++ more) with
  | incomplete => exact absurd hp h
  | invalid fault => exact ⟨more, .inr ⟨fault, hp⟩⟩
  | value v rest =>
    obtain ⟨used, hs, heq⟩ := exists_spells_of_parseWithin hp
    rcases List.append_eq_append_iff.mp heq with ⟨tail, rfl, -⟩ | ⟨tail, rfl, -⟩
    · refine ⟨tail, .inl ⟨v, ?_⟩⟩
      rw [← List.append_nil (input ++ tail)]
      exact parseWithin_append_of_spells hs
    · rw [parseWithin_append_of_spells hs] at hinput
      cases hinput

/-- The elements of an array can be decided, or the one behind those that are whole stalls. -/
theorem parseItems_decides
    (hitem : ∀ input, Stalls limits levels input ∨ Decides (parseWithin limits levels) input)
    (seen : List Value) (missing : Nat) (input : Bytes) :
    (∃ items parts tail, List.Forall₂ (Spells limits levels) items parts ∧
        items.length < missing ∧ input = parts.flatten ++ tail ∧ Stalls limits levels tail) ∨
      Decides (parseItems (parseWithin limits levels) seen missing) input := by
  induction missing generalizing seen input with
  | zero => exact .inr (.of_value rfl)
  | succ missing ih =>
    cases hi : parseWithin limits levels input with
    | invalid fault =>
      have hinvalid : parseItems (parseWithin limits levels) seen (missing + 1) input
          = .invalid fault := by rw [parseItems, hi]
      exact .inr (.of_invalid hinvalid)
    | value v rest =>
      rcases ih (v :: seen) rest with ⟨items, parts, tail, hparts, hmissing, rfl, hs⟩ | ⟨more, hd⟩
      · obtain ⟨used, hu, rfl⟩ := exists_spells_of_parseWithin hi
        refine .inl ⟨v :: items, used :: parts, tail, .cons hu hparts, ?_, ?_, hs⟩
        · rw [List.length_cons]
          omega
        · rw [List.flatten_cons, List.append_assoc]
      · refine .inr ⟨more, ?_⟩
        have hmore := settles_parseWithin limits levels input more (hi ▸ value_ne_incomplete)
        rw [hi, Outcome.append] at hmore
        rw [parseItems, hmore]
        exact hd
    | incomplete =>
      rcases hitem input with hs | hd
      · exact .inl ⟨[], [], input, .nil, Nat.succ_pos _, rfl, hs⟩
      -- the element ends with the bytes that are added, and a byte that is no type decides the rest
      · obtain ⟨more, ⟨v, hv⟩ | ⟨fault, hf⟩⟩ := hd.exists_end hi
        · refine .inr ⟨more ++ [0], ?_⟩
          have hmore := settles_parseWithin limits levels (input ++ more) [0] (hv ▸ value_ne_incomplete)
          rw [hv, Outcome.append, List.nil_append] at hmore
          rw [← List.append_assoc, parseItems, hmore]
          cases missing with
          | zero => exact value_ne_incomplete
          | succ missing =>
            simp only [parseItems, parseWithin_zero_byte]
            exact invalid_ne_incomplete
        · refine .inr ⟨more, ?_⟩
          rw [parseItems, hf]
          exact invalid_ne_incomplete

theorem not_stalls_nil : ¬ Stalls limits levels [] := by
  intro h
  have hdecided := h.append [0] |>.parseWithin_eq
  rw [List.nil_append, parseWithin_zero_byte] at hdecided
  cases hdecided

theorem stalls_or_decides (limits : Limits) (levels : Nat) (input : Bytes) :
    Stalls limits levels input ∨ Decides (parseWithin limits levels) input := by
  -- only the elements of an array are read at another level, at a lower one
  induction levels using Nat.strong_induction_on generalizing input with
  | _ levels ih =>
  cases input with
  | nil =>
    refine .inr ⟨[0], ?_⟩
    rw [List.nil_append, parseWithin_zero_byte]
    exact invalid_ne_incomplete
  | cons type input =>
    have hline : ∀ value : Bytes → Value, Strays input ∨ False ∨
        Decides (fun input => withLine input fun line rest => .value (value line) rest) input :=
      fun value => withLine_decides (fun _ _ _ _ => .inr (.of_value rfl)) fun _ => .of_value rfl
    rcases type_cases type with rfl | rfl | rfl | rfl | rfl | hother
    · rcases hline fun line => .simple line.toTextLossy with hs | hq | hd
      · exact .inl (.line .simple hs)
      · exact hq.elim
      · exact .inr (hd.cons fun _ => parseWithin_simple)
    · rcases hline fun line => .error line.toTextLossy with hs | hq | hd
      · exact .inl (.line .error hs)
      · exact hq.elim
      · exact .inr (hd.cons fun _ => parseWithin_error)
    · have hnumber : Strays input ∨ False ∨
          Decides (fun input => withNumber input fun n rest => .value (.integer n) rest) input :=
        withNumber_decides (fun _ _ _ _ _ => .inr (.of_value rfl)) fun _ => .of_value rfl
      rcases hnumber with hs | hq | hd
      · exact .inl (.line .integer hs)
      · exact hq.elim
      · exact .inr (hd.cons fun _ => parseWithin_integer)
    · have hbulk : Strays input ∨ False ∨
          Decides (withLength limits.maxBulk .nilBulk .bulkLength parseBulk) input :=
        withLength_decides (fun _ _ k rest _ _ _ _ => .inr (decides_parseBulk k rest))
          fun k => decides_parseBulk k []
      rcases hbulk with hs | hq | hd
      · exact .inl (.line .bulk hs)
      · exact hq.elim
      · exact .inr (hd.cons fun _ => parseWithin_bulk)
    · cases levels with
      | zero =>
        exact .inr (.of_invalid parseWithin_array_zero)
      | succ levels =>
        have hitems := parseItems_decides (ih levels (Nat.lt_succ_self _)) []
        have harray : Strays input ∨ Stalls limits (levels + 1) (42 :: input) ∨
            Decides (withLength limits.maxArray .nilArray .arrayLength
              (parseItems (parseWithin limits levels) [])) input := by
          refine withLength_decides (fun line n k rest hn hk hmax hinput => ?_) fun k => ?_
          · rcases hitems k rest with ⟨items, parts, tail, hparts, hmissing, rfl, hs⟩ | hd
            · refine .inl ?_
              rw [hinput, ← header_append, ← List.append_assoc]
              exact .element hn hk hmax hparts hmissing hs
            · exact .inr hd
          · rcases hitems k [] with ⟨items, parts, tail, -, -, heq, hs⟩ | hd
            · rw [(List.append_eq_nil_iff.mp heq.symm).2] at hs
              exact absurd hs not_stalls_nil
            · exact hd
        rcases harray with hs | hs | hd
        · exact .inl (.line .array hs)
        · exact .inl hs
        · exact .inr (hd.cons fun _ => parseWithin_array_succ)
    · exact .inr (.of_invalid (hother ..))

/-- Of what has arrived, some continuation is decided unless the value that is being read stalls. If
it does, no continuation is. -/
theorem exists_decided_iff (limits : Limits) (input : Bytes) :
    (∃ more, parse limits (input ++ more) ≠ .incomplete) ↔
      ¬ Stalls limits limits.maxDepth input := by
  constructor
  · rintro ⟨more, hdecided⟩ hs
    exact hdecided (parse_append_of_stalls hs more)
  · intro hs
    rcases stalls_or_decides limits limits.maxDepth input with h | h
    · exact absurd h hs
    · exact h

/-- A text with a carriage return inside, and an array in which the length of the second element has
one: no bytes behind them are ever answered. -/
theorem exists_decided_iff_stray :
    (¬ ∃ more, parse .peer (Bytes.ofText "+a\rb\r\n" ++ more) ≠ .incomplete) ∧
      ¬ ∃ more, parse .request (Bytes.ofText "*2\r\n:1\r\n$1\r0\r\n" ++ more) ≠ .incomplete := by
  have htext : Stalls .peer Limits.peer.maxDepth (Bytes.ofText "+a\rb\r\n") :=
    .line .simple ⟨[97], 98, [13, 10], by decide, by decide, rfl⟩
  have hlength : Stalls .request 1 (Bytes.ofText "$1\r0\r\n") :=
    .line .bulk ⟨[49], 48, [13, 10], by decide, by decide, rfl⟩
  have hfirst : Spells .request 1 (.integer 1) (Bytes.ofText ":1\r\n") := by
    rw [Spells]
    exact ⟨[49], ⟨by decide, rfl⟩, rfl⟩
  have htwo : HoldsNumber [50] 2 := ⟨by decide, rfl⟩
  have hannounced : (2 : Int64).toInt = (2 : Nat) := rfl
  have harray : Stalls .request 2 (Bytes.ofText "*2\r\n:1\r\n$1\r0\r\n") :=
    .element htwo hannounced (by decide) (.cons hfirst .nil) (by decide) hlength
  exact ⟨fun h => (exists_decided_iff _ _).mp h htext,
    fun h => (exists_decided_iff _ _).mp h harray⟩

end Telemetry.Resp.Value
