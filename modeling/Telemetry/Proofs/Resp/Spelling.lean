import Telemetry.Resp.Codec
import Telemetry.Proofs.Text.LineBreak
import Mathlib

/-!
# Spellings of a value

Some values can be written in more than one way: a length may have a sign or leading zeros, and a
line that is not UTF-8 is read all the same. `Value.Spells` is the grammar of what is accepted,
stated without the reader. The reader returns a value exactly if the input begins with one of its
spellings, and it then takes off that spelling and nothing else (`Value.parse_eq_value_iff`).

## Main definitions

* `Value.Spells`: whether bytes spell a value within some bounds.
* `Value.withLength`: a header with a length, as byte strings and arrays both have it.
-/
namespace Telemetry.Resp.Value

variable {limits : Limits} {levels : Nat} {input line rest : Bytes} {v : Value}

/-! ## Lines -/

/-- A line is what stands before a carriage return that a line feed follows. -/
theorem line?_eq_some_iff :
    line? input = some (line, rest) ↔ 13 ∉ line ∧ input = line ++ lineEnd ++ rest := by
  constructor
  · intro h
    unfold line? at h
    split at h
    · rename_i c tail hd
      cases h
      have hc : c = 13 := by
        have := List.head?_dropWhile_not (· != 13) input
        rw [hd] at this
        simpa using this
      subst hc
      constructor
      · intro hm
        have := List.mem_takeWhile_imp hm
        simp at this
      · conv_lhs => rw [← List.takeWhile_append_dropWhile (p := (· != 13)) (l := input), hd]
        simp [lineEnd]
    · cases h
  · rintro ⟨hl, rfl⟩
    have hall : ∀ b ∈ line, (b != 13) = true := by
      intro b hb
      have : b ≠ 13 := fun h => hl (h ▸ hb)
      simpa using this
    have hd : (line ++ lineEnd ++ rest).dropWhile (· != 13) = 13 :: 10 :: rest := by
      rw [List.append_assoc, List.dropWhile_append_of_pos hall]
      rfl
    have ht : (line ++ lineEnd ++ rest).takeWhile (· != 13) = line := by
      rw [List.append_assoc, List.takeWhile_append_of_pos hall]
      simp [lineEnd]
    unfold line?
    rw [hd]
    simp only [ht]

/-- What follows makes no difference to a line that has ended. -/
theorem line?_append (h : line? input = some (line, rest)) (more : Bytes) :
    line? (input ++ more) = some (line, rest ++ more) := by
  obtain ⟨hline, rfl⟩ := line?_eq_some_iff.mp h
  exact line?_eq_some_iff.mpr ⟨hline, List.append_assoc ..⟩

/-- Whether a line holds an integer. -/
def HoldsNumber (line : Bytes) (n : Int64) : Prop := 13 ∉ line ∧ readNumber line = .ok n

theorem withLine_eq_value_iff {next : Bytes → Bytes → Outcome} :
    withLine input next = .value v rest ↔ ∃ line tail,
      13 ∉ line ∧ input = line ++ lineEnd ++ tail ∧ next line tail = .value v rest := by
  unfold withLine
  constructor
  · intro h
    split at h
    · cases h
    · rename_i line tail hl
      obtain ⟨hline, hin⟩ := line?_eq_some_iff.mp hl
      exact ⟨line, tail, hline, hin, h⟩
  · rintro ⟨line, tail, hline, hin, h⟩
    rw [line?_eq_some_iff.mpr ⟨hline, hin⟩]
    exact h

theorem withNumber_eq_value_iff {next : Int64 → Bytes → Outcome} :
    withNumber input next = .value v rest ↔ ∃ line n tail,
      HoldsNumber line n ∧ input = line ++ lineEnd ++ tail ∧ next n tail = .value v rest := by
  unfold withNumber
  rw [withLine_eq_value_iff]
  constructor
  · rintro ⟨line, tail, hline, hin, h⟩
    split at h
    · cases h
    · exact ⟨line, _, tail, ⟨hline, ‹_›⟩, hin, h⟩
  · rintro ⟨line, n, tail, ⟨hline, hn⟩, hin, h⟩
    refine ⟨line, tail, hline, hin, ?_⟩
    rw [hn]
    exact h

/-! ## Lengths -/

/-- Cuts off a line that holds a length: `nothing` is there for the length `-1`, and `body` reads
what has any other length. -/
def withLength (max : Nat) (nothing : Value) (fault : Int64 → Fault) (body : Nat → Bytes → Outcome)
    (input : Bytes) : Outcome :=
  withNumber input fun n rest =>
    if n = -1 then .value nothing rest
    else if n < 0 ∨ max < n.toInt.toNat then .invalid (fault n)
    else body n.toInt.toNat rest

/-- A length that is not negative announces something. -/
theorem length_of_toInt_eq {n : Int64} {k : Nat} (h : n.toInt = k) :
    n ≠ -1 ∧ ¬ n < 0 ∧ n.toInt.toNat = k := by
  refine ⟨?_, ?_, by omega⟩
  · rintro rfl
    simp at h
  · rw [Int64.lt_iff_toInt_lt, h]
    simp

theorem withLength_eq_value_iff {max : Nat} {nothing : Value} {fault : Int64 → Fault}
    {body : Nat → Bytes → Outcome} :
    withLength max nothing fault body input = .value v rest ↔
      (∃ line, HoldsNumber line (-1) ∧ v = nothing ∧ input = line ++ lineEnd ++ rest) ∨
      ∃ line n k tail, HoldsNumber line n ∧ n.toInt = (k : Nat) ∧ k ≤ max ∧
        input = line ++ lineEnd ++ tail ∧ body k tail = .value v rest := by
  unfold withLength
  rw [withNumber_eq_value_iff]
  constructor
  · rintro ⟨line, n, tail, hn, hin, h⟩
    split at h
    · subst n
      cases h
      exact .inl ⟨line, hn, rfl, hin⟩
    · split at h
      · cases h
      · rename_i hbound
        rw [Int64.lt_iff_toInt_lt] at hbound
        simp only [Int64.toInt_zero, not_or] at hbound
        exact .inr ⟨line, n, n.toInt.toNat, tail, hn, by omega, by omega, hin, h⟩
  · rintro (⟨line, hn, rfl, hin⟩ | ⟨line, n, k, tail, hn, hk, hmax, hin, h⟩)
    · exact ⟨line, -1, rest, hn, hin, if_pos rfl⟩
    · obtain ⟨hne, hneg, htoNat⟩ := length_of_toInt_eq hk
      refine ⟨line, n, tail, hn, hin, ?_⟩
      rw [if_neg hne, if_neg (not_or.mpr ⟨hneg, by omega⟩), htoNat]
      exact h

/-! ## Bodies -/

theorem parseBulk_eq_value_iff {length : Nat} :
    parseBulk length input = .value v rest ↔
      ∃ data, data.length = length ∧ v = .bulk data ∧ input = data ++ lineEnd ++ rest := by
  unfold parseBulk
  constructor
  · intro h
    split at h
    · cases h
    · rename_i data tail hs
      obtain ⟨hlen, hin⟩ := Bytes.splitAt?_eq_some_iff.mp hs
      split at h <;> cases h
      exact ⟨data, hlen, rfl, by simpa [lineEnd] using hin⟩
  · rintro ⟨data, hlen, rfl, hin⟩
    have hs : input.splitAt? length = some (data, lineEnd ++ rest) :=
      Bytes.splitAt?_eq_some_iff.mpr ⟨hlen, by rw [hin, List.append_assoc]⟩
    rw [hs]
    rfl

/-- If single values are spelled before they are read, then so are the elements of an array. -/
theorem exists_of_parseItems {parseItem : Bytes → Outcome} {S : Value → Bytes → Prop}
    (hS : ∀ {input v rest},
      parseItem input = .value v rest → ∃ used, S v used ∧ input = used ++ rest)
    {seen : List Value} {missing : Nat}
    (h : parseItems parseItem seen missing input = .value v rest) :
    ∃ items parts, items.length = missing ∧ v = .array (seen.reverse ++ items) ∧
      List.Forall₂ S items parts ∧ input = parts.flatten ++ rest := by
  induction missing generalizing seen input with
  | zero =>
    cases h
    exact ⟨[], [], rfl, by simp, .nil, rfl⟩
  | succ missing ih =>
    unfold parseItems at h
    split at h
    · rename_i item tail hi
      obtain ⟨used, hu, rfl⟩ := hS hi
      obtain ⟨items, parts, hlen, rfl, hp, rfl⟩ := ih h
      exact ⟨item :: items, used :: parts, by simp [hlen], by simp, .cons hu hp, by simp⟩
    · cases h
    · cases h

/-- Elements that are whole are taken off before the next one is looked at. -/
theorem parseItems_append {parseItem : Bytes → Outcome} {S : Value → Bytes → Prop}
    (hS : ∀ {v used rest}, S v used → parseItem (used ++ rest) = .value v rest)
    {items : List Value} {parts : List Bytes} (hp : List.Forall₂ S items parts)
    (seen : List Value) (missing : Nat) (rest : Bytes) :
    parseItems parseItem seen (items.length + missing) (parts.flatten ++ rest)
      = parseItems parseItem (items.reverse ++ seen) missing rest := by
  induction hp generalizing seen with
  | nil => simp
  | @cons item used items parts hu hp ih =>
    have hlength : (item :: items).length + missing = (items.length + missing) + 1 := by
      rw [List.length_cons]
      omega
    rw [hlength, List.flatten_cons, List.append_assoc, parseItems, hS hu]
    simp only [ih, List.reverse_cons, List.append_assoc, List.singleton_append]

theorem parseItems_flatten {parseItem : Bytes → Outcome} {S : Value → Bytes → Prop}
    (hS : ∀ {v used rest}, S v used → parseItem (used ++ rest) = .value v rest)
    {seen items : List Value} {parts : List Bytes} (hp : List.Forall₂ S items parts) :
    parseItems parseItem seen items.length (parts.flatten ++ rest)
      = .value (.array (seen.reverse ++ items)) rest := by
  have hall := parseItems_append hS hp seen 0 rest
  rw [Nat.add_zero, parseItems, List.reverse_append, List.reverse_reverse] at hall
  exact hall

/-! ## The forms of a value -/

theorem parseWithin_nil : parseWithin limits levels [] = .incomplete := by cases levels <;> rfl

theorem parseWithin_simple : parseWithin limits levels (43 :: input)
    = withLine input fun line rest => .value (.simple line.toTextLossy) rest := by
  cases levels <;> rfl

theorem parseWithin_error : parseWithin limits levels (45 :: input)
    = withLine input fun line rest => .value (.error line.toTextLossy) rest := by
  cases levels <;> rfl

theorem parseWithin_integer : parseWithin limits levels (58 :: input)
    = withNumber input fun n rest => .value (.integer n) rest := by
  cases levels <;> rfl

theorem parseWithin_bulk : parseWithin limits levels (36 :: input)
    = withLength limits.maxBulk .nilBulk .bulkLength parseBulk input := by
  cases levels <;> rfl

theorem parseWithin_array_zero :
    parseWithin limits 0 (42 :: input) = .invalid (.tooDeep limits.maxDepth) := rfl

theorem parseWithin_array_succ : parseWithin limits (levels + 1) (42 :: input)
    = withLength limits.maxArray .nilArray .arrayLength
        (parseItems (parseWithin limits levels) []) input := rfl

/-- No value begins with a byte that is none of the five type bytes. -/
theorem type_cases (type : UInt8) :
    type = 43 ∨ type = 45 ∨ type = 58 ∨ type = 36 ∨ type = 42 ∨ ∀ limits levels input,
      parseWithin limits levels (type :: input) = .invalid (.unknownType type) := by
  by_cases h₁ : type = 43
  · exact .inl h₁
  by_cases h₂ : type = 45
  · exact .inr (.inl h₂)
  by_cases h₃ : type = 58
  · exact .inr (.inr (.inl h₃))
  by_cases h₄ : type = 36
  · exact .inr (.inr (.inr (.inl h₄)))
  by_cases h₅ : type = 42
  · exact .inr (.inr (.inr (.inr (.inl h₅))))
  · refine .inr (.inr (.inr (.inr (.inr fun limits levels input => ?_))))
    unfold parseWithin
    split <;> simp_all

/-! ## The grammar -/

/-- A type byte and its line. -/
def header (type : UInt8) (line : Bytes) : Bytes := type :: line ++ lineEnd

theorem header_append (type : UInt8) (line rest : Bytes) :
    header type line ++ rest = type :: (line ++ lineEnd ++ rest) := by simp [header]

/-- Whether bytes spell a value in which arrays nest at most `levels` deep and arrays and byte
strings keep to their bounds. -/
def Spells (limits : Limits) (levels : Nat) : Value → Bytes → Prop
  | .simple t, used => ∃ line, 13 ∉ line ∧ t = line.toTextLossy ∧ used = header 43 line
  | .error t, used => ∃ line, 13 ∉ line ∧ t = line.toTextLossy ∧ used = header 45 line
  | .integer n, used => ∃ line, HoldsNumber line n ∧ used = header 58 line
  | .bulk data, used => ∃ line n, HoldsNumber line n ∧ n.toInt = data.length ∧
      data.length ≤ limits.maxBulk ∧ used = header 36 line ++ data ++ lineEnd
  | .nilBulk, used => ∃ line, HoldsNumber line (-1) ∧ used = header 36 line
  | .array items, used =>
    match levels with
    | 0 => False
    | levels + 1 => ∃ line n parts, HoldsNumber line n ∧ n.toInt = items.length ∧
        items.length ≤ limits.maxArray ∧ List.Forall₂ (Spells limits levels) items parts ∧
        used = header 42 line ++ parts.flatten
  | .nilArray, used => 0 < levels ∧ ∃ line, HoldsNumber line (-1) ∧ used = header 42 line

theorem exists_spells_of_parseWithin (h : parseWithin limits levels input = .value v rest) :
    ∃ used, Spells limits levels v used ∧ input = used ++ rest := by
  -- only the elements of an array are read at another level, at a lower one
  induction levels using Nat.strong_induction_on generalizing input v rest with
  | _ levels ih =>
  cases input with
  | nil => rw [parseWithin_nil] at h; cases h
  | cons type input =>
    rcases type_cases type with rfl | rfl | rfl | rfl | rfl | hother
    · rw [parseWithin_simple, withLine_eq_value_iff] at h
      obtain ⟨line, tail, hline, rfl, h⟩ := h
      cases h
      refine ⟨header 43 line, ?_, (header_append ..).symm⟩
      rw [Spells]
      exact ⟨line, hline, rfl, rfl⟩
    · rw [parseWithin_error, withLine_eq_value_iff] at h
      obtain ⟨line, tail, hline, rfl, h⟩ := h
      cases h
      refine ⟨header 45 line, ?_, (header_append ..).symm⟩
      rw [Spells]
      exact ⟨line, hline, rfl, rfl⟩
    · rw [parseWithin_integer, withNumber_eq_value_iff] at h
      obtain ⟨line, n, tail, hn, rfl, h⟩ := h
      cases h
      refine ⟨header 58 line, ?_, (header_append ..).symm⟩
      rw [Spells]
      exact ⟨line, hn, rfl⟩
    · rw [parseWithin_bulk, withLength_eq_value_iff] at h
      obtain ⟨line, hn, rfl, rfl⟩ | ⟨line, n, k, tail, hn, hk, hmax, rfl, h⟩ := h
      · refine ⟨header 36 line, ?_, (header_append ..).symm⟩
        rw [Spells]
        exact ⟨line, hn, rfl⟩
      · obtain ⟨data, rfl, rfl, rfl⟩ := parseBulk_eq_value_iff.mp h
        refine ⟨header 36 line ++ data ++ lineEnd, ?_, by simp [header]⟩
        rw [Spells]
        exact ⟨line, n, hn, hk, hmax, rfl⟩
    · cases levels with
      | zero => rw [parseWithin_array_zero] at h; cases h
      | succ levels =>
        rw [parseWithin_array_succ, withLength_eq_value_iff] at h
        obtain ⟨line, hn, rfl, rfl⟩ | ⟨line, n, k, tail, hn, hk, hmax, rfl, h⟩ := h
        · refine ⟨header 42 line, ?_, (header_append ..).symm⟩
          rw [Spells]
          exact ⟨Nat.succ_pos _, line, hn, rfl⟩
        · obtain ⟨items, parts, rfl, rfl, hp, rfl⟩ :=
            exists_of_parseItems (ih levels (Nat.lt_succ_self _)) h
          refine ⟨header 42 line ++ parts.flatten, ?_, by simp [header]⟩
          rw [List.reverse_nil, List.nil_append, Spells]
          exact ⟨line, n, parts, hn, hk, hmax, hp, rfl⟩
    · rw [hother] at h; cases h

theorem parseWithin_append_of_spells {used : Bytes} (h : Spells limits levels v used) :
    parseWithin limits levels (used ++ rest) = .value v rest := by
  induction levels using Nat.strong_induction_on generalizing v used rest with
  | _ levels ih =>
  cases v with
  | simple t =>
    rw [Spells] at h
    obtain ⟨line, hline, rfl, rfl⟩ := h
    rw [header_append, parseWithin_simple, withLine_eq_value_iff]
    exact ⟨line, rest, hline, rfl, rfl⟩
  | error t =>
    rw [Spells] at h
    obtain ⟨line, hline, rfl, rfl⟩ := h
    rw [header_append, parseWithin_error, withLine_eq_value_iff]
    exact ⟨line, rest, hline, rfl, rfl⟩
  | integer n =>
    rw [Spells] at h
    obtain ⟨line, hn, rfl⟩ := h
    rw [header_append, parseWithin_integer, withNumber_eq_value_iff]
    exact ⟨line, n, rest, hn, rfl, rfl⟩
  | bulk data =>
    rw [Spells] at h
    obtain ⟨line, n, hn, hlen, hmax, rfl⟩ := h
    rw [List.append_assoc, List.append_assoc, header_append, parseWithin_bulk,
      withLength_eq_value_iff]
    refine .inr ⟨line, n, data.length, _, hn, hlen, hmax, rfl, ?_⟩
    exact parseBulk_eq_value_iff.mpr ⟨data, rfl, rfl, (List.append_assoc ..).symm⟩
  | nilBulk =>
    rw [Spells] at h
    obtain ⟨line, hn, rfl⟩ := h
    rw [header_append, parseWithin_bulk, withLength_eq_value_iff]
    exact .inl ⟨line, hn, rfl, rfl⟩
  | array items =>
    cases levels with
    | zero => rw [Spells] at h; exact h.elim
    | succ levels =>
      rw [Spells] at h
      obtain ⟨line, n, parts, hn, hlen, hmax, hp, rfl⟩ := h
      rw [List.append_assoc, header_append, parseWithin_array_succ, withLength_eq_value_iff]
      refine .inr ⟨line, n, _, _, hn, hlen, hmax, rfl, ?_⟩
      exact parseItems_flatten (ih levels (Nat.lt_succ_self _)) hp
  | nilArray =>
    rw [Spells] at h
    obtain ⟨hpos, line, hn, rfl⟩ := h
    obtain ⟨levels, rfl⟩ := Nat.exists_eq_add_one_of_ne_zero hpos.ne'
    rw [header_append, parseWithin_array_succ, withLength_eq_value_iff]
    exact .inl ⟨line, hn, rfl, rfl⟩

/-- The reader takes a spelling of the value off the input, and nothing else. -/
theorem parse_eq_value_iff : parse limits input = .value v rest ↔
    ∃ used, Spells limits limits.maxDepth v used ∧ input = used ++ rest := by
  constructor
  · exact exists_spells_of_parseWithin
  · rintro ⟨used, hs, rfl⟩
    exact parseWithin_append_of_spells hs

end Telemetry.Resp.Value
