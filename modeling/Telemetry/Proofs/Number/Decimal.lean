import Telemetry.Number.Integer
import Telemetry.Proofs.Text.LineBreak
import Mathlib

/-!
# Decimal texts of integers

What is written for an integer is read back by every range that holds it
(`IntegerRange.parseText_toString`), on any line: it holds no carriage return. What is read as a
number without a sign is digits, or a plus sign and digits
(`IntegerRange.parse_unsigned_eq_ok_iff`).
-/
namespace Telemetry.IntegerRange

/-! ## Digits -/

theorem digit?_of_isDigit {c : Char} (h : c.isDigit = true) : digit? c = some (c.toNat - 48) := by
  have h' : '0' ≤ c ∧ c ≤ '9' := by simpa [Char.isDigit, Char.le_def] using h
  rw [digit?, if_pos h']

theorem le_ofDigitChars (cs : List Char) (seen : Nat) : seen ≤ Nat.ofDigitChars 10 cs seen := by
  induction cs generalizing seen with
  | nil => simp
  | cons c cs ih =>
    rw [Nat.ofDigitChars_cons]
    exact le_trans (by omega) (ih _)

theorem mul_ten_add (seen : Nat) (c : Char) : (seen : Int) * 10 + ((c.toNat - 48 : Nat) : Int)
    = ((10 * seen + (c.toNat - '0'.toNat) : Nat) : Int) := by
  change _ = ((10 * seen + (c.toNat - 48) : Nat) : Int)
  omega

/-- Digits are read to the number that they write, as long as that stays in the range. -/
theorem readDigits_up {r : IntegerRange} {cs : List Char} (hd : ∀ c ∈ cs, c.isDigit = true)
    {seen : Nat} (hr : (Nat.ofDigitChars 10 cs seen : Int) ≤ r.hi) :
    r.readDigits false seen cs = .ok (Nat.ofDigitChars 10 cs seen) := by
  induction cs generalizing seen with
  | nil => rfl
  | cons c cs ih =>
    rw [Nat.ofDigitChars_cons] at hr ⊢
    have hle := le_ofDigitChars cs (10 * seen + (c.toNat - '0'.toNat))
    simp only [readDigits, digit?_of_isDigit (hd c (List.mem_cons_self ..)), mul_ten_add]
    rw [if_neg (by simp), if_neg (by omega)]
    exact ih (fun d hm => hd d (List.mem_cons_of_mem _ hm)) hr

theorem readDigits_tooLarge {r : IntegerRange} {cs : List Char}
    (hd : ∀ c ∈ cs, c.isDigit = true) {seen : Nat} (hs : (seen : Int) ≤ r.hi)
    (hr : r.hi < (Nat.ofDigitChars 10 cs seen : Int)) :
    r.readDigits false seen cs = .error .tooLarge := by
  induction cs generalizing seen with
  | nil => exact absurd hs (not_le.mpr hr)
  | cons c cs ih =>
    rw [Nat.ofDigitChars_cons] at hr
    simp only [readDigits, digit?_of_isDigit (hd c (List.mem_cons_self ..)), mul_ten_add]
    rw [if_neg (by simp)]
    split
    · rfl
    · exact ih (fun d hm => hd d (List.mem_cons_of_mem _ hm)) (not_lt.mp ‹_›) hr

theorem readDigits_down {r : IntegerRange} {cs : List Char} (hd : ∀ c ∈ cs, c.isDigit = true)
    {seen : Nat} (hr : r.lo ≤ -(Nat.ofDigitChars 10 cs seen : Int)) :
    r.readDigits true (-seen) cs = .ok (-(Nat.ofDigitChars 10 cs seen : Int)) := by
  induction cs generalizing seen with
  | nil => rfl
  | cons c cs ih =>
    rw [Nat.ofDigitChars_cons] at hr ⊢
    have hle := le_ofDigitChars cs (10 * seen + (c.toNat - '0'.toNat))
    have hnext : -(seen : Int) * 10 - ((c.toNat - 48 : Nat) : Int)
        = -((10 * seen + (c.toNat - '0'.toNat) : Nat) : Int) := by
      rw [← mul_ten_add]
      omega
    simp only [readDigits, digit?_of_isDigit (hd c (List.mem_cons_self ..)), hnext]
    rw [if_pos trivial, if_neg (by omega)]
    exact ih (fun d hm => hd d (List.mem_cons_of_mem _ hm)) hr

/-! ## What is read as a number -/

/-- A text is the digits of a number, with or without a plus sign before them. -/
inductive IsNumeral : List Char → Nat → Prop where
  | digits {cs : List Char} (hne : cs ≠ []) (hdigits : ∀ c ∈ cs, c.isDigit = true) :
      IsNumeral cs (Nat.ofDigitChars 10 cs 0)
  | plus {cs : List Char} (hne : cs ≠ []) (hdigits : ∀ c ∈ cs, c.isDigit = true) :
      IsNumeral ('+' :: cs) (Nat.ofDigitChars 10 cs 0)

theorem digit?_eq_none {c : Char} (h : ¬ c.isDigit = true) : digit? c = none := by
  refine if_neg fun hc => h ?_
  simpa [Char.isDigit, Char.le_def] using hc

theorem readDigits_ne_ok {r : IntegerRange} {cs : List Char} {c : Char} (hc : c ∈ cs)
    (hd : ¬ c.isDigit = true) (seen m : Int) : r.readDigits false seen cs ≠ .ok m := by
  induction cs generalizing seen with
  | nil => exact absurd hc List.not_mem_nil
  | cons a cs ih =>
    rw [readDigits]
    rcases List.mem_cons.mp hc with rfl | hc
    · simp [digit?_eq_none hd]
    · split
      · simp
      · simp only [Bool.false_eq_true, if_false]
        split
        · simp
        · exact ih hc _

/-- Behind the digits that write `seen`, exactly digits are read, and a number of the range. -/
theorem readDigits_eq_ok_iff {r : IntegerRange} {cs : List Char} {seen : Nat} {m : Int}
    (hs : (seen : Int) ≤ r.hi) :
    r.readDigits false seen cs = .ok m ↔ (∀ c ∈ cs, c.isDigit = true) ∧
      m = Nat.ofDigitChars 10 cs seen ∧ (Nat.ofDigitChars 10 cs seen : Int) ≤ r.hi := by
  by_cases hd : ∀ c ∈ cs, c.isDigit = true
  · rcases le_or_gt (Nat.ofDigitChars 10 cs seen : Int) r.hi with hr | hr
    · rw [readDigits_up hd hr, Except.ok.injEq]
      exact ⟨fun h => ⟨hd, h.symm, hr⟩, fun h => h.2.1.symm⟩
    · rw [readDigits_tooLarge hd hs hr]
      exact ⟨nofun, fun h => absurd h.2.2 (not_le.mpr hr)⟩
  · push Not at hd
    obtain ⟨c, hc, hd⟩ := hd
    exact ⟨fun h => absurd h (readDigits_ne_ok hc hd _ _), fun h => absurd (h.1 c hc) hd⟩

/-- Digits have no sign before them. -/
theorem parse_of_isDigit (r : IntegerRange) {cs : List Char} (hne : cs ≠ [])
    (hd : ∀ c ∈ cs, c.isDigit = true) : r.parse cs = r.readDigits false 0 cs := by
  unfold parse
  split
  · exact absurd rfl hne
  · exact absurd (hd '+' (by simp)) (by decide)
  · exact absurd (hd '-' (by simp)) (by decide)
  · exact absurd (hd '+' (by simp)) (by decide)
  · exact absurd (hd '-' (by simp)) (by decide)
  · rfl

theorem parse_plus (r : IntegerRange) {cs : List Char} (hne : cs ≠ []) :
    r.parse ('+' :: cs) = r.readDigits false 0 cs := by
  cases cs with
  | nil => exact absurd rfl hne
  | cons c cs => rfl

/-- A text that is read as a number of so many bits is a numeral of it, and every numeral of such a
number is read. -/
theorem parse_unsigned_eq_ok_iff {bits : Nat} {cs : List Char} {m : Int} :
    (unsigned bits).parse cs = .ok m ↔ ∃ n : Nat, m = n ∧ IsNumeral cs n ∧ n < 2 ^ bits := by
  have hhi : ∀ n : Nat, (n : Int) ≤ (unsigned bits).hi ↔ n < 2 ^ bits := by
    intro n
    change (n : Int) ≤ ((2 ^ bits : Nat) : Int) - 1 ↔ _
    omega
  have hread : ∀ digits : List Char, (unsigned bits).readDigits false 0 digits = .ok m ↔
      (∀ c ∈ digits, c.isDigit = true) ∧ m = Nat.ofDigitChars 10 digits 0 ∧
        Nat.ofDigitChars 10 digits 0 < 2 ^ bits := by
    intro digits
    rw [← hhi]
    exact readDigits_eq_ok_iff ((hhi 0).mpr (Nat.two_pow_pos bits))
  constructor
  · intro h
    unfold parse at h
    split at h
    · cases h
    · cases h
    · cases h
    · rename_i rest _ hne
      obtain ⟨hd, hm, hlt⟩ := (hread _).mp h
      exact ⟨_, hm, .plus (by rintro rfl; exact hne rfl) hd, hlt⟩
    · cases h
    · obtain ⟨hd, hm, hlt⟩ := (hread _).mp h
      exact ⟨_, hm, .digits (by assumption) hd, hlt⟩
  · rintro ⟨n, rfl, ⟨hne, hd⟩ | ⟨hne, hd⟩, hlt⟩
    · rw [parse_of_isDigit _ hne hd]
      exact (hread _).mpr ⟨hd, rfl, hlt⟩
    · rw [parse_plus _ hne]
      exact (hread _).mpr ⟨hd, rfl, hlt⟩

/-! ## Written integers -/

theorem isDigit_of_mem_toDigits {n : Nat} {c : Char} (h : c ∈ Nat.toDigits 10 n) :
    c.isDigit = true :=
  Nat.isDigit_of_mem_toDigits (by decide) (by decide) h

theorem parse_toDigits (r : IntegerRange) (n : Nat) :
    r.parse (Nat.toDigits 10 n) = r.readDigits false 0 (Nat.toDigits 10 n) :=
  parse_of_isDigit r Nat.toDigits_ne_nil fun _ => isDigit_of_mem_toDigits

theorem parse_minus_toDigits {r : IntegerRange} (h : r.lo < 0) (n : Nat) :
    r.parse ('-' :: Nat.toDigits 10 n) = r.readDigits true 0 (Nat.toDigits 10 n) := by
  have hne : Nat.toDigits 10 n ≠ [] := Nat.toDigits_ne_nil
  generalize Nat.toDigits 10 n = cs at *
  cases cs with
  | nil => exact absurd rfl hne
  | cons c cs => simp [parse, h]

/-- What is written for a number of the range is read back as that number. -/
theorem parseText_toString {r : IntegerRange} {n : Int} (h : r.contains n = true) :
    r.parseText (toString n) = .ok n := by
  have hr : r.lo ≤ n ∧ n ≤ r.hi := by simpa [contains] using h
  rw [Int.toString_eq_repr, Int.repr_eq_if, parseText]
  split
  · obtain ⟨m, rfl⟩ := Int.eq_ofNat_of_zero_le ‹0 ≤ n›
    have hm : (Nat.ofDigitChars 10 (Nat.toDigits 10 m) 0 : Int) ≤ r.hi := by
      rw [Nat.ofDigitChars_ten_toDigits]
      exact hr.2
    have := readDigits_up (fun c => isDigit_of_mem_toDigits) hm
    rw [Nat.ofDigitChars_ten_toDigits] at this
    simpa [Nat.toList_repr, parse_toDigits] using this
  · obtain ⟨m, rfl⟩ : ∃ m : Nat, n = -(m : Int) := ⟨(-n).toNat, by omega⟩
    have hm : r.lo ≤ -(Nat.ofDigitChars 10 (Nat.toDigits 10 m) 0 : Int) := by
      rw [Nat.ofDigitChars_ten_toDigits]
      exact hr.1
    have := readDigits_down (fun c => isDigit_of_mem_toDigits) hm
    rw [Nat.ofDigitChars_ten_toDigits] at this
    have hlo : r.lo < 0 := by omega
    simpa [Nat.toList_repr, parse_minus_toDigits hlo] using this

/-- A number above the range is refused. -/
theorem parseText_toString_tooLarge {r : IntegerRange} {n : Nat} (hpos : 0 ≤ r.hi) (h : r.hi < n) :
    r.parseText (toString n) = .error .tooLarge := by
  have hlarge : r.hi < (Nat.ofDigitChars 10 (Nat.toDigits 10 n) 0 : Int) := by
    rwa [Nat.ofDigitChars_ten_toDigits]
  have := readDigits_tooLarge (fun c => isDigit_of_mem_toDigits) (by exact_mod_cast hpos) hlarge
  rw [parseText, Nat.toString_eq_repr, Nat.toList_repr, parse_toDigits]
  exact this

theorem contains_toInt (n : Int64) : int64.contains n.toInt = true := by
  have hlo := n.le_toInt
  have hhi := n.toInt_lt
  simp only [contains, int64, signed, Bool.and_eq_true]
  norm_num
  omega

theorem isOneLine_toString (n : Int) : Text.IsOneLine (toString n) := by
  intro h
  have hdigits : ∀ m : Nat, '\r' ∉ Nat.toDigits 10 m := fun m hm =>
    absurd (isDigit_of_mem_toDigits hm) (by decide)
  rw [Int.toString_eq_repr, Int.repr_eq_if] at h
  split at h
  · rw [Nat.toList_repr] at h
    exact hdigits _ h
  · rw [String.toList_append, List.mem_append, Nat.toList_repr] at h
    exact h.elim (by decide) (hdigits _)

theorem isOneLine_toString_natCast (n : Nat) : Text.IsOneLine (toString n) := isOneLine_toString n

/-! ## The size of written numbers -/

/-- A number takes one byte for each digit. -/
theorem utf8ByteSize_repr (n : Nat) : (Nat.repr n).utf8ByteSize = (Nat.toDigits 10 n).length := by
  rw [← Bytes.length_ofText, Bytes.ofText_eq_flatMap, Nat.toList_repr, List.length_flatMap]
  have hdigit : ∀ c ∈ Nat.toDigits 10 n, (String.utf8EncodeChar c).length = 1 := by
    intro c hc
    have hc := isDigit_of_mem_toDigits hc
    rw [Char.isDigit, Bool.and_eq_true, decide_eq_true_eq, decide_eq_true_eq] at hc
    rw [String.length_utf8EncodeChar, Char.utf8Size_eq_one_iff]
    exact UInt32.le_trans hc.2 (show '9'.val ≤ 127 by decide)
  rw [List.map_congr_left hdigit]
  simp

/-- A number of at most `digits` digits takes no more than that and a sign. -/
theorem utf8ByteSize_toString_le {n : Int} {digits : Nat} (h : n.natAbs < 10 ^ digits)
    (hpos : 0 < digits) : (toString n).utf8ByteSize ≤ digits + 1 := by
  have hdigits : ∀ m : Nat, m < 10 ^ digits → (Nat.repr m).utf8ByteSize ≤ digits := by
    intro m hm
    rw [utf8ByteSize_repr]
    exact (Nat.length_toDigits_le_iff (by decide) hpos).mpr hm
  rw [Int.toString_eq_repr, Int.repr_eq_if]
  split
  · exact (hdigits _ (by omega)).trans (Nat.le_succ _)
  · rw [String.utf8ByteSize_append]
    have hsign : "-".utf8ByteSize = 1 := by decide
    have := hdigits (-n).toNat (by omega)
    omega

end Telemetry.IntegerRange
