import Telemetry.Text.Utf8
import Mathlib

/-!
# Carriage returns in texts

A carriage return ends a line on the wire, so it matters where one can come from. In UTF-8 the byte
13 stands for that character and for nothing else (`Bytes.cr_mem_ofText`), and reading bytes as
text, leniently too, makes no carriage return that was not there (`Bytes.cr_notMem_toTextLossy`).
-/
namespace Telemetry

namespace Utf8

/-- A character that is encoded with an ASCII byte is that ASCII character. -/
theorem toNat_of_mem_utf8EncodeChar {b : UInt8} {c : Char} (hb : b.toNat < 128)
    (h : b ∈ String.utf8EncodeChar c) : c.toNat = b.toNat := by
  have lead : ∀ n, 128 ≤ n % 256 → b ≠ UInt8.ofNat n := by
    rintro n hn rfl
    rw [UInt8.toNat_ofNat'] at hb
    omega
  unfold String.utf8EncodeChar at h
  simp only at h
  split at h
  · have hc : c.toNat ≤ 127 := ‹_›
    rw [List.mem_singleton] at h
    subst h
    rw [UInt8.toNat_ofNat']
    change _ = c.toNat % _
    omega
  -- every byte of a longer encoding has its highest bit set
  · exfalso
    split at h
    · simp only [List.mem_cons, List.not_mem_nil, or_false] at h
      rcases h with h | h <;> exact lead _ (by omega) h
    · split at h
      · simp only [List.mem_cons, List.not_mem_nil, or_false] at h
        rcases h with h | h | h <;> exact lead _ (by omega) h
      · simp only [List.mem_cons, List.not_mem_nil, or_false] at h
        rcases h with h | h | h | h <;> exact lead _ (by omega) h

/-! ## Lenient reading -/

theorem ofNat_ne_cr {n : Nat} (h : 128 ≤ n) : Char.ofNat n ≠ '\r' := by
  intro he
  have hv : (Char.ofNat n).toNat = 13 := by rw [he]; rfl
  by_cases hn : n.isValidChar
  · rw [Char.toNat_ofNat, if_pos hn] at hv
    omega
  · rw [Char.toNat_ofNat, if_neg hn] at hv
    omega

theorem toNat_of_within {lo hi b : UInt8} (h : within lo hi b = true) :
    lo.toNat ≤ b.toNat ∧ b.toNat ≤ hi.toNat := by
  simpa [within, UInt8.le_iff_toNat_le] using h

/-- Continuation bytes only add to the number of a character. -/
theorem le_of_continuation {number seen missing width : Nat} {lo hi : UInt8} {rest : Bytes}
    {c : Char} (h : continuation number seen missing lo hi rest = .char c width) :
    ∃ n, c = Char.ofNat n ∧ number * 64 ^ missing ≤ n := by
  induction missing generalizing number seen lo hi rest with
  | zero => cases h; exact ⟨number, rfl, by simp⟩
  | succ missing ih =>
    cases rest with
    | nil => cases h
    | cons b rest =>
      simp only [continuation] at h
      split at h
      · obtain ⟨n, hc, hn⟩ := ih h
        refine ⟨n, hc, le_trans ?_ hn⟩
        rw [Nat.pow_succ, Nat.mul_comm (64 ^ missing), ← Nat.mul_assoc]
        exact Nat.mul_le_mul_right _ (Nat.le_add_right _ _)
      · cases h

theorem ne_cr_of_continuation {number seen missing width : Nat} {lo hi : UInt8} {rest : Bytes}
    {c : Char} (h : continuation number seen (missing + 1) lo hi rest = .char c width)
    (hb : ∀ b, within lo hi b = true → 128 ≤ (number * 64 + payload b) * 64 ^ missing) :
    c ≠ '\r' := by
  cases rest with
  | nil => cases h
  | cons b rest =>
    simp only [continuation] at h
    split at h
    · obtain ⟨n, rfl, hn⟩ := le_of_continuation h
      exact ofNat_ne_cr (le_trans (hb b ‹_›) hn)
    · cases h

/-- The first continuation byte already lifts a character beyond the ASCII ones: this is what the
narrowed ranges are for. -/
theorem le_of_follow {b lo hi : UInt8} {missing : Nat} (h : follow b = some (missing, lo, hi)) :
    ∃ m, missing = m + 1 ∧ ∀ next, within lo hi next = true →
      128 ≤ (b.toNat % Nat.pow 2 (6 - missing) * 64 + payload next) * 64 ^ m := by
  unfold follow at h
  split_ifs at h with h₁ h₂ h₃ h₄ h₅ h₆ h₇ <;> cases h
  · have := toNat_of_within h₁
    refine ⟨0, rfl, fun next hn => ?_⟩
    simp at this ⊢
    omega
  · refine ⟨1, rfl, fun next hn => ?_⟩
    have := toNat_of_within hn
    simp [h₂, payload] at this ⊢
    omega
  · exact ⟨1, rfl, fun next hn => by simp [h₃]; omega⟩
  · have := toNat_of_within h₄
    refine ⟨1, rfl, fun next hn => ?_⟩
    simp at this ⊢
    omega
  · refine ⟨2, rfl, fun next hn => ?_⟩
    have := toNat_of_within hn
    simp [h₅, payload] at this ⊢
    omega
  · have := toNat_of_within h₆
    refine ⟨2, rfl, fun next hn => ?_⟩
    simp at this ⊢
    omega
  · exact ⟨2, rfl, fun next hn => by simp [h₇]; omega⟩

theorem char_ne_cr_of_head {b : UInt8} {rest : Bytes} {c : Char} {width : Nat}
    (h : head b rest = .char c width) (hb : b ≠ 13) : c ≠ '\r' := by
  unfold head at h
  split at h
  · have hlt : b.toNat < 128 := UInt8.lt_iff_toNat_lt.mp ‹_›
    have hvalid : b.toNat.isValidChar := Or.inl (by omega)
    cases h
    intro he
    have hv : (Char.ofNat b.toNat).toNat = 13 := by rw [he]; rfl
    rw [Char.toNat_ofNat, if_pos hvalid] at hv
    exact hb (UInt8.toNat_inj.mp hv)
  · split at h
    · cases h
    · rename_i missing lo hi hf
      obtain ⟨m, rfl, hm⟩ := le_of_follow hf
      exact ne_cr_of_continuation h hm

theorem cr_notMem_lossyChars {seen : List Char} {skip : Nat} {b : Bytes} (hs : '\r' ∉ seen)
    (hb : 13 ∉ b) : '\r' ∉ lossyChars seen skip b := by
  induction b generalizing seen skip with
  | nil => exact hs
  | cons x rest ih =>
    simp only [List.mem_cons, not_or] at hb
    obtain ⟨hx, hrest⟩ := hb
    cases skip with
    | succ skip => exact ih hs hrest
    | zero =>
      have hstand : '\r' ∉ replacement :: seen := by
        simp only [List.mem_cons, not_or]
        exact ⟨by decide, hs⟩
      simp only [lossyChars]
      split
      · rename_i c width hh
        have hc : '\r' ≠ c := (char_ne_cr_of_head hh (Ne.symm hx)).symm
        exact ih (by simp [hc, hs]) hrest
      · exact ih hstand hrest
      · exact hstand

end Utf8

/-- Whether a text holds no carriage return, so that it can stand on a line of the wire. -/
def Text.IsOneLine (s : String) : Prop := '\r' ∉ s.toList

namespace Text

instance (s : String) : Decidable (IsOneLine s) := inferInstanceAs (Decidable (¬ _))

theorem isOneLine_append {s t : String} : IsOneLine (s ++ t) ↔ IsOneLine s ∧ IsOneLine t := by
  simp only [IsOneLine, String.toList_append, List.mem_append, not_or]

theorem IsOneLine.append {s t : String} (hs : IsOneLine s) (ht : IsOneLine t) :
    IsOneLine (s ++ t) := isOneLine_append.mpr ⟨hs, ht⟩

end Text

namespace Bytes

theorem ofText_eq_flatMap (s : String) : ofText s = s.toList.flatMap String.utf8EncodeChar := by
  have h : s.toByteArray = s.toList.utf8Encode := String.utf8Encode_toList.symm
  simp [ofText, h, List.utf8Encode]

@[simp] theorem ofText_append (s t : String) : ofText (s ++ t) = ofText s ++ ofText t := by
  simp [ofText_eq_flatMap]

@[simp] theorem length_ofText (s : String) : (ofText s).length = s.utf8ByteSize := by
  simp [ofText]

theorem ofText_of_fromUTF8? {b : Bytes} {s : String}
    (h : String.fromUTF8? ⟨b.toArray⟩ = some s) : ofText s = b := by
  unfold String.fromUTF8? at h
  split at h
  · cases h
    simp [ofText, String.fromUTF8]
  · cases h

/-- The byte of a carriage return stands for that character only. -/
theorem cr_mem_ofText {s : String} : (13 : UInt8) ∈ ofText s ↔ '\r' ∈ s.toList := by
  rw [ofText_eq_flatMap, List.mem_flatMap]
  constructor
  · rintro ⟨c, hc, h⟩
    have : c = '\r' := Char.toNat_inj.mp (Utf8.toNat_of_mem_utf8EncodeChar (by decide) h)
    exact this ▸ hc
  · exact fun h => ⟨'\r', h, by decide⟩

theorem cr_notMem_ofText {s : String} : (13 : UInt8) ∉ ofText s ↔ Text.IsOneLine s :=
  not_congr cr_mem_ofText

/-- Lenient reading makes no carriage return. -/
theorem cr_notMem_toTextLossy {b : Bytes} (h : 13 ∉ b) : 13 ∉ ofText b.toTextLossy := by
  unfold toTextLossy
  split
  · rename_i s hs
    rwa [ofText_of_fromUTF8? hs]
  · rw [cr_mem_ofText]
    simpa using Utf8.cr_notMem_lossyChars (by simp) h

end Bytes

end Telemetry
