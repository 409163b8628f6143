import Telemetry.Config.Addresses
import Telemetry.Proofs.Failure
import Telemetry.Proofs.Number.Decimal
import Telemetry.Proofs.Text.Fields
import Mathlib

/-!
# What the aggregator file says

An aggregator file announces a number and lists that many aggregators. What stands behind them is
not looked at: it may be further aggregators, which are not found, or no aggregators at all.

## Main definitions

* `Addresses.Describes`: a line is about an aggregator.
* `Addresses.Lists`: a text lists aggregators, with surplus lines behind them.

## Main statements

* `Addresses.readAggregator_eq_ok_iff`: a line is read if and only if it is about an aggregator.
* `Addresses.aggregators_eq_ok_iff`: a text is read if and only if it lists aggregators.
-/
namespace Telemetry.Addresses

open IntegerRange (IsNumeral)

variable {text : String} {line : List Char} {lines : List (List Char)} {a : AggregatorAddress}
  {found : List AggregatorAddress} {id : UInt16}

/-- A line has three fields: the address of an aggregator, a numeral of its provider id and the name
of its database. -/
def Describes (line : List Char) (a : AggregatorAddress) : Prop :=
  ∃ provider, Text.Spaced [a.address.toList, provider, a.dbName.toList] line ∧
    IsNumeral provider a.provider.toNat

/-- The lines of a text are the number of aggregators found, a line about each, in order, and then
surplus ones. -/
inductive Lists (text : String) (found : List AggregatorAddress) (surplus : List (List Char)) :
    Prop where
  | intro (header : List Char) (entries : List (List Char))
      (hlines : Text.HasLines text (header :: (entries ++ surplus)))
      (hcount : IsNumeral header entries.length) (hword : entries.length < 2 ^ 64)
      (hentries : List.Forall₂ Describes entries found)

/-- A provider id is read from its numerals. -/
theorem readProvider_eq_ok_iff (n : Nat) {field : List Char} :
    readProvider n field = .ok id ↔ IsNumeral field id.toNat := by
  constructor
  · intro h
    rw [readProvider] at h
    split at h
    · rename_i m hparse
      obtain ⟨k, rfl, hnumeral, hlt⟩ := IntegerRange.parse_unsigned_eq_ok_iff.mp hparse
      cases h
      rwa [Int.toNat_natCast, UInt16.toNat_ofNat_of_lt' hlt]
    · cases h
  · intro h
    have hparse : IntegerRange.word16.parse field = .ok (id.toNat : Int) :=
      IntegerRange.parse_unsigned_eq_ok_iff.mpr ⟨_, rfl, h, id.toNat_lt⟩
    rw [readProvider, hparse]
    simp

/-- A line is read if and only if it is about an aggregator. -/
theorem readAggregator_eq_ok_iff (n : Nat) : readAggregator n line = .ok a ↔ Describes line a := by
  constructor
  · intro h
    rw [readAggregator] at h
    split at h
    · rename_i address provider dbName hfields
      obtain ⟨id, hid, rfl⟩ := Failure.map_eq_ok_iff.mp h
      refine ⟨provider, ?_, (readProvider_eq_ok_iff n).mp hid⟩
      rw [String.toList_ofList, String.toList_ofList]
      exact Text.fields_eq_iff.mp hfields
    · cases h
  · rintro ⟨provider, hspaced, hprovider⟩
    rw [readAggregator, Text.fields_eq_iff.mpr hspaced]
    simp only [(readProvider_eq_ok_iff n).mpr hprovider, Except.map, String.ofList_toList]

/-- Lines are read if and only if there is one about each aggregator, in order. -/
theorem readAggregators_eq_ok_iff (n : Nat) :
    readAggregators n lines = .ok found ↔ List.Forall₂ Describes lines found := by
  induction lines generalizing n found with
  | nil =>
    rw [readAggregators, Except.ok.injEq, List.forall₂_nil_left_iff, eq_comm]
  | cons line lines ih =>
    rw [readAggregators, List.forall₂_cons_left_iff]
    constructor
    · intro h
      split at h
      · cases h
      · rename_i a hline
        obtain ⟨as, hlines, rfl⟩ := Failure.map_eq_ok_iff.mp h
        exact ⟨a, as, (readAggregator_eq_ok_iff n).mp hline, (ih _).mp hlines, rfl⟩
    · rintro ⟨a, as, hline, hlines, rfl⟩
      simp only [(readAggregator_eq_ok_iff n).mpr hline, (ih _).mpr hlines, Except.map]

/-- A text is read if and only if it lists aggregators, and they are found in the order of their
lines. Surplus lines make no difference. -/
theorem aggregators_eq_ok_iff :
    aggregators text = .ok found ↔ ∃ surplus, Lists text found surplus := by
  constructor
  · intro h
    rw [aggregators] at h
    split at h
    · cases h
    · rename_i header lines hlines
      split at h
      · cases h
      · rename_i m hcount
        obtain ⟨count, rfl, hnumeral, hword⟩ := IntegerRange.parse_unsigned_eq_ok_iff.mp hcount
        rw [Int.toNat_natCast] at h
        split at h
        · cases h
        · rename_i as hread
          split_ifs at h with hlength
          cases h
          have hentries := (readAggregators_eq_ok_iff 2).mp hread
          have htake : (lines.take count).length = count := hentries.length_eq.trans hlength
          rw [← List.take_append_drop count lines] at hlines
          rw [← htake] at hnumeral hword
          exact ⟨lines.drop count, .intro header _ (Text.lines_eq_iff.mp hlines) hnumeral hword
            hentries⟩
  · rintro ⟨surplus, header, entries, hlines, hcount, hword, hentries⟩
    have hparse : IntegerRange.word64.parse header = .ok (entries.length : Int) :=
      IntegerRange.parse_unsigned_eq_ok_iff.mpr ⟨_, rfl, hcount, hword⟩
    rw [aggregators, Text.lines_eq_iff.mpr hlines]
    simp only [hparse, Int.toNat_natCast, List.take_left',
      (readAggregators_eq_ok_iff 2).mpr hentries, hentries.length_eq, if_true]

/-- The surplus lines are all that stand behind the ones that were read. -/
theorem Lists.surplus_eq {surplus : List (List Char)} (h : Lists text found surplus) :
    surplus = (Text.lines text).drop (found.length + 1) := by
  obtain ⟨header, entries, hlines, -, -, hentries⟩ := h
  rw [Text.lines_eq_iff.mpr hlines, List.drop_succ_cons, ← hentries.length_eq, List.drop_left]

/-- One aggregator is announced, two are listed, and the second one is not found. -/
theorem aggregators_eq_ok_iff_surplus :
    (∃ surplus, Lists "1\na 1 db\nb 2 db\n" [⟨"a", 1, "db"⟩] surplus) ∧
      ¬ Lists "1\na 1 db\nb 2 db\n" [⟨"a", 1, "db"⟩] [] := by
  refine ⟨aggregators_eq_ok_iff.mp (by decide), fun h => ?_⟩
  have hsurplus := h.surplus_eq
  revert hsurplus
  decide

end Telemetry.Addresses
