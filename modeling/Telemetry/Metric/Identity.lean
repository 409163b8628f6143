import Telemetry.Bytes

/-!
# Metric identities

A metric is known by its namespace, its name and its tags. Its identity is the exclusive or of the
hashes of all of them, so it does not depend on the order of the tags (`MetricId.ofNames_perm`): who
knows the names can compute the identity without asking the provider.
-/
namespace Telemetry

/-- The multiplicative hash of a byte string: seeded with 5381, times 33 plus the next byte, modulo
2 ^ 32. -/
def djb2Bytes (b : Bytes) : UInt32 := b.foldl (fun h c => h * 33 + c.toUInt32) 5381

/-- The hash of a text's UTF-8 bytes. -/
def djb2 (s : String) : UInt32 := djb2Bytes (.ofText s)

/-- The identity of a metric. -/
structure MetricId where
  val : UInt32
deriving DecidableEq, Repr, Inhabited

namespace MetricId

/-- The identity of a namespace, a name and tags. -/
def ofNames (ns name : String) (tags : List String) : MetricId :=
  ⟨tags.foldl (fun acc tag => acc ^^^ djb2 tag) (djb2 ns ^^^ djb2 name)⟩

/-- The number of an identity. -/
def toNat (id : MetricId) : Nat := id.val.toNat

/-- The identity of a number below 2 ^ 32. -/
def ofNat (n : Nat) : MetricId := ⟨UInt32.ofNat n⟩

@[simp] theorem ofNat_toNat (id : MetricId) : ofNat id.toNat = id := by simp [ofNat, toNat]

/-- The eight hexadecimal digits by which messages name a metric. -/
def hex (id : MetricId) : String := hexPadded 8 id.toNat

/-- The order of the tags does not matter. -/
theorem ofNames_perm (ns name : String) {tags tags' : List String} (h : tags.Perm tags') :
    ofNames ns name tags = ofNames ns name tags' := by
  have comm : ∀ a b c : UInt32, (a ^^^ b) ^^^ c = (a ^^^ c) ^^^ b := fun a b c => by
    rw [UInt32.xor_assoc, UInt32.xor_comm b, ← UInt32.xor_assoc]
  exact congrArg MetricId.mk (h.foldl_eq' (fun x _ y _ z => comm z (djb2 x) (djb2 y)) _)

end MetricId

end Telemetry
