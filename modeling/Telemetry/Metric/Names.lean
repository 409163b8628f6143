import Telemetry.Bytes
import Telemetry.Failure

/-!
# Limits on names and tags

Namespaces, names, descriptions and tags are bounded in bytes. `TagList.ofList?` and `checkNames`
refuse what exceeds the bounds; of several faults the first in order is reported.
-/
namespace Telemetry

/-- The most bytes in a namespace. -/
def maxNamespaceLength : Nat := 128

/-- The most bytes in a metric's name. -/
def maxNameLength : Nat := 128

/-- The most bytes in a description. -/
def maxDescriptionLength : Nat := 200

/-- The most bytes in a tag. -/
def maxTagLength : Nat := 36

/-- A tag is neither empty nor too long. -/
def IsTag (tag : String) : Prop := tag ≠ "" ∧ tag.utf8ByteSize ≤ maxTagLength

instance (tag : String) : Decidable (IsTag tag) := inferInstanceAs (Decidable (_ ∧ _))

/-- The tags of a metric, in the order in which they were given. -/
structure TagList where
  toList : List String
  isTag : ∀ tag ∈ toList, IsTag tag
deriving DecidableEq

namespace TagList

/-- No tags. -/
def empty : TagList := ⟨[], by simp⟩

/-- Why a text is no tag. -/
def tagFailure (tag : String) : Failure :=
  if tag = "" then .invalidArgs "empty tag"
  else .invalidArgs ("tag '" ++ tag ++ "' exceeds " ++ toString maxTagLength ++ " bytes")

/-- The tags of a list, or what is wrong with the first text that is no tag. -/
def ofList? (tags : List String) : Except Failure TagList :=
  if h : ∀ tag ∈ tags, IsTag tag then .ok ⟨tags, h⟩
  else .error (((tags.find? fun tag => ¬ IsTag tag).map tagFailure).getD (.invalidArgs "empty tag"))

/-- The number of tags. -/
def length (tags : TagList) : Nat := tags.toList.length

@[simp] theorem ofList?_toList (tags : TagList) : ofList? tags.toList = .ok tags := by
  simp only [ofList?, dif_pos tags.isTag]

end TagList

/-- Refuses empty or over-long names and over-long descriptions. -/
def checkNames (ns name description : String) : Except Failure Unit :=
  if ns = "" ∨ name = "" then .error (.invalidName "namespace and name must be non-empty")
  else if maxNamespaceLength < ns.utf8ByteSize then
    .error (.invalidName ("namespace exceeds " ++ toString maxNamespaceLength ++ " bytes"))
  else if maxNameLength < name.utf8ByteSize then
    .error (.invalidName ("name exceeds " ++ toString maxNameLength ++ " bytes"))
  else if maxDescriptionLength < description.utf8ByteSize then
    .error (.invalidArgs ("description exceeds " ++ toString maxDescriptionLength ++ " bytes"))
  else .ok ()

end Telemetry
