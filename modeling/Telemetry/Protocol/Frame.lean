import Telemetry.Metric.Identity
import Telemetry.Protocol.Region
import Telemetry.Resp.Parser

/-!
# Frames of a provider

What a provider writes back: the identities it was asked for, the outcome of a fetch, a push of
packed samples, which goes before the reply it belongs to, or the rejection of a request that could
not be read. `Frame.toValue` writes a frame and `Frame.ofValue` reads one.
-/
namespace Telemetry

/-- What a provider writes back. -/
inductive Frame where
  | list (status : Status) (ids : List MetricId)
  | fetch (status : Status) (actualCount : Int64) (name ns : String)
  | bulk (push : Push)
  | rejected (status : Status) (message : String)
deriving DecidableEq, Repr

namespace Frame

open Resp (Value)

/-- The reply to a fetch that failed. -/
def fetchFailed (status : Status) : Frame := fetch status 0 "" ""

/-- The value of a status. -/
def ofStatus (s : Status) : Value := .integer (Int64.ofInt s.code)

/-- The wire form of a frame. -/
def toValue : Frame → Value
  | list status ids =>
    .array [.text "LIST", ofStatus status, .integer (Int64.ofNat ids.length),
      .array (ids.map fun id => .integer (Int64.ofNat id.toNat))]
  | fetch status actualCount name ns =>
    .array [.text "FETCH", ofStatus status, .integer actualCount, .text name, .text ns]
  | bulk push => .array [.text "BULK", .integer (Int64.ofInt push.region.toNat), .bulk push.payload]
  | rejected status message => .error ("ERR " ++ toString status.code ++ " " ++ message)

/-- How messages quote the reply to a listing or a fetch. -/
def quoted : Frame → String
  | list status ids =>
    "List(ListMetricsResponse \x7b ret: " ++ status.name ++ ", ids: ["
      ++ String.intercalate ", " (ids.map fun id => "MetricId(" ++ toString id.toNat ++ ")")
      ++ "] \x7d)"
  | fetch status actualCount name ns =>
    "Fetch(MetricFetchResponse \x7b ret: " ++ status.name ++ ", actual_count: "
      ++ toString actualCount.toInt ++ ", name: " ++ Text.quoted name ++ ", ns: "
      ++ Text.quoted ns ++ " \x7d)"
  | bulk push =>
    "Bulk(BulkPush \x7b region_id: " ++ toString push.region.toNat ++ ", payload: "
      ++ Text.quotedBytes push.payload ++ " \x7d)"
  | rejected status message =>
    "Rejected \x7b ret: " ++ status.name ++ ", message: " ++ Text.quoted message ++ " \x7d"

/-- Reads an integer. -/
def readInteger : Value → Except Failure Int64
  | .integer n => .ok n
  | v => .error (.transport ("expected integer, got " ++ v.quoted))

/-- Reads a text; nothing counts as the empty one. -/
def readText : Value → Except Failure String
  | .bulk data => .ok data.toTextLossy
  | .nilBulk => .ok ""
  | v => .error (.transport ("expected bulk string, got " ++ v.quoted))

/-- Reads a status. -/
def readStatus (v : Value) : Except Failure Status :=
  match readInteger v with
  | .error failure => .error failure
  | .ok n =>
    match Status.ofCode? n.toInt with
    | some status => .ok status
    | none => .error (.transport ("unknown return code " ++ toString n.toInt))

/-- Reads the identity of a metric. -/
def readId (v : Value) : Except Failure MetricId :=
  match readInteger v with
  | .error failure => .error failure
  | .ok n =>
    if IntegerRange.word32.contains n.toInt then .ok (MetricId.ofNat n.toInt.toNat)
    else .error (.transport ("bad metric id " ++ toString n.toInt))

/-- Reads the identities of a listing. -/
def readIds : Value → Except Failure (List MetricId)
  | .array items => items.mapM readId
  | v => .error (.transport ("expected id array, got " ++ v.quoted))

/-- Reads the bytes of a push; nothing counts as no bytes. -/
def readPayload : Value → Except Failure Bytes
  | .bulk data => .ok data
  | .nilBulk => .ok []
  | v => .error (.transport ("expected payload, got " ++ v.quoted))

/-- Reads the elements of a listing; it has to carry as many identities as it announces. -/
def readList (status count ids : Value) : Except Failure Frame := do
  let status ← readStatus status
  let count ← readInteger count
  let ids ← readIds ids
  if count = Int64.ofNat ids.length then return list status ids
  else .error (.transport ("LIST announced " ++ toString count.toInt ++ " ids but carried "
    ++ toString ids.length))

/-- Cuts a text at its first space. -/
def cutWord (cs : List Char) : List Char × List Char :=
  (cs.takeWhile (· != ' '), (cs.dropWhile (· != ' ')).drop 1)

/-- Reads a rejection: a word, the number of a status, and a message. A status that is not known is
taken for trouble with the connection. -/
def readRejection (text : String) : Frame :=
  let (_, rest) := cutWord text.toList
  let (code, message) := cutWord rest
  let status := match IntegerRange.int32.parse code with
    | .ok n => (Status.ofCode? n).getD .transport
    | .error _ => .transport
  rejected status (String.ofList message)

/-- Reads the elements of a frame behind its name. -/
def readElements (name : String) (elements : List Value) : Except Failure Frame :=
  match name, elements with
  | "LIST", [status, count, ids] => readList status count ids
  | "FETCH", [status, count, metric, ns] =>
    do return fetch (← readStatus status) (← readInteger count) (← readText metric) (← readText ns)
  | "BULK", [region, payload] => do
    let region ← readInteger region
    return bulk ⟨region.toUInt64, ← readPayload payload⟩
  | _, _ => .error (.transport ("unexpected '" ++ name ++ "' frame with "
      ++ toString (elements.length + 1) ++ " elements"))

/-- Reads a frame from its wire form. -/
def ofValue : Value → Except Failure Frame
  | .error text => .ok (readRejection text)
  | .array (name :: elements) =>
    match readText name with
    | .error failure => .error failure
    | .ok name => readElements name elements
  | v => .error (.transport ("unexpected frame " ++ v.quoted))

end Frame

end Telemetry
