import Telemetry.Failure
import Telemetry.Metric.Kind
import Telemetry.Bytes

/-!
# Sinks and reducers in memory

A sink maps keys to stored values. It counts its operations and can be told to refuse writes to a
key. Single operations and batches have the same effect on the map; a batch is refused as a whole.
A reducer combines stored values of many providers; here it records what it is asked to combine.
-/
namespace Telemetry

/-- A key-value sink. -/
structure Sink where
  /-- The stored values; every key occurs once. -/
  data : List (String × Bytes) := []
  /-- The keys that may not be written. -/
  failing : List String := []
  puts : Nat := 0
  erases : Nat := 0
  batches : Nat := 0
deriving Repr

namespace Sink

/-- The value stored under a key. -/
def get? (s : Sink) (key : String) : Option Bytes := s.data.lookup key

/-- The keys and values in the order of the keys. -/
def entries (s : Sink) : List (String × Bytes) :=
  s.data.mergeSort fun a b => !(decide (b.1 < a.1))

/-- Makes every later write to a key fail. -/
def failKey (s : Sink) (key : String) : Sink := { s with failing := key :: s.failing }

/-- The failure of a write to a key that may not be written. -/
def refused (key : String) : Failure := .sink ("injected failure for '" ++ key ++ "'")

/-- The first of some keys that may not be written. -/
def firstRefused? (s : Sink) (keys : List String) : Option String :=
  keys.find? fun key => s.failing.contains key

/-- The map with a value in place of what was stored under a key. -/
def store (data : List (String × Bytes)) (key : String) (value : Bytes) : List (String × Bytes) :=
  (key, value) :: data.filter fun e => e.1 ≠ key

/-- The map without a key. -/
def drop (data : List (String × Bytes)) (key : String) : List (String × Bytes) :=
  data.filter fun e => e.1 ≠ key

/-- Stores a value. -/
def put (s : Sink) (key : String) (value : Bytes) : Except Failure Sink :=
  match s.firstRefused? [key] with
  | some key => .error (refused key)
  | none => .ok { s with data := store s.data key value, puts := s.puts + 1 }

/-- Deletes a key, whether it is there or not. -/
def erase (s : Sink) (key : String) : Except Failure Sink :=
  match s.firstRefused? [key] with
  | some key => .error (refused key)
  | none => .ok { s with data := drop s.data key, erases := s.erases + 1 }

/-- Stores several values in their order, or none of them. -/
def multiPut (s : Sink) (entries : List (String × Bytes)) : Except Failure Sink :=
  match s.firstRefused? (entries.map Prod.fst) with
  | some key => .error (refused key)
  | none => .ok { s with
      data := entries.foldl (fun data (key, value) => store data key value) s.data
      batches := s.batches + 1 }

/-- Deletes several keys, or none of them. -/
def multiErase (s : Sink) (keys : List String) : Except Failure Sink :=
  match s.firstRefused? keys with
  | some key => .error (refused key)
  | none => .ok { s with data := keys.foldl drop s.data, batches := s.batches + 1 }

end Sink

/-- A request to combine the stored values of one metric across providers. -/
structure ReduceRequest where
  ns : String
  name : String
  /-- The names of the metric joined by underscores. -/
  key : String
  /-- The sink that holds the provider's own value. -/
  shard : Nat
  operator : Operator
  /-- The number of providers that are expected to take part. -/
  cohort : Nat
deriving DecidableEq, Repr

/-- A reducer and the requests it received, oldest first. -/
structure Reducer where
  requests : List ReduceRequest := []
deriving Repr

/-- Receives a request. -/
def Reducer.receive (r : Reducer) (request : ReduceRequest) : Reducer :=
  ⟨r.requests ++ [request]⟩

end Telemetry
