/-!
# Failures and status codes

`Failure` is why an operation was refused; `Failure.message` is its one rendering. `Status` is the
number a reply carries in its place. A status says less than a failure: `Status.toFailure?` rebuilds
a failure of the same status from the name of the request it answers.
-/
namespace Telemetry

/-- Why an operation was refused. -/
inductive Failure where
  | invalidName (detail : String)
  | allocation (detail : String)
  | invalidArgs (detail : String)
  | invalidProvider (detail : String)
  | invalidMetric (detail : String)
  | invalidValue (detail : String)
  | invalidBackend (detail : String)
  | invalidConfig (detail : String)
  | invalidToken
  | transport (detail : String)
  | metricExists (detail : String)
  | bufferFull (capacity : Nat)
  | unsupported (detail : String)
  | forbidden (detail : String)
  | sink (detail : String)
  | io (detail : String)
  | other (detail : String)
deriving DecidableEq, Repr

/-- The text a caller is shown. -/
def Failure.message : Failure → String
  | invalidName d => "invalid name: " ++ d
  | allocation d => "allocation failed: " ++ d
  | invalidArgs d => "invalid argument: " ++ d
  | invalidProvider d => "invalid provider: " ++ d
  | invalidMetric d => "metric not found: " ++ d
  | invalidValue d => "invalid value: " ++ d
  | invalidBackend d => "unknown backend: " ++ d
  | invalidConfig d => "invalid configuration: " ++ d
  | invalidToken => "invalid token"
  | transport d => "transport error: " ++ d
  | metricExists d => "metric already exists: " ++ d
  | bufferFull capacity => "sample buffer full: capacity " ++ toString capacity
  | unsupported d => "operation not supported: " ++ d
  | forbidden d => "operation forbidden: " ++ d
  | sink d => "aggregation sink error: " ++ d
  | io d => "IO error: " ++ d
  | other d => d

/-- The word for the kind of a failure. -/
def Failure.kind : Failure → String
  | invalidName _ => "InvalidName"
  | allocation _ => "Allocation"
  | invalidArgs _ => "InvalidArgs"
  | invalidProvider _ => "InvalidProvider"
  | invalidMetric _ => "InvalidMetric"
  | invalidValue _ => "InvalidValue"
  | invalidBackend _ => "InvalidBackend"
  | invalidConfig _ => "InvalidConfig"
  | invalidToken => "InvalidToken"
  | transport _ => "Transport"
  | metricExists _ => "MetricExists"
  | bufferFull _ => "BufferFull"
  | unsupported _ => "Unsupported"
  | forbidden _ => "Forbidden"
  | sink _ => "Sink"
  | io _ => "Io"
  | other _ => "Other"

/-- The failure of a kind, with the capacity of a full buffer; an unknown word stands for `other`.
-/
def Failure.ofKind (kind detail : String) (capacity : Nat) : Failure :=
  let failures := [invalidName detail, allocation detail, invalidArgs detail,
    invalidProvider detail, invalidMetric detail, invalidValue detail, invalidBackend detail,
    invalidConfig detail, invalidToken, transport detail, metricExists detail, bufferFull capacity,
    unsupported detail, forbidden detail, sink detail, io detail]
  (failures.find? fun f => f.kind = kind).getD (other detail)

/-- The status that every reply carries. -/
inductive Status where
  | success
  | invalidName
  | allocation
  | invalidArgs
  | invalidProvider
  | invalidMetric
  | invalidValue
  | invalidBackend
  | invalidConfig
  | invalidToken
  | transport
  | metricExists
  | bufferFull
  | unsupported
  | forbidden
  | other
deriving DecidableEq, Repr

namespace Status

/-- Every status, in the order of the codes. -/
def all : List Status :=
  [success, invalidName, allocation, invalidArgs, invalidProvider, invalidMetric, invalidValue,
    invalidBackend, invalidConfig, invalidToken, transport, metricExists, bufferFull, unsupported,
    forbidden, other]

/-- The number sent for a status. -/
def code : Status → Int
  | success => 0
  | invalidName => 1
  | allocation => 2
  | invalidArgs => 3
  | invalidProvider => 4
  | invalidMetric => 5
  | invalidValue => 6
  | invalidBackend => 7
  | invalidConfig => 8
  | invalidToken => 9
  | transport => 10
  | metricExists => 11
  | bufferFull => 12
  | unsupported => 13
  | forbidden => 14
  | other => 15

/-- The status a number stands for. -/
def ofCode? (n : Int) : Option Status := all.find? fun s => s.code = n

theorem ofCode?_code (s : Status) : ofCode? s.code = some s := by cases s <;> rfl

/-- The name of a status inside messages. -/
def name : Status → String
  | success => "Success"
  | invalidName => "InvalidName"
  | allocation => "Allocation"
  | invalidArgs => "InvalidArgs"
  | invalidProvider => "InvalidProvider"
  | invalidMetric => "InvalidMetric"
  | invalidValue => "InvalidValue"
  | invalidBackend => "InvalidBackend"
  | invalidConfig => "InvalidConfig"
  | invalidToken => "InvalidToken"
  | transport => "Transport"
  | metricExists => "MetricExists"
  | bufferFull => "BufferFull"
  | unsupported => "Unsupported"
  | forbidden => "Forbidden"
  | other => "Other"

/-- The failure that a reply's status stands for, told with the name of the request; none for
success. The capacity of a full buffer is not sent, so it is rebuilt as zero. -/
def toFailure? (context : String) : Status → Option Failure
  | success => none
  | invalidName => some (.invalidName context)
  | allocation => some (.allocation context)
  | invalidArgs => some (.invalidArgs context)
  | invalidProvider => some (.invalidProvider context)
  | invalidMetric => some (.invalidMetric context)
  | invalidValue => some (.invalidValue context)
  | invalidBackend => some (.invalidBackend context)
  | invalidConfig => some (.invalidConfig context)
  | invalidToken => some .invalidToken
  | transport => some (.transport context)
  | metricExists => some (.metricExists context)
  | bufferFull => some (.bufferFull 0)
  | unsupported => some (.unsupported context)
  | forbidden => some (.forbidden context)
  | other => some (.other context)

end Status

/-- The status under which a failure is reported. Trouble with files counts as transport, and a
failing sink is among the other failures. -/
def Failure.status : Failure → Status
  | invalidName _ => .invalidName
  | allocation _ => .allocation
  | invalidArgs _ => .invalidArgs
  | invalidProvider _ => .invalidProvider
  | invalidMetric _ => .invalidMetric
  | invalidValue _ => .invalidValue
  | invalidBackend _ => .invalidBackend
  | invalidConfig _ => .invalidConfig
  | invalidToken => .invalidToken
  | transport _ => .transport
  | io _ => .transport
  | metricExists _ => .metricExists
  | bufferFull _ => .bufferFull
  | unsupported _ => .unsupported
  | forbidden _ => .forbidden
  | sink _ => .other
  | other _ => .other

theorem Status.status_of_toFailure? {context : String} {s : Status} {f : Failure}
    (h : s.toFailure? context = some f) : f.status = s := by
  cases s <;> simp [Status.toFailure?] at h <;> subst h <;> rfl

end Telemetry
