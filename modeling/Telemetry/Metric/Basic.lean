import Telemetry.Json
import Telemetry.Metric.Buffer
import Telemetry.Metric.Identity
import Telemetry.Metric.Key
import Telemetry.Metric.Names

/-!
# Metrics

A metric is its names, its kind, the way it is reduced, the samples recorded so far, and possibly a
context of a storage backend.
-/
namespace Telemetry

/-- The storage backend that a metric asks for. -/
structure BackendSpec where
  name : String
  config : Json
  /-- Whether storage that exists is opened instead of created. -/
  openExisting : Bool

/-- How a metric is described to a provider. -/
structure MetricSpec where
  ns : String
  name : String
  kind : Kind
  tags : TagList
  description : String
  operator : Operator
  backend : Option BackendSpec

/-- What a backend keeps for one metric. The ticket tells contexts apart. -/
structure BackendContext where
  ticket : Nat
  /-- The backend that made the context. -/
  owner : String
  provider : UInt16
  config : Json

/-- A metric of a provider. -/
structure Metric where
  id : MetricId
  ns : String
  name : String
  description : String
  tags : TagList
  operator : Operator
  buffer : SampleBuffer
  context : Option BackendContext

namespace Metric

/-- The metric of a description with room for `capacity` samples. -/
def ofSpec (spec : MetricSpec) (capacity : Nat) : Except Failure Metric := do
  checkNames spec.ns spec.name spec.description
  let buffer ← SampleBuffer.ofCapacity spec.kind capacity
  return {
    id := MetricId.ofNames spec.ns spec.name spec.tags.toList
    ns := spec.ns
    name := spec.name
    description := spec.description
    tags := spec.tags
    operator := spec.operator
    buffer := buffer
    context := none }

/-- What the metric records. -/
def kind (m : Metric) : Kind := m.buffer.kind

/-- The names of the metric joined by underscores. -/
def stringified (m : Metric) : String := Key.stringify m.ns m.name m.tags.toList

/-- The key of the metric's reduced value. -/
def reductionKey (m : Metric) : String := Key.encode m.stringified m.operator

/-- The backend that keeps a context for the metric. -/
def backend? (m : Metric) : Option String := m.context.map BackendContext.owner

/-- The metric with one more value recorded. -/
def update (m : Metric) (value time : Double) (writer : UInt64) : Except Failure Metric :=
  (m.buffer.append value time writer).map fun b => { m with buffer := b }

/-- The metric with its last value changed by `delta`. -/
def updateDelta (m : Metric) (delta time : Double) (writer : UInt64) : Except Failure Metric :=
  (m.buffer.appendDelta delta time writer).map fun b => { m with buffer := b }

end Metric

end Telemetry
