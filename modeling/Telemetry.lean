import Telemetry.Failure
import Telemetry.Text.Utf8
import Telemetry.Text.Quoted
import Telemetry.Number.Integer
import Telemetry.Number.Shortest
import Telemetry.Metric.Identity
import Telemetry.Metric.Names
import Telemetry.Metric.Key
import Telemetry.Metric.Buffer
import Telemetry.Metric.Histogram
import Telemetry.Reduction.Value
import Telemetry.Resp.Codec
import Telemetry.Protocol.Request
import Telemetry.Protocol.Frame
import Telemetry.Config.Service
import Telemetry.Reduction.Engine
import Telemetry.Provider.Backend
import Telemetry.Provider.Basic
import Telemetry.Provider.Cycle
import Telemetry.Provider.Lifecycle
import Telemetry.Provider.Answer
import Telemetry.Network.Connection
import Telemetry.Network.Link
import Telemetry.Reduction.Remote
import Telemetry.Client.Basic
import Telemetry.Client.Calls
import Telemetry.Server.Basic
import Telemetry.Client.References
import Telemetry.Metric.Writers
import Telemetry.Provider.Calls
import Telemetry.CommandLine.Fetch
import Telemetry.CommandLine.Service
import Telemetry.Network.Address
import Telemetry.Main
import Telemetry.Proofs.Number.Decimal
import Telemetry.Proofs.Text.LineBreak
import Telemetry.Proofs.Resp.RoundTrip
import Telemetry.Proofs.Resp.Incremental
import Telemetry.Proofs.Resp.Chunks
import Telemetry.Proofs.Failure
import Telemetry.Proofs.Protocol.Frames
import Telemetry.Proofs.Protocol.Requests
import Telemetry.Proofs.Resp.Faults
import Telemetry.Proofs.Metric.Registered
import Telemetry.Proofs.Provider.Reachable
import Telemetry.Proofs.Server.Replies
import Telemetry.Proofs.Records
import Telemetry.Proofs.Metric.Samples
import Telemetry.Proofs.Protocol.Regions
import Telemetry.Proofs.Resp.Refusal
import Telemetry.Proofs.Network.Events
import Telemetry.Proofs.Server.Service
import Telemetry.Proofs.Client.Exchange
import Telemetry.Proofs.Client.Reached
import Telemetry.Proofs.Client.Received
import Telemetry.Proofs.Client.Fetch
import Telemetry.Proofs.Client.Safety
import Telemetry.Proofs.Number.Order
import Telemetry.Proofs.Metric.History
import Telemetry.Proofs.Entries
import Telemetry.Proofs.Metric.FiniteMap
import Telemetry.Proofs.Interleaving
import Telemetry.Proofs.Metric.Live
import Telemetry.Proofs.Metric.Words
import Telemetry.Proofs.Provider.Contexts
import Telemetry.Proofs.Provider.Finalization
import Telemetry.Proofs.Provider.Calls
import Telemetry.Proofs.Provider.Races
import Telemetry.Proofs.Reduction.Batched
import Telemetry.Proofs.Reduction.Keys
import Telemetry.Proofs.Reduction.Requests
import Telemetry.Proofs.Provider.Secrecy
import Telemetry.Proofs.Provider.Cycles
import Telemetry.Proofs.Network.Answers
import Telemetry.Proofs.Client.Pairing
import Telemetry.Proofs.Network.Links
import Telemetry.Proofs.Metric.TagOrder
import Telemetry.Proofs.Metric.Writers
import Telemetry.Proofs.Client.References
import Telemetry.Proofs.Server.Routing
import Telemetry.Proofs.Client.Listing
import Telemetry.Proofs.Resp.Stalls
import Telemetry.Proofs.Metric.Collisions
import Telemetry.Proofs.Provider.Contract
import Telemetry.Proofs.Resp.FrameBound
import Telemetry.Proofs.Resp.Narrowing
import Telemetry.Proofs.Protocol.RoundTrip
import Telemetry.Proofs.Network.Streams
import Telemetry.Proofs.Network.Selection
import Telemetry.Proofs.Reduction.Databases
import Telemetry.Proofs.Reduction.Values
import Telemetry.Proofs.Reduction.Retrieval
import Telemetry.Proofs.Metric.KeyReading
import Telemetry.Proofs.Reduction.Extremes
import Telemetry.Proofs.Number.Rounding
import Telemetry.Proofs.Number.Value
import Telemetry.Proofs.Number.Arithmetic
import Telemetry.Proofs.Metric.Numbers
import Telemetry.Proofs.Reduction.Flat
import Telemetry.Proofs.Metric.Buckets
import Telemetry.Proofs.Metric.Ends
import Telemetry.Proofs.Client.Sharing
import Telemetry.Proofs.Client.Clamp
import Telemetry.Proofs.Text.Fields
import Telemetry.Proofs.Config.Addresses
