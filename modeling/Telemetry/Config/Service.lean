import Telemetry.Config.Addresses
import Telemetry.Config.Settings
import Telemetry.Config.Toml

/-!
# Service configuration

What a provider service is started with: a TOML file, if the environment names one, and variables of
the environment that take precedence over it.
-/
namespace Telemetry

/-- What a provider service is started with. -/
structure ServiceConfig where
  listenAddress : String := "0.0.0.0:7379"
  provider : UInt16 := 1
  token : Option String := none
  aggregatorFile : Option String := none
  reducerFile : Option String := none
  /-- The settings of the provider as a JSON text. -/
  settings : Option String := none
  /-- Whether the provider is finalized when its server shuts down. -/
  finalizeOnShutdown : Bool := true
  /-- Whether the service measures its own uptime. -/
  uptimeMetric : Bool := true
deriving DecidableEq, Repr

/-- The texts of the files that can be read. -/
abbrev Files := String → Option String

/-- Reads a file, or reports it by its name. -/
def Files.read (files : Files) (path : String) : Except Failure String :=
  match files path with
  | some text => .ok text
  | none => .error (.invalidConfig path)

namespace ServiceConfig

/-- The configuration with the value of one key changed. -/
def set (c : ServiceConfig) (key : String) (value : Toml.Value) : Option ServiceConfig :=
  match key, value with
  | "listen_addr", .string s => some { c with listenAddress := s }
  | "provider_id", .integer n =>
    if IntegerRange.word16.contains n then some { c with provider := UInt16.ofNat n.toNat }
    else none
  | "token", .string s => some { c with token := some s }
  | "aggregator_address_file", .string s => some { c with aggregatorFile := some s }
  | "reducer_address_file", .string s => some { c with reducerFile := some s }
  | "provider_config", .string s => some { c with settings := some s }
  | "push_finalize_callback", .bool b => some { c with finalizeOnShutdown := b }
  | "demo_metric", .bool b => some { c with uptimeMetric := b }
  | _, _ => none

/-- The configuration of a TOML text. -/
def ofToml (text : String) : Except Failure ServiceConfig :=
  match (Toml.parse? text).bind fun pairs =>
    pairs.foldlM (fun c (key, value) => c.set key value) ({} : ServiceConfig) with
  | some c => .ok c
  | none => .error (.invalidConfig "service config: not a service configuration")

/-- The configuration with the variables of an environment in place of what it says. -/
def override (c : ServiceConfig) (env : String → Option String) : Except Failure ServiceConfig :=
  let read (old : Option String) (key : String) := (env key).or old
  let provider : Except Failure UInt16 := match env "TAGMON_PROVIDER_ID" with
    | none => .ok c.provider
    | some text =>
      match IntegerRange.word16.parseNat text with
      | .ok n => .ok (UInt16.ofNat n)
      | .error _ => .error (.invalidConfig ("TAGMON_PROVIDER_ID '" ++ text ++ "' is not a u16"))
  provider.map fun id =>
    { c with
      listenAddress := (env "TAGMON_LISTEN_ADDR").getD c.listenAddress
      provider := id
      token := read c.token "TAGMON_TOKEN"
      aggregatorFile := read c.aggregatorFile "TAGMON_AGGREGATOR_ADDRESS_FILE"
      reducerFile := read c.reducerFile "TAGMON_REDUCER_ADDRESS_FILE"
      settings := read c.settings "TAGMON_PROVIDER_CONFIG" }

/-- The variables that a configuration is made from. -/
def variableNames : List String :=
  ["TAGMON_CONFIG_FILE", "TAGMON_LISTEN_ADDR", "TAGMON_PROVIDER_ID", "TAGMON_TOKEN",
    "TAGMON_AGGREGATOR_ADDRESS_FILE", "TAGMON_REDUCER_ADDRESS_FILE", "TAGMON_PROVIDER_CONFIG"]

/-- The configuration that an environment and the files it names give. -/
def load (env : String → Option String) (files : Files) : Except Failure ServiceConfig := do
  let c ← match env "TAGMON_CONFIG_FILE" with
    | none => .ok {}
    | some path => (files.read path).bind ofToml
  c.override env

end ServiceConfig

/-- The aggregation tier that a provider writes to. -/
structure AggregationPlan where
  aggregators : List AggregatorAddress
  reducer : Option ReducerAddress
deriving DecidableEq, Repr

namespace AggregationPlan

/-- The tier that the address files of a configuration describe; files that are not named add
nothing. -/
def load (c : ServiceConfig) (files : Files) : Except Failure AggregationPlan := do
  let aggregators ← match c.aggregatorFile with
    | none => .ok []
    | some path => (files.read path).bind Addresses.aggregators
  let reducer ← match c.reducerFile with
    | none => .ok none
    | some path => ((files.read path).bind Addresses.reducer).map some
  return ⟨aggregators, reducer⟩

end AggregationPlan

end Telemetry
