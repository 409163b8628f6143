import Std.Async.DNS
import Std.Async.Signal
import Std.Async.TCP
import Std.Async.Timer
import Telemetry.CommandLine.Fetch
import Telemetry.CommandLine.Service
import Telemetry.Metric.Writers
import Telemetry.Network.Address
import Telemetry.Network.Transcript
import Telemetry.Provider.Cycle

/-!
# The programs

`fetch` lists and prints the metrics of a provider, and `provider` serves one until it is
interrupted. What they do is said by `FetchCommand` and `Service`; here they are given sockets,
files, the environment and the clock.
-/
namespace Telemetry.Program

open Std.Async Std.Net

/-! ## Connections -/

/-- The socket address of a host and a port. -/
def resolve (address : String) : Async SocketAddress := do
  if let some fault := Address.fault? (fun _ => none) address then throw (IO.userError fault)
  let (host, port) := (Address.split? address).getD (address, "")
  let port := UInt16.ofNat ((IntegerRange.word16.parseNat port).toOption.getD 0)
  match IPv4Addr.ofString host with
  | some ip => return .v4 ⟨ip, port⟩
  | none =>
    let found ← DNS.getAddrInfo host "" (some .ipv4)
    match found[0]? with
    | some (IPAddr.v4 ip) => return .v4 ⟨ip, port⟩
    | _ => throw (IO.userError "failed to lookup address information")

/-- Connects to an address. -/
def dial (address : String) : Async TCP.Socket.Client := do
  let socket ← TCP.Socket.Client.mk
  socket.connect (← resolve address)
  return socket

/-- The most bytes that are read at once. -/
def chunkSize : UInt64 := 65536

/-- Reads a chunk; the outer option is empty if nothing comes before the deadline. -/
def readChunk (socket : TCP.Socket.Client) (deadline? : Option Nat) :
    Async (Option (Option ByteArray)) := do
  match deadline? with
  | none => return some (← socket.recv? chunkSize)
  | some deadline =>
    let now ← IO.monoMsNow
    if deadline ≤ now then return none
    Selectable.one #[
      .case (socket.recvSelector chunkSize) fun chunk => return some chunk,
      .case (← Selector.sleep (.ofNat (deadline - now))) fun _ => return none]

/-- Reads until a reply is there, the connection ends or the deadline is over. -/
partial def readReply (socket : TCP.Socket.Client) (deadline? : Option Nat) (seen : Bytes) :
    Async Delivery := do
  if holdsReply seen then return { bytes := seen }
  match ← readChunk socket deadline? with
  | none => return { bytes := seen }
  | some none => return { bytes := seen, ending := .closed }
  | some (some chunk) => readReply socket deadline? (seen ++ chunk.toList)

/-- Sends bytes and reads what is answered. -/
def converse (socket : TCP.Socket.Client) (bytes : Bytes) (timeoutMs? : Option Nat) :
    Async Delivery := do
  let started ← IO.monoMsNow
  try socket.send ⟨bytes.toArray⟩
  catch e => return { loss? := some (toString e) }
  try readReply socket (timeoutMs?.map (started + ·)) []
  catch e => return { ending := .failed (toString e) }

/-- Carries out what a call does on the network, given the sockets of the connections that were
made. -/
partial def carryOut (timeoutMs? : Option Nat) (call : Network → α × Wire)
    (sockets : Array TCP.Socket.Client) (t : Transcript) :
    Async (α × Wire × Array TCP.Socket.Client) := do
  let (result, w) := call t.network
  match t.next? w with
  | none => return (result, w, sockets)
  | some (.sent connection bytes) =>
    let delivery ← match sockets[connection]? with
      | some socket => converse socket bytes timeoutMs?
      | none => pure { ending := .failed "no such connection" }
    carryOut timeoutMs? call sockets (t.addDelivery delivery)
  | some (.opened address) | some (.refused address) =>
    let dialled ← try pure (Except.ok (← dial address)) catch e => pure (Except.error (toString e))
    match dialled with
    | .ok socket => carryOut timeoutMs? call (sockets.push socket) (t.addAttempt none)
    | .error detail => carryOut timeoutMs? call sockets (t.addAttempt (some detail))

/-! ## Fetching -/

/-- Lists and prints the metrics of a provider. -/
def fetch (args : List String) : IO UInt32 := do
  let token ← IO.getEnv "TAGMON_TOKEN"
  let call net := FetchCommand.runArguments net args token {}
  let (result, _, _) ← (carryOut (some ({} : Client).timeoutMs) call #[] {}).block
  IO.print result.out
  IO.eprint result.err
  return UInt32.ofNat result.exit

/-! ## Serving -/

/-- The environment, as far as a configuration is made from it. -/
def readEnvironment : IO (String → Option String) := do
  let values ← ServiceConfig.variableNames.mapM fun key => return (key, ← IO.getEnv key)
  return fun key => (values.lookup key).join

/-- The texts of those of some files that can be read. -/
def readFiles (paths : List String) : IO Files := do
  let texts ← paths.mapM fun (path : String) => do
    let text ← try pure (some (← IO.FS.readFile path)) catch _ => pure none
    return (path, text)
  return fun path => (texts.lookup path).join

/-- The files that an environment names, directly or through a configuration file. -/
def readNamedFiles (env : String → Option String) : IO Files := do
  let first ← readFiles (env "TAGMON_CONFIG_FILE").toList
  match ServiceConfig.load env first with
  | .error _ => return first
  | .ok config =>
    let rest ← readFiles (config.aggregatorFile.toList ++ config.reducerFile.toList)
    return fun path => (first path).or (rest path)

/-- Answers the requests on a connection until it ends. -/
partial def serve (service : IO.Ref Service) (socket : TCP.Socket.Client) (session : Session) :
    Async Unit := do
  match ← socket.recv? chunkSize with
  | none => socket.send ⟨(encodeFrames session.finish).toArray⟩
  | some chunk =>
    let lookup := (← service.get).server.provider?
    let (frames, session) := session.feed lookup chunk.toList
    socket.send ⟨(encodeFrames frames).toArray⟩
    if session.ended then socket.shutdown else serve service socket session

/-- Accepts connections. -/
partial def acceptAll (service : IO.Ref Service) (listener : TCP.Socket.Server) : Async Unit := do
  let socket ← listener.accept
  background (try serve service socket {} catch _ => pure ())
  acceptAll service listener

/-- The seconds since the epoch. -/
def wallClock : IO Double := do
  let now ← Std.Time.Timestamp.now
  return .ofNat now.toMillisecondsSinceUnixEpoch.toInt.toNat / .ofNat 1000

/-- Counts the seconds since the service started. -/
partial def countUptime (service : IO.Ref Service) (started : Nat) : Async Unit := do
  let seconds := Double.ofNat ((← IO.monoMsNow) - started) / .ofNat 1000
  let now ← wallClock
  service.modify fun s => s.countUptime seconds now (taskTag 0)
  sleep (.ofNat 1000)
  countUptime service started

/-- Runs reduction cycles and passes on what they make. The connections to the aggregators and the
reducer are kept from one cycle to the next. -/
partial def runCycles (service : IO.Ref Service) (interval connections : Nat)
    (sockets : Array TCP.Socket.Client) : Async Unit := do
  sleep (.ofNat interval)
  let due ← service.modifyGet fun s =>
    let s := s.modify fun p => p.wait interval
    (s, s.emptied)
  let call net := due.dispatch net { connections := connections }
  let (done, w, sockets) ← carryOut none call sockets {}
  service.modify fun s => { s with aggregators := done.aggregators, reducer := done.reducer }
  runCycles service interval w.connections sockets

/-- Serves a provider until the program is interrupted. -/
def provide : Async UInt32 := do
  let env ← readEnvironment
  match Service.launch env (← readNamedFiles env) (Address.fault? fun _ => none) with
  | .error (exit, failure) =>
    IO.eprintln failure.message
    return UInt32.ofNat exit
  | .ok service =>
    try
      let listener ← TCP.Socket.Server.mk
      listener.bind (← resolve service.config.listenAddress)
      listener.listen 1024
      let state ← IO.mkRef service
      background (acceptAll state listener)
      background (countUptime state (← IO.monoMsNow))
      if let some interval := service.provider?.bind Provider.interval? then
        background (runCycles state interval 0 #[])
      let interrupted ← Signal.Waiter.mk .sigint false
      discard (await (← interrupted.wait))
      state.modify fun s => { s with server := s.server.shutdown }
      return 0
    catch e =>
      IO.eprintln ("transport error: bind " ++ service.config.listenAddress ++ ": " ++ toString e)
      return 1

end Telemetry.Program

/-- Runs one of the programs. -/
def main (args : List String) : IO UInt32 :=
  match args with
  | "fetch" :: rest => Telemetry.Program.fetch rest
  | ["provider"] => Telemetry.Program.provide.block
  | _ => do
    IO.eprintln
      "usage: telemetry fetch <address> [provider_id] [max_ids] [count] | telemetry provider"
    return 2
