import Telemetry.Client.Calls
import Telemetry.Number.Shortest

/-!
# The fetch command

The command lists metrics of a provider and prints the newest samples of each. `FetchCommand.run`
says what it prints and how it exits, whatever the network does.
-/
namespace Telemetry

/-- What a command leaves behind. -/
structure CommandResult where
  exit : Nat
  out : String := ""
  err : String := ""
deriving DecidableEq, Repr

/-- What the fetch command is asked for. -/
structure FetchCommand where
  address : String
  provider : UInt16 := 1
  /-- The most metrics that are listed. -/
  maxIds : UInt64 := 100
  /-- The most samples of each metric that are fetched. -/
  count : Int64 := 10
deriving DecidableEq, Repr

namespace FetchCommand

/-- How the command is used. -/
def usage : String := "usage: tagmon-fetch <address> [provider_id] [max_ids] [count]"

/-- Reads the argument of a position, if there is one. -/
def readArgument (args : List String) (position : Nat) (range : IntegerRange) (absent : Int) :
    Except String Int :=
  match args[position - 1]? with
  | none => .ok absent
  | some text =>
    match range.parseText text with
    | .ok n => .ok n
    | .error _ => .error ("argument " ++ toString position ++ " ('" ++ text ++ "') is invalid")

/-- The command that arguments ask for. The first argument that is invalid is reported; arguments
behind the fourth are ignored. -/
def ofArguments (args : List String) : Except String FetchCommand :=
  match args with
  | [] => .error usage
  | address :: _ => do
    let provider ← readArgument args 2 .word16 1
    let maxIds ← readArgument args 3 .word64 100
    let count ← readArgument args 4 .int64 10
    return {
      address := address
      provider := UInt16.ofNat provider.toNat
      maxIds := UInt64.ofNat maxIds.toNat
      count := Int64.ofInt count }

/-- The line for a sample. -/
def sampleLine (s : Sample) : String :=
  "  " ++ s.time.textFixed 6 ++ " " ++ s.value.text
    ++ " (writer " ++ hexText s.writer.toNat ++ ")\n"

/-- The lines for the samples of a metric. -/
def fetchedLines (id : MetricId) (f : Fetched) : String :=
  f.ns ++ "/" ++ f.name ++ " (" ++ id.hex ++ "): " ++ toString f.actualCount ++ " samples\n"
    ++ String.join (f.samples.map sampleLine)

/-- Fetches the newest samples of a metric through a handle of its own. -/
def fetchOne (net : Network) (cmd : FetchCommand) (c : Client) (id : MetricId) (w : Wire) :
    Except Failure Fetched × Client × Wire :=
  match c.openHandle cmd.address cmd.provider id with
  | .error failure => (.error failure, c, w)
  | .ok (handle, c) =>
    let (fetched, c, w) := c.fetch net handle cmd.count w
    match c.release handle with
    | .error failure => (.error failure, c, w)
    | .ok c => (fetched.getD (.error Client.noHandle), c, w)

/-- Fetches and prints one metric after the other, up to the first failure. -/
def fetchAll (net : Network) (cmd : FetchCommand) (c : Client) (out : String) :
    List MetricId → Wire → CommandResult × Wire
  | [], w => ({ exit := 0, out := out }, w)
  | id :: rest, w =>
    match cmd.fetchOne net c id w with
    | (.error failure, _, w) => (failed out failure, w)
    | (.ok fetched, c, w) => cmd.fetchAll net c (out ++ fetchedLines id fetched) rest w
where
  /-- What is left behind by a command that failed after it printed something. -/
  failed (out : String) (failure : Failure) : CommandResult :=
    { exit := 1, out := out, err := "fetch failed: " ++ failure.message ++ "\n" }

/-- Runs the command, which shows a token with its requests if it is given one. -/
def run (net : Network) (cmd : FetchCommand) (token : Option String) (w : Wire) :
    CommandResult × Wire :=
  let c : Client := { token := token }
  match c.list net cmd.address cmd.provider cmd.maxIds w with
  | (.error failure, _, w) => (fetchAll.failed "" failure, w)
  | (.ok ids, c, w) =>
    let header := toString ids.length ++ " metrics on provider " ++ toString cmd.provider.toNat
      ++ " at " ++ cmd.address ++ "\n"
    cmd.fetchAll net c header ids w

/-- Runs the command that arguments ask for. -/
def runArguments (net : Network) (args : List String) (token : Option String) (w : Wire) :
    CommandResult × Wire :=
  match ofArguments args with
  | .error message => ({ exit := 2, err := message ++ "\n" }, w)
  | .ok cmd => cmd.run net token w

end FetchCommand

end Telemetry
