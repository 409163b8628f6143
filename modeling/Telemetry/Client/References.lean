import Telemetry.Client.Basic
import Telemetry.Interleaving

/-!
# References counted side by side

Taking a reference is one atomic step; a release has up to three: it drops the reference, and if
that was the last one it lets go of the endpoint and counts one open handle less. Here calls that
count references run side by side on one client. A handle is opened in one step, as no other call
can have it before.
-/
namespace Telemetry

/-- A call that counts references of a handle, and how far it is. -/
inductive ReferenceCall where
  | openHandle (address : String) (provider : UInt16) (metric : MetricId)
  | addRef (handle : Nat)
  | release (handle : Nat)
  /-- A release that dropped the last reference. -/
  | dropEndpoint (handle : Nat)
  /-- A release that let go of the endpoint. -/
  | countClosed (handle : Nat)
  | finished (result : Except Failure Unit)

namespace ReferenceCall

/-- Whether a call has ended. -/
def isFinished : ReferenceCall → Bool
  | finished _ => true
  | _ => false

/-- The next atomic step of a call. -/
def step (c : Client) : ReferenceCall → Client × ReferenceCall
  | openHandle address provider metric =>
    match c.openHandle address provider metric with
    | .error failure => (c, finished (.error failure))
    | .ok (_, c) => (c, finished (.ok ()))
  | addRef handle =>
    match c.addRef handle with
    | .error failure => (c, finished (.error failure))
    | .ok c => (c, finished (.ok ()))
  | release handle =>
    match c.dropRef handle with
    | .error failure => (c, finished (.error failure))
    | .ok (true, c) => (c, dropEndpoint handle)
    | .ok (false, c) => (c, finished (.ok ()))
  | dropEndpoint handle => (c.dropEndpoint handle, countClosed handle)
  | countClosed _ => (c.countClosed, finished (.ok ()))
  | finished result => (c, finished result)

end ReferenceCall

/-- A client and the calls in progress on its handles, after a schedule. -/
def Client.interleave (c : Client) (calls : List ReferenceCall) (schedule : List Nat) :
    Interleaving Client ReferenceCall :=
  Interleaving.run ReferenceCall.step ⟨c, calls⟩ schedule

end Telemetry
