import PromptDesk.Json.Published

/-! The coarse status of a request and the events that move it. An event that does not apply
leaves the status as it is; a request that failed or was cancelled leaves that status by a retry
only. -/
namespace PromptDesk

inductive Lifecycle where
  | pending
  | running
  | streaming
  | completed
  | errored
  | cancelled
  deriving DecidableEq, Inhabited, Repr

namespace Lifecycle

instance : Named Lifecycle where
  all := [.pending, .running, .streaming, .completed, .errored, .cancelled]
  name
    | .pending => "pending"
    | .running => "running"
    | .streaming => "streaming"
    | .completed => "completed"
    | .errored => "errored"
    | .cancelled => "cancelled"

/-- Only a retry leads out. -/
def isTerminal : Lifecycle → Bool
  | errored | cancelled => true
  | _ => false

def isInFlight : Lifecycle → Bool
  | running | streaming => true
  | _ => false

/-- What moves a request; names that stand for nothing are kept. -/
inductive Event where
  | start
  | streamStart
  | streamEnd
  | complete
  | error
  | cancel
  | retry
  | unknown (name : String)
  deriving DecidableEq, Inhabited, Repr

/-- The event that a name stands for. -/
def Event.ofName (s : String) : Event :=
  if s == "start" then start
  else if s == "stream_start" then streamStart
  else if s == "stream_end" then streamEnd
  else if s == "complete" then complete
  else if s == "error" then error
  else if s == "cancel" then cancel
  else if s == "retry" then retry
  else unknown s

def Event.isKnown : Event → Bool
  | unknown _ => false
  | _ => true

/-- The status after an event. -/
def next : Lifecycle → Event → Lifecycle
  | errored, .retry | cancelled, .retry => running
  | pending, .start | completed, .start => running
  | running, .streamStart | streaming, .streamStart => streaming
  | running, .streamEnd | streaming, .streamEnd => completed
  | pending, .complete | running, .complete | streaming, .complete => completed
  | pending, .cancel | running, .cancel | streaming, .cancel => cancelled
  | pending, .error | running, .error | streaming, .error => errored
  | s, _ => s

/-- The statuses after each of some events. -/
def trail : Lifecycle → List Event → List Lifecycle
  | _, [] => []
  | s, e :: es => s.next e :: (s.next e).trail es

end Lifecycle

/-- A status on its own as it is published. -/
structure LifecycleReport where
  status : Lifecycle
  deriving DecidableEq, Inhabited, Repr

instance : Published LifecycleReport where
  toJson r := .object [("status", toJson r.status)]
  ofTree? t := do
    let r ← t.record? ["status"]
    return ⟨← r.required? "status"⟩

end PromptDesk
