import PromptDesk.Json.Published

/-! Why work did not succeed. A failure is a cause; its wording, its class and the advice to the
user are functions of the cause. -/
namespace PromptDesk

inductive Failure where
  | rejected (reason message : String)
  | transport (message : String)
  | timeout (ms : UInt64)
  | cancelled
  | unavailable (dependency : String)
  | configuration (message : String)
  | io (message : String)
  /-- A malformed JSON text; what is wrong with it is the reader's business. -/
  | malformedText (detail : String)
  /-- A malformed settings file. -/
  | malformedFile (detail : String)
  | invalidState (message : String)
  deriving DecidableEq, Inhabited, Repr

namespace Failure

/-- The class of a failure. -/
inductive Category where
  | admission
  | transport
  | timeout
  | cancellation
  | dependency
  | configuration
  | serialization
  | unknown
  deriving DecidableEq, Inhabited, Repr

instance : Named Category where
  all := [.admission, .transport, .timeout, .cancellation, .dependency, .configuration,
    .serialization, .unknown]
  name
    | .admission => "admission"
    | .transport => "transport"
    | .timeout => "timeout"
    | .cancellation => "cancellation"
    | .dependency => "dependency"
    | .configuration => "configuration"
    | .serialization => "serialization"
    | .unknown => "unknown"

/-- What the user may do about a failure. -/
inductive Advice where
  | waitForCurrentRequest
  | retryWithBackoff
  | increaseTimeout
  | checkConfiguration
  | nothing
  deriving DecidableEq, Inhabited, Repr

/-- The text shown for a failure. -/
def message : Failure → String
  | rejected reason message => "Request rejected (" ++ reason ++ "): " ++ message
  | transport message => "Transport error: " ++ message
  | timeout ms => "Timeout after " ++ Text.decimalText ms.toNat ++ "ms"
  | cancelled => "Request cancelled"
  | unavailable dependency => "Dependency unavailable: " ++ dependency
  | configuration message => "Configuration error: " ++ message
  | io message => "IO error: " ++ message
  | malformedText detail => "Serialization error: " ++ detail
  | malformedFile detail => "Config file error: " ++ detail
  | invalidState message => "Invalid state: " ++ message

def category : Failure → Category
  | rejected _ _ => .admission
  | transport _ => .transport
  | timeout _ => .timeout
  | cancelled => .cancellation
  | unavailable _ => .dependency
  | configuration _ | malformedFile _ => .configuration
  | malformedText _ => .serialization
  | io _ | invalidState _ => .unknown

/-- Sending the same request again could succeed. -/
def isRetryable (f : Failure) : Bool := f.category = .transport || f.category = .timeout

/-- A cancellation ends a request without being a fault. -/
def isCancellation (f : Failure) : Bool := f = .cancelled

def advice (f : Failure) : Advice :=
  match f.category with
  | .admission => .waitForCurrentRequest
  | .timeout => .increaseTimeout
  | .configuration => .checkConfiguration
  | .cancellation => .nothing
  | .transport | .dependency | .serialization | .unknown => .retryWithBackoff

end Failure

end PromptDesk
