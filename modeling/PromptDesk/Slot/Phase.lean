import PromptDesk.Slot.Lifecycle

/-! The phase of the one request that may be in flight, and the events that move it. A phase state
names the request, says whether its cancellation was asked for, and keeps the last fault. -/
namespace PromptDesk

inductive Phase where
  | idle
  | listening
  | transcribing
  | confirming
  | sending
  | streaming
  | done
  | error
  | cancelled
  deriving DecidableEq, Inhabited, Repr

namespace Phase

instance : Named Phase where
  all := [.idle, .listening, .transcribing, .confirming, .sending, .streaming, .done, .error,
    .cancelled]
  name
    | .idle => "idle"
    | .listening => "listening"
    | .transcribing => "transcribing"
    | .confirming => "confirming"
    | .sending => "sending"
    | .streaming => "streaming"
    | .done => "done"
    | .error => "error"
    | .cancelled => "cancelled"

/-- A request in this phase holds the slot. -/
def isInFlight : Phase → Bool
  | listening | transcribing | confirming | sending | streaming => true
  | _ => false

/-- A request has ended in this phase. -/
def isTerminal : Phase → Bool
  | done | error | cancelled => true
  | _ => false

def lifecycle : Phase → Lifecycle
  | idle | listening | transcribing | confirming => .pending
  | sending => .running
  | streaming => .streaming
  | done => .completed
  | error => .errored
  | cancelled => .cancelled

end Phase

/-- The phase of the current request, with what belongs to it. -/
structure PhaseState where
  phase : Phase := .idle
  requestId : Option String := none
  cancelRequested : Bool := false
  lastError : String := ""
  deriving DecidableEq, Inhabited, Repr

instance : Published PhaseState where
  toJson s := .object <|
    [("phase", toJson s.phase)] ++
      (match s.requestId with
        | some id => [("request_id", .text id)]
        | none => []) ++
      [("cancel_requested", .bool s.cancelRequested)] ++
      if s.lastError.isEmpty then [] else [("last_error", .text s.lastError)]
  ofTree? t := do
    let r ← t.record? ["phase", "request_id", "cancel_requested", "last_error"]
    return ⟨← r.required? "phase", ← r.withDefault? "request_id" none,
      ← r.withDefault? "cancel_requested" false, ← r.withDefault? "last_error" ""⟩

inductive PhaseEvent where
  | reset
  | startListen
  | startTranscribe
  | gotTranscript
  | confirmSend (requestId : Option String)
  | beginSend (requestId : Option String)
  | beginStream (requestId : Option String)
  | complete
  | fail (error : String)
  | cancel
  | retry (requestId : Option String)
  deriving DecidableEq, Inhabited, Repr

namespace PhaseState

def isInFlight (s : PhaseState) : Bool := s.phase.isInFlight

def isTerminal (s : PhaseState) : Bool := s.phase.isTerminal

def lifecycle (s : PhaseState) : Lifecycle := s.phase.lifecycle

/-- The state names this request. -/
def isFor (s : PhaseState) (id : String) : Bool := s.requestId == some id

/-- The state after an event. A request keeps its id until another one is named; a fault without
a text keeps the last one. -/
def next (s : PhaseState) : PhaseEvent → PhaseState
  | .reset => {}
  | .startListen => { phase := .listening }
  | .startTranscribe => { phase := .transcribing }
  | .gotTranscript => { phase := .confirming }
  | .confirmSend id | .beginSend id | .retry id =>
    { phase := .sending, requestId := id <|> s.requestId }
  | .beginStream id => { phase := .streaming, requestId := id <|> s.requestId }
  | .complete => { phase := .done, requestId := s.requestId }
  | .fail error =>
    { phase := .error, requestId := s.requestId,
      lastError := if error.isEmpty then s.lastError else error }
  | .cancel => { phase := .cancelled, requestId := s.requestId, cancelRequested := true }

/-- The states after each of some events. -/
def trail : PhaseState → List PhaseEvent → List PhaseState
  | _, [] => []
  | s, e :: es => s.next e :: (s.next e).trail es

end PhaseState

end PromptDesk
