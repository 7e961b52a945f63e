import PromptDesk.Desk.Task
import PromptDesk.Telemetry

/-! Answers of a desk to its steps, and the effects that its surroundings see in between. -/
namespace PromptDesk

/-- The slot as a whole. -/
structure SlotView where
  state : PhaseState
  cancelRequested : Bool
  closed : Bool
  deriving DecidableEq, Inhabited, Repr

inductive Answer where
  | nothing
  | flag (b : Bool)
  | text (s : String)
  | all (answers : List Answer)
  | failure (failure : Failure)
  | panicked (message : String)
  /-- No name of this kind was kept. -/
  | unknownName
  /-- There is no such attempt. -/
  | noAttempt
  /-- Nothing is left that could end the wait. -/
  | stuck
  | phase (state : PhaseState)
  | slot (view : SlotView)
  /-- Whether a state was published since the last look, and the state. -/
  | watched (changed : Bool) (state : PhaseState)
  | admission (admission : Admission)
  | statistics (statistics : DropStatistics)
  | counts (counts : Counts)
  /-- The notice and the record of the last refusal. -/
  | lastDrop (message : String) (record : Option DropRecord)
  | drop (record : DropRecord)
  | telemetry (telemetry : Telemetry)
  | conversation (conversation : Conversation)
  | messages (messages : List Message)
  | destination (destination : Destination)
  /-- Work goes on in the background, under a request id if it has one. -/
  | pending (id : Option String)
  /-- A submission was refused. -/
  | refused (reason : DropReason) (message : String)
  | handle (handle : Handle)
  | resolved (inTime : Bool) (handle : Handle)
  | attempt (requestId : String) (retired : Bool)
  | attemptText (text : String) (retired : Bool)
  | snapshot (snapshot : Snapshot)
  /-- Whether a snapshot was published since the last look, and its text. -/
  | displayed (changed : Bool) (text : String)
  | transcript (transcript : Transcript)
  | events (events : List StreamEvent)
  | kinds (kinds : List EventKind)
  | axes (axes : Axes)
  /-- A submission that was waited for. -/
  | completed (result : PromptResult)
  | result (result : PromptResult)
  | response (response : Response)
  | reading (outcome : ReadOutcome)
  deriving Inhabited

namespace Answer

/-- The answer to a step that somebody has no answer for. -/
def ofMishap : Mishap → Answer
  | .failure f => failure f
  | .panic payload => panicked payload.message

/-- A text, or nothing. -/
def ofText? (s : Option String) : Answer := (s.map text).getD nothing

end Answer

/-- What the surroundings of a desk see of it. -/
inductive Effect where
  /-- The transport is called, for a stream or for the whole response. -/
  | transport (streaming : Bool) (request : TransportRequest)
  | history (entry : HistoryEntry)
  | event (event : StreamEvent)
  | telemetry (telemetry : Telemetry)
  | presented (product : Product)
  | defeatPresented (defeat : Defeat)
  /-- A step was made from inside a callback. -/
  | did (label : String) (answer : Answer)
  deriving Inhabited

end PromptDesk
