import PromptDesk.Destination
import PromptDesk.Message

/-! How a request ends, and what is handed back for it. A response carries text only when its
request was completed. -/
namespace PromptDesk

inductive Outcome where
  | completed
  | failed (error : String)
  | cancelled
  deriving DecidableEq, Inhabited, Repr

instance : Published Outcome where
  toJson
    | .completed => .object [("status", .text "completed")]
    | .failed error => .object [("status", .text "failed"), ("error", .text error)]
    | .cancelled => .object [("status", .text "cancelled")]
  ofTree? t := do
    let (status, fields) ← t.tagged? "status"
    if status == "completed" then
      let () ← fields.noFields?
      return .completed
    else if status == "failed" then
      let r ← fields.record? ["error"]
      return .failed (← r.required? "error")
    else if status == "cancelled" then
      let () ← fields.noFields?
      return .cancelled
    else none

/-- What is sent to the model. -/
structure TransportRequest where
  requestId : String
  messages : List Message
  deriving DecidableEq, Inhabited

instance : Published TransportRequest where
  toJson r := .object [("request_id", .text r.requestId), ("messages", toJson r.messages)]
  ofTree? t := do
    let r ← t.record? ["request_id", "messages"]
    return ⟨← r.required? "request_id", ← r.required? "messages"⟩

/-- What one execution returns. -/
structure Response where
  requestId : String
  message : Message
  outcome : Outcome
  deriving DecidableEq, Inhabited

namespace Response

/-- A response without content. -/
def empty (requestId : String) (outcome : Outcome) (now : Timestamp) : Response :=
  ⟨requestId, ⟨.assistant, [], some now⟩, outcome⟩

def text (r : Response) : String := r.message.text

def isCompleted (r : Response) : Bool := r.outcome = .completed

end Response

/-- A response with the place that it is meant for. -/
structure PromptResult where
  requestId : String
  messages : List Message
  outcome : Outcome
  destination : Destination
  deriving DecidableEq, Inhabited

namespace PromptResult

def ofResponse (r : Response) (destination : Destination) : PromptResult :=
  ⟨r.requestId, [r.message], r.outcome, destination⟩

/-- The text of the first message. -/
def text (r : PromptResult) : String := (r.messages.head?.map Message.text).getD ""

def isCompleted (r : PromptResult) : Bool := r.outcome = .completed

def presentation (r : PromptResult) (destination : Destination) : Presentation :=
  .render r.text destination

end PromptResult

end PromptDesk
