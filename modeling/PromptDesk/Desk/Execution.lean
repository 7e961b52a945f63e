import PromptDesk.Desk.Playback

/-! Executions: a request that holds the slot is sent, its response is read into an attempt, and
the slot is given back. At every point where an execution may have waited, it finds out whether the
slot still names its request; if it does not, what it does reaches nobody. -/
namespace PromptDesk

/-- What a turn of an execution comes to. -/
inductive Progress where
  | waiting (execution : Execution)
  | ended (response : Response)
  | panicked (message : String)
  deriving Inhabited

namespace Desk

/-- Ends an execution: gives the slot back after reading, and makes the response. A completion counts
only while the slot still names the request. -/
def finish (d : Desk) (id : String) (attempt : Nat) : ReadOutcome → Desk × Progress
  | .completed text =>
    match d.slot.completeFor? id with
    | none => (d.note attempt (.cancelExecuted "pipeline" true), .ended (.empty id .cancelled d.now))
    | some s =>
      let text := Text.trim text
      let d := d.withSlot s
      let d := { d with conversation := { d.conversation with lastResponse := text } }
      match d.setup.history with
      | some writer =>
        match d.recordLogEntry attempt writer with
        | (d, .ok _) => (d, .ended ⟨id, .ofText .assistant text d.now, .completed⟩)
        | (d, .error payload) => (d, .panicked payload.message)
      | none => (d, .ended ⟨id, .ofText .assistant text d.now, .completed⟩)
  | .cancelled _ =>
    let d := match d.slot.cancelFor? id with
      | some s => d.withSlot s
      | none => d
    (d.note attempt (.cancelExecuted "pipeline" true), .ended (.empty id .cancelled d.now))
  | .failed f => (d.failOwned id f, .ended (.empty id (.failed f.message) d.now))

/-- Ends an execution whose transport failed; a cancellation is no fault of the attempt. -/
def transportFailed (d : Desk) (id : String) (attempt : Nat) (f : Failure) : Desk × Progress :=
  if f.isCancellation then d.finish id attempt (.cancelled "")
  else (d.note attempt (.error f.message)).finish id attempt (.failed f)

/-- A turn of an execution that reads its stream. -/
def continueReading (d : Desk) (e : Execution) (r : Reader) : Desk × Progress :=
  match d.read r with
  | (d, .waiting r) => (d, .waiting { e with stage := .reading r })
  | (d, .ended outcome) => d.finish e.requestId r.attempt outcome
  | (d, .panicked message) => (d, .panicked message)

/-- Reads a stream that was opened, if the request is still being sent. -/
def streamOpened (d : Desk) (e : Execution) (attempt token : Nat) (items : List Item) :
    Desk × Progress :=
  match d.slot.beginStreamFor? e.requestId with
  | none => d.finish e.requestId attempt (.cancelled "")
  | some s =>
    let d := d.withSlot s
    let idle := Limit.start d.setup.settings.streamIdleTimeoutMs.toNat d.clock
    d.continueReading e ⟨attempt, some token, idle, { rest := items }⟩

/-- A turn of an execution that opens its stream. -/
def continueOpening (d : Desk) (e : Execution) (attempt token : Nat) (limit : Option Limit)
    (p : Playback) (items : List Item) : Desk × Progress :=
  if d.slot.isTripped token then d.transportFailed e.requestId attempt .cancelled
  else match d.collectWithin limit p with
    | (d, .waiting p) => (d, .waiting { e with stage := .opening attempt token limit p items })
    | (d, .text _) => d.streamOpened e attempt token items
    | (d, .failed f) => d.transportFailed e.requestId attempt f
    | (d, .panicked message) => (d, .panicked message)

/-- Ends an execution whose response came as a whole. -/
def textArrived (d : Desk) (id : String) (attempt : Nat) (text : String) : Desk × Progress :=
  let d := (d.note attempt (.chunk text)).note attempt .complete
  d.finish id attempt (.completed (d.board.attempt attempt).text)

/-- A turn of an execution that expects its response as a whole. -/
def continueCollecting (d : Desk) (e : Execution) (attempt token : Nat) (limit : Option Limit)
    (p : Playback) : Desk × Progress :=
  if d.slot.isTripped token then d.transportFailed e.requestId attempt .cancelled
  else match d.collectWithin limit p with
    | (d, .waiting p) => (d, .waiting { e with stage := .collecting attempt token limit p })
    | (d, .text text) => d.textArrived e.requestId attempt text
    | (d, .failed f) => d.transportFailed e.requestId attempt f
    | (d, .panicked message) => (d, .panicked message)

/-- Calls the transport, which takes the reply from the front of the script. -/
def callTransport (d : Desk) (r : TransportRequest) : Desk × Reply :=
  let reply := d.replies.head?.getD .standard
  ({ d with replies := d.replies.tail }.write (.transport d.setup.settings.streaming r), reply)

/-- Starts an attempt for a request, with the axes that the catalog knows. -/
def beginAttempt (d : Desk) (id : String) (axes : Axes) : Desk × Nat :=
  let (b, i) := d.board.beginOwned id d.slot.state
  let d := d.withBoard b
  match d.setup.catalog with
  | some catalog =>
    if axes.isEmpty then (d, i) else (d.withBoard (d.board.setAxes i axes catalog).1, i)
  | none => (d, i)

/-- The first turn of an execution. A request that lost the slot, or was cancelled, is not sent. -/
def launch (d : Desk) (e : Execution) : Desk × Progress :=
  match d.slot.tokenFor? e.requestId with
  | none =>
    if d.slot.state.isFor e.requestId then
      let (d, r) := d.cancelledBeforeStart e.requestId
      (d, .ended r)
    else (d, .ended (.empty e.requestId .cancelled d.now))
  | some token =>
    let (d, attempt) := d.beginAttempt e.requestId e.draft.axes
    let (d, reply) := d.callTransport ⟨e.requestId, e.draft.messages⟩
    let limit := Limit.start d.setup.settings.requestTimeoutMs.toNat d.clock
    if d.setup.settings.streaming then
      d.continueOpening e attempt token limit { rest := reply.opening } reply.items
    else
      d.continueCollecting e attempt token limit { rest := reply.opening ++ reply.items }

/-- A turn of an execution. -/
def execute (d : Desk) (e : Execution) : Desk × Progress :=
  match e.stage with
  | .claimed => d.launch e
  | .opening attempt token limit p items => d.continueOpening e attempt token limit p items
  | .collecting attempt token limit p => d.continueCollecting e attempt token limit p
  | .reading r => d.continueReading e r

end Desk

end PromptDesk
