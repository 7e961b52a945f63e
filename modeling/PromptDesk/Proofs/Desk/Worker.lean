import PromptDesk.Desk.Execution

/-! The steps of a worker. A turn of an execution is taken apart where others may come in between:
between one item and the next, around everything that a callback does, and before the slot is given
back. -/
namespace PromptDesk

/-- A call of the transport whose items are played before anything is read. -/
structure Errand where
  requestId : String
  draft : Draft
  attempt : Nat
  token : Nat
  limit : Option Limit
  /-- What is to be read once the stream is open; without it the response comes as a whole. -/
  stream? : Option (List Item)
  deriving Inhabited

/-- The execution that is left when an errand has to wait. -/
def Errand.waiting (c : Errand) (p : Playback) : Execution where
  requestId := c.requestId
  draft := c.draft
  stage := match c.stream? with
    | some items => .opening c.attempt c.token c.limit p items
    | none => .collecting c.attempt c.token c.limit p

/-- Where a worker stands. -/
inductive Stance where
  /-- The next thing is a turn, or what is left of a turn looks like a fresh one. -/
  | due (execution : Execution)
  /-- Items are played for their joined chunks. -/
  | playing (errand : Errand) (items : List Item) (text : String)
  /-- Items are read into an attempt. -/
  | reading (requestId : String) (draft : Draft) (attempt : Nat) (token : Option Nat)
      (items : List Item) (idle : Option Limit)
  /-- Reading is over, and the slot is to be given back. -/
  | finishing (requestId : String) (attempt : Nat) (outcome : ReadOutcome)
  /-- The request was completed, and the history writer is to be asked. -/
  | storing (requestId text : String) (attempt : Nat) (entry : HistoryEntry) (writer : Writer)
  /-- The history writer has answered. -/
  | stored (requestId text : String) (attempt : Nat) (entry : HistoryEntry)
      (result : Except Failure (Option String))
  /-- The history writer has panicked. -/
  | unwinding (requestId : String) (attempt : Nat) (message : String)
  | rests (progress : Progress)
  deriving Inhabited

/-- The calls that a worker is about to make for somebody else, and where it stands after them. -/
def Stance.callback? : Stance → Option (List Call × Stance)
  | playing c (.calls calls :: rest) text => some (calls, playing c rest text)
  | reading id draft attempt token (.calls calls :: rest) idle =>
    some (calls, reading id draft attempt token rest idle)
  | storing id text attempt entry (.mk calls result) =>
    some (calls, stored id text attempt entry result)
  | storing id _ attempt _ (.panic calls payload) =>
    some (calls, unwinding id attempt payload.message)
  | _ => none

namespace Desk

/-- The transport failed; a cancellation is no fault of the attempt. -/
def fault (d : Desk) (c : Errand) (f : Failure) : Desk × Stance :=
  if f.isCancellation then (d, .finishing c.requestId c.attempt (.cancelled ""))
  else (d.note c.attempt (.error f.message), .finishing c.requestId c.attempt (.failed f))

/-- Something has to be waited for, unless the limit is over. -/
def pause (d : Desk) (c : Errand) (p : Playback) : Desk × Stance :=
  match c.limit with
  | some l => if l.due ≤ d.clock then d.fault c l.failure else (d, .rests (.waiting (c.waiting p)))
  | none => (d, .rests (.waiting (c.waiting p)))

/-- A turn of an errand begins with a look at the token. -/
def resume (d : Desk) (c : Errand) (p : Playback) : Desk × Stance :=
  if d.slot.isTripped c.token then d.fault c .cancelled
  else if d.isOver p.pause then (d, .playing c p.rest p.text)
  else d.pause c p

/-- All items were played: the stream is open, or the response is there. -/
def arrive (d : Desk) (c : Errand) (text : String) : Desk × Stance :=
  match c.stream? with
  | some items =>
    match d.slot.beginStreamFor? c.requestId with
    | none => (d, .finishing c.requestId c.attempt (.cancelled ""))
    | some s =>
      let d := d.withSlot s
      let idle := Limit.start d.setup.settings.streamIdleTimeoutMs.toNat d.clock
      (d, .due ⟨c.requestId, c.draft, .reading ⟨c.attempt, some c.token, idle, { rest := items }⟩⟩)
  | none =>
    let d := (d.note c.attempt (.chunk text)).note c.attempt .complete
    (d, .finishing c.requestId c.attempt (.completed (d.board.attempt c.attempt).text))

/-- The first step of a claimed execution. A request that lost the slot is not sent. -/
def setOut (d : Desk) (id : String) (draft : Draft) : Desk × Stance :=
  match d.slot.tokenFor? id with
  | none =>
    if d.slot.state.isFor id then
      let (d, r) := d.cancelledBeforeStart id
      (d, .rests (.ended r))
    else (d, .rests (.ended (.empty id .cancelled d.now)))
  | some token =>
    let (d, attempt) := d.beginAttempt id draft.axes
    let (d, reply) := d.callTransport ⟨id, draft.messages⟩
    let limit := Limit.start d.setup.settings.requestTimeoutMs.toNat d.clock
    let stage : Stage :=
      if d.setup.settings.streaming then
        .opening attempt token limit { rest := reply.opening } reply.items
      else .collecting attempt token limit { rest := reply.opening ++ reply.items }
    (d, .due ⟨id, draft, stage⟩)

/-- The slot is given back. Only a completion leaves something to do. -/
def handIn (d : Desk) (id : String) (attempt : Nat) : ReadOutcome → Desk × Stance
  | .completed text =>
    match d.slot.completeFor? id with
    | none =>
      (d.note attempt (.cancelExecuted "pipeline" true),
        .rests (.ended (.empty id .cancelled d.now)))
    | some s =>
      let text := Text.trim text
      let d := d.withSlot s
      let d := { d with conversation := { d.conversation with lastResponse := text } }
      match d.setup.history with
      | some writer =>
        let (d, entry) := d.beginLogEntry attempt
        (d, .storing id text attempt entry writer)
      | none => (d, .rests (.ended ⟨id, .ofText .assistant text d.now, .completed⟩))
  | .cancelled text =>
    let (d, p) := d.finish id attempt (.cancelled text)
    (d, .rests p)
  | .failed f =>
    let (d, p) := d.finish id attempt (.failed f)
    (d, .rests p)

/-- The next item of a stream is read. -/
def readOne (d : Desk) (id : String) (draft : Draft) (attempt : Nat) (token : Option Nat)
    (idle : Option Limit) : List Item → Desk × Stance
  | [] =>
    let d := d.note attempt .complete
    (d, .finishing id attempt (.completed (d.board.attempt attempt).text))
  | .chunk s :: rest =>
    let idle := idle.map (·.restart d.clock)
    let d := d.note attempt (.chunk s)
    match d.halt? attempt token idle with
    | some (d, outcome) => (d, .finishing id attempt outcome)
    | none => (d, .reading id draft attempt token rest idle)
  | .fail f :: _ => (d.note attempt (.error f.message), .finishing id attempt (.failed f))
  | .panic payload :: _ => (d, .rests (.panicked payload.message))
  | item :: rest =>
    match d.pauseAt item with
    | some pause =>
      (d, .rests (.waiting
        ⟨id, draft, .reading ⟨attempt, token, idle, { pause := some pause, rest := rest }⟩⟩))
    | none => (d, .reading id draft attempt token rest idle)

/-- The next item of an errand is played. -/
def playOne (d : Desk) (c : Errand) (text : String) : List Item → Desk × Stance
  | [] => d.arrive c text
  | .chunk s :: rest => (d, .playing c rest (text ++ s))
  | .fail f :: _ => d.fault c f
  | .panic payload :: _ => (d, .rests (.panicked payload.message))
  | item :: rest =>
    match d.pauseAt item with
    | some pause => d.pause c ⟨some pause, rest, text⟩
    | none => (d, .playing c rest text)

/-- A step of a worker of its own. -/
def advance (d : Desk) : Stance → Desk × Stance
  | .due ⟨id, draft, .claimed⟩ => d.setOut id draft
  | .due ⟨id, draft, .opening attempt token limit p items⟩ =>
    d.resume ⟨id, draft, attempt, token, limit, some items⟩ p
  | .due ⟨id, draft, .collecting attempt token limit p⟩ =>
    d.resume ⟨id, draft, attempt, token, limit, none⟩ p
  | .due ⟨id, draft, .reading r⟩ =>
    match d.halt? r.attempt r.token r.idle with
    | some (d, outcome) => (d, .finishing id r.attempt outcome)
    | none =>
      if d.isOver r.playback.pause then
        (d, .reading id draft r.attempt r.token r.playback.rest r.idle)
      else (d, .rests (.waiting ⟨id, draft, .reading r⟩))
  | .playing c items text => d.playOne c text items
  | .reading id draft attempt token items idle => d.readOne id draft attempt token idle items
  | .finishing id attempt outcome => d.handIn id attempt outcome
  | .stored id text attempt entry result =>
    let d := (d.endLogEntry attempt entry result).1
    (d, .rests (.ended ⟨id, .ofText .assistant text d.now, .completed⟩))
  | .unwinding _ _ message => (d, .rests (.panicked message))
  | s => (d, s)

end Desk

/-- What a worker does next if it is left alone: a callback is carried out for it, or it makes a step
of its own. -/
def act (x : Desk × Stance) : Desk × Stance :=
  match x.2.callback? with
  | some (calls, s) => (performAll calls x.1, s)
  | none => x.1.advance x.2

theorem act_of_callback {d : Desk} {s s' : Stance} {calls : List Call}
    (h : s.callback? = some (calls, s')) : act (d, s) = (performAll calls d, s') := by
  simp only [act, h]

theorem act_of_free {d : Desk} {s : Stance} (h : s.callback? = none) :
    act (d, s) = d.advance s := by
  simp only [act, h]

end PromptDesk
