import PromptDesk.Desk.Answer
import PromptDesk.Settings.Basic

/-! A desk takes prompts and sends them to a model, one at a time. It holds the slot and its gate,
the board, the conversation and the work in the background; everything that its surroundings see
is written into a journal. Work that waits is roused as soon as what it waits for has come. -/
namespace PromptDesk

/-- What does not change while a desk is in use. -/
structure Setup where
  settings : Settings := {}
  /-- The lines of the system's message. -/
  system : List String := []
  catalog : Option Catalog := none
  history : Option Writer := none
  /-- Whether submissions follow directives. -/
  delegates : Bool := false
  deriving Inhabited

/-- What steps kept under names. -/
structure Names where
  tokens : Keyed Nat := ∅
  handles : Keyed Nat := ∅
  attempts : Keyed Nat := ∅
  drafts : Keyed Draft := ∅
  /-- How many states had been published at the last look. -/
  watches : Keyed Nat := ∅
  /-- How many snapshots had been published at the last look. -/
  displayWatches : Keyed Nat := ∅
  /-- The same for those who follow the board's display; none before their first look. -/
  followers : Keyed (Option Nat) := ∅
  deriving Inhabited

structure Desk where
  setup : Setup := {}
  slot : Slot := {}
  gate : Gate := {}
  /-- Refusals are told to the board. -/
  observed : Bool := true
  board : Board := {}
  conversation : Conversation := {}
  /-- What the transport will answer, call by call. -/
  replies : List Reply := []
  /-- Milliseconds since the start. -/
  clock : Nat := 0
  /-- Names that were released. -/
  released : List String := []
  /-- Exports are to stop. -/
  stopped : Bool := false
  handles : List Handle := []
  jobs : List Job := []
  /-- What jobs wait for, in the order in which they began to. -/
  waits : List Wait := []
  /-- The jobs whose turn it is, the first one first. -/
  queue : List Nat := []
  names : Names := {}
  /-- Everything seen from outside, the latest first. -/
  journal : List Effect := []
  deriving Inhabited

namespace Desk

/-- The instant that the clock shows. -/
def now (d : Desk) : Timestamp := .ofMillis d.clock

def handle (d : Desk) (i : Nat) : Handle := d.handles.getD i default

def job (d : Desk) (i : Nat) : Job := d.jobs.getD i default

/-- Writes into the journal. -/
def write (d : Desk) (e : Effect) : Desk := { d with journal := e :: d.journal }

/-- What something waits for has come. -/
def isMet (d : Desk) : Interest → Bool
  | .token t => d.slot.isTripped t
  | .release name => d.released.contains name
  | .handle h => (d.handle h).report.isSome
  | .clock due => due ≤ d.clock
  | .stop => d.stopped
  | .never => false

/-- A queue with a job at its end, unless the job is in it or is having its turn. -/
def lineUp (d : Desk) (queue : List Nat) (i : Nat) : List Nat :=
  if queue.contains i || (d.job i).task.isNone then queue else queue ++ [i]

/-- A job gets a turn. -/
def enqueue (d : Desk) (i : Nat) : Desk := { d with queue := d.lineUp d.queue i }

/-- The jobs for which something has come that they wait for. -/
def roused (d : Desk) : List Nat := (d.waits.filter fun w => d.isMet w.interest).map Wait.job

/-- Every job gets a turn for which something has come that it waits for. -/
def rouse (d : Desk) : Desk := { d with queue := d.roused.foldl d.lineUp d.queue }

def withSlot (d : Desk) (s : Slot) : Desk := rouse { d with slot := s }

/-- Takes over a board and what it reports. -/
def withBoard (d : Desk) (b : Board) : Desk :=
  { d with
    board := { b with outbox := [] }
    journal := (b.outbox.map .event).reverse ++ d.journal }

/-- Logs a note on an attempt. -/
def note (d : Desk) (attempt : Nat) (n : Note) : Desk :=
  d.withBoard (d.board.note attempt n d.now)

/-- Takes over a gate, and tells the board if an attempt was refused. -/
def withGate (d : Desk) (g : Gate) (state : PhaseState) (source : String) : Admission → Desk
  | .allowed _ => { d with gate := g }
  | .rejected reason message =>
    let d := { d with gate := g }
    if d.observed then
      d.withBoard (d.board.gatingDrop state reason (Gate.sourceName source) message d.now)
    else d

def tryBegin (d : Desk) (state : PhaseState) (source : String) : Desk × Admission :=
  let (g, a) := d.gate.tryBegin state source
  (d.withGate g state source a, a)

/-- An attempt in the current state; a caller may be cut off from it. -/
def tryBeginCurrent (d : Desk) (source : String) (reading : Except Failure PhaseState) :
    Desk × Admission :=
  let (g, a) := d.gate.tryBeginCurrent reading source
  (d.withGate g d.slot.state source a, a)

/-- Takes the slot through the gate. -/
def claim (d : Desk) (source : String) : Desk × Admission :=
  let (g, s, a) := d.gate.tryClaim d.slot source
  let state := d.slot.state
  ((d.withSlot s).withGate g state source a, a)

/-- Cancels the request in flight, and notes it on the current attempt if that is its own. -/
def cancelCurrent (d : Desk) (source : String) : Desk × Bool :=
  if !d.slot.state.isInFlight then (d, false)
  else
    let cancelled := match d.slot.state.requestId with
      | some id => d.slot.cancelFor? id
      | none => some d.slot.cancel
    match cancelled with
    | none => (d, false)
    | some s =>
      let d := d.withSlot s
      match d.board.current with
      | some i =>
        if s.state.isFor (d.board.attempt i).requestId then
          (d.withBoard (d.board.cancelRequested i s.state source d.now).1, true)
        else (d, true)
      | none => (d, true)

/-- Gives the slot of a request back with a failure; a newer request is left alone. -/
def failOwned (d : Desk) (id : String) (f : Failure) : Desk :=
  match d.slot.failFor? id f.message with
  | some s => d.withSlot s
  | none => d

/-- Gives the slot that was claimed under an id back with a failure; without an id, whatever
request there is fails. -/
def giveBack (d : Desk) (id : Option String) (f : Failure) : Desk :=
  match id with
  | some id => d.failOwned id f
  | none => d.withSlot (d.slot.fail f.message)

/-- Opens a name for good. -/
def release (d : Desk) (name : String) : Desk :=
  rouse { d with released := name :: d.released }

/-- A handle reports an ending, the first one only. -/
def resolve (d : Desk) (i : Nat) (report : Except Defeat Product) : Desk :=
  let h := d.handle i
  if h.report.isSome then d
  else rouse { d with handles := d.handles.set i { h with report := some report } }

/-- Puts work into the background. -/
def spawn (d : Desk) (j : Job) : Desk :=
  { d with jobs := d.jobs ++ [j], queue := d.queue ++ [d.jobs.length] }

/-- Puts work into the background that a new handle reports on. -/
def dispatch (d : Desk) (id : Option String) (task : Task) (owner : Option String) : Desk × Nat :=
  let i := d.handles.length
  (spawn { d with handles := d.handles ++ [⟨id, true, none⟩] } ⟨some task, some i, owner⟩, i)

/-- A handle to something that is there already. -/
def settled (d : Desk) (p : Product) : Desk × Nat :=
  ({ d with handles := d.handles ++ [⟨none, false, some (.ok p)⟩] }, d.handles.length)

/-- Cancels the work behind a handle. A request that is not its own is left alone. -/
def cancelHandle (d : Desk) (i : Nat) : Desk × Bool :=
  let h := d.handle i
  if !h.cancels then (d, false)
  else match h.requestId with
    | none => (d.withSlot d.slot.cancel, true)
    | some id =>
      match d.slot.cancelFor? id with
      | some s => (d.withSlot s, true)
      | none => (d, false)

/-- Hands the counts over to whoever exports them; nothing is seen of it when there are none. -/
def exportCounts (d : Desk) : Desk × Option Telemetry :=
  let (g, counts) := d.gate.takeCounts
  let d := { d with gate := g }
  match Telemetry.of? counts d.now with
  | some t => (d.write (.telemetry t), some t)
  | none => (d, none)

/-- Puts the reply of a finished request on the thread, if there is one. -/
def conclude (d : Desk) (destination : Destination) (r : Response) : Desk × PromptResult :=
  let d := if r.isCompleted && d.setup.settings.threadEnabled then
      { d with conversation := d.conversation.pushReply r.message }
    else d
  (d, .ofResponse r destination)

/-- Fills a draft with a prompt and what its sources gave; the user's message also goes to the
thread if it is in use. -/
def prepare (d : Desk) (draft : Draft) (prompt : String) (parts : List Part) : Desk × Draft :=
  let settings := d.setup.settings
  let user := Message.user prompt parts d.now
  let draft := draft.fill d.setup.system settings.threadEnabled d.conversation user d.now
  let d := if settings.threadEnabled then { d with conversation := d.conversation.push user } else d
  (d, draft)

/-- Takes the slot for a draft, which keeps the id. -/
def enter (d : Desk) (draft : Draft) : Desk × Draft × Except String String :=
  let draft := draft.begin false
  let (s, entry) := d.slot.enter draft.requestId
  let d := d.withSlot s
  match entry with
  | .ok id => (d, { draft with requestId := some id }, .ok id)
  | .error id => (d, draft, .error id)

/-- A request that was cancelled before it was sent. -/
def cancelledBeforeStart (d : Desk) (id : String) : Desk × Response :=
  let (b, i) := d.board.begin id
  ((d.withBoard b).note i (.cancelExecuted "pipeline" false), .empty id .cancelled d.now)

/-- The draft of a request before it is filled. -/
def draftFor (d : Desk) (r : Request) : Draft :=
  { destination := r.destination.getD d.setup.settings.defaultDestination
    requestId := r.id
    axes := r.axes }

end Desk

end PromptDesk
