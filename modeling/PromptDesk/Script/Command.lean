import PromptDesk.Board.Basic
import PromptDesk.Request.Outcome

/-! Commands for a desk that are carried out at once and call nobody back. What a command keeps for
later commands, it keeps under a name. -/
namespace PromptDesk

/-- Commands for the slot and its cancel tokens. -/
inductive SlotCommand where
  | issue
  | beginSend (id : Option String)
  | beginStream (id : Option String)
  | beginStreamFor (id : String)
  /-- An event for whatever request the slot names. -/
  | apply (event : PhaseEvent)
  | cancel
  | retry (id : Option String)
  | completeFor (id : String)
  | failFor (id error : String)
  | cancelFor (id : String)
  | close
  | read
  | view
  /-- Whether a request is in flight, to a reader that may be cut off. -/
  | inFlight (cutOff : Bool)
  | keepToken (under : String)
  | keepTokenFor (id : String) (under : Option String)
  | tokenState (name : String)
  | trip (name : String)
  | watch (under : String)
  | checkWatch (name : String)
  deriving DecidableEq, Inhabited, Repr

/-- Commands for the gate and the export of its counts. -/
inductive GateCommand where
  | tryBegin (state : PhaseState) (source : String)
  | tryBeginCurrent (source : String) (cutOff : Bool)
  | claim (source : String)
  | statistics
  | takeCounts
  | lastDrop
  | takeLastDrop
  /-- Whether refusals are told to the board. -/
  | observe (on : Bool)
  | exportCounts
  /-- Exports from now on, each time some milliseconds have passed. -/
  | startExports (interval : Option Nat)
  | stopExports
  deriving DecidableEq, Inhabited, Repr

/-- Commands for the board and its displays. -/
inductive BoardCommand where
  | begin (id under : String)
  | beginOwned (id under : String)
  /-- An attempt beside the current one, retired from the start or not. -/
  | add (id under : String) (reports ownDisplay retired : Bool)
  | view
  | publish (snapshot : Snapshot)
  | current
  | report (on : Bool)
  | drop (state : PhaseState) (reason : DropReason) (source message : String)
  | watch (under : String)
  | checkWatch (name : String)
  | follow (under : String)
  | nextText (name : String)
  deriving Inhabited

/-- Commands for an attempt. -/
inductive AttemptCommand where
  | note (note : Note)
  | cancelRequested (state : PhaseState) (source : String)
  | setAxes (requested : Axes) (catalog : Catalog)
  | snapshot
  | transcript
  | events
  | kinds
  | text
  deriving Inhabited

/-- Commands for the conversation. -/
inductive ConversationCommand where
  | queue (message : Message)
  | push (message : Message)
  | clear
  | view
  deriving DecidableEq, Inhabited

/-- Commands for work in the background. -/
inductive WorkCommand where
  /-- Cancels the request in flight, whichever it is. -/
  | cancelCurrent (source : String)
  /-- A handle that is resolved from the start. -/
  | ready (value under : String)
  | view (name : String)
  | cancel (name : String)
  | present (name : String) (quiet : Bool)
  | release (name : String)
  deriving DecidableEq, Inhabited, Repr

/-- Commands for requests that are being prepared. -/
inductive DraftCommand where
  | new (under : String) (id : Option String) (destination : Destination) (axes : Axes)
  | begin (name : String) (reuse : Bool)
  | add (name : String) (messages : List Message)
  /-- Puts a message on the thread as a reply. -/
  | reply (name : String) (message : Message)
  | messages (name : String)
  /-- Sends the request in the background. -/
  | send (name under : String)
  deriving Inhabited

inductive Command where
  | slot (command : SlotCommand)
  | gate (command : GateCommand)
  | board (command : BoardCommand)
  /-- For the attempt of a name, or for the current one. -/
  | attempt (name : Option String) (command : AttemptCommand)
  | conversation (command : ConversationCommand)
  | work (command : WorkCommand)
  | draft (command : DraftCommand)
  deriving Inhabited

end PromptDesk
