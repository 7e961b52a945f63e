import PromptDesk.Script.Basic
import PromptDesk.Request.Draft

/-! Work in progress on a desk. A task is everything that is left of some work: what it waits for,
the items still to be played, and what follows when they are over. -/
namespace PromptDesk

/-- What waiting work waits for. Each of these comes once and for all. -/
inductive Interest where
  /-- A cancel token is tripped. -/
  | token (index : Nat)
  /-- A name is released. -/
  | release (name : String)
  /-- The work behind a handle has ended. -/
  | handle (index : Nat)
  /-- The clock has reached a time. -/
  | clock (due : Nat)
  /-- Exports are to stop. -/
  | stop
  | never
  deriving DecidableEq, Inhabited, Repr

/-- A limit of some milliseconds and the time at which it is over. -/
structure Limit where
  ms : Nat
  due : Nat
  deriving DecidableEq, Inhabited, Repr

namespace Limit

/-- A limit that starts now; none if it is zero. -/
def start (ms now : Nat) : Option Limit := if ms = 0 then none else some ⟨ms, now + ms⟩

/-- The same limit, starting anew. -/
def restart (l : Limit) (now : Nat) : Limit := { l with due := now + l.ms }

def failure (l : Limit) : Failure := .timeout (UInt64.ofNat l.ms)

end Limit

/-- Items still to be played. -/
structure Playback where
  /-- What has to come first. -/
  pause : Option Interest := none
  rest : List Item
  /-- The chunks so far, joined, where they are collected. -/
  text : String := ""
  deriving Inhabited

/-- Reading of a stream into an attempt. -/
structure Reader where
  attempt : Nat
  /-- The token that cancels it; none if nothing can. -/
  token : Option Nat
  /-- How long the next chunk may take. -/
  idle : Option Limit
  playback : Playback
  deriving Inhabited

/-- How reading ends. -/
inductive ReadOutcome where
  | completed (text : String)
  /-- With what was recorded before. -/
  | cancelled (text : String)
  | failed (failure : Failure)
  deriving DecidableEq, Inhabited, Repr

def ReadOutcome.isCompleted : ReadOutcome → Bool
  | completed _ => true
  | _ => false

/-- How far an execution has come. -/
inductive Stage where
  /-- The slot was taken, and nothing else was done. -/
  | claimed
  /-- The stream is being opened; its items are still to be read. -/
  | opening (attempt token : Nat) (limit : Option Limit) (playback : Playback) (items : List Item)
  /-- The response is expected as a whole. -/
  | collecting (attempt token : Nat) (limit : Option Limit) (playback : Playback)
  | reading (reader : Reader)
  deriving Inhabited

/-- One execution of a request. -/
structure Execution where
  requestId : String
  draft : Draft
  stage : Stage := .claimed
  deriving Inhabited

/-- What follows an execution. -/
inductive Sequel where
  /-- Nothing: the response is what was asked for. -/
  | respond
  /-- The reply goes to the thread, and the result is handed back. -/
  | conclude
  /-- As before, but a directive in the response is followed. The next request takes the slot
  through the gate, or without asking. -/
  | delegate (request : Request) (gated : Bool)
  deriving Inhabited

inductive Task where
  /-- A request from its preparation on. -/
  | request (request : Request) (sequel : Sequel)
  | execution (execution : Execution) (sequel : Sequel)
  /-- The joined chunks, within a limit. -/
  | collect (limit : Option Limit) (playback : Playback)
  | read (reader : Reader)
  /-- Waits for the work behind a handle, within a limit. -/
  | await (handle : Nat) (limit : Option Nat)
  | sleep (due : Nat)
  /-- Presents what the work behind a handle has come to. -/
  | present (handle : Nat) (quiet : Bool)
  /-- Exports counts whenever an interval has passed, from the first turn on. -/
  | exports (interval : Nat) (due : Option Nat)
  deriving Inhabited

/-- What work comes to. -/
inductive Product where
  | nothing
  | text (text : String)
  | response (response : Response)
  | result (result : PromptResult)
  | reading (outcome : ReadOutcome)
  /-- Whether the work that was waited for has ended. -/
  | resolved (inTime : Bool)
  deriving DecidableEq, Inhabited

/-- How a task ends. -/
inductive Ending where
  | success (product : Product)
  | failure (failure : Failure)
  | panic (message : String)
  deriving DecidableEq, Inhabited

/-- How a task ends that somebody has no answer for. -/
def Mishap.ending : Mishap → Ending
  | failure f => .failure f
  | panic payload => .panic payload.message

/-- What a turn of a task comes to. -/
inductive Turn where
  | waiting (task : Task)
  | ended (ending : Ending)
  deriving Inhabited

/-- Why work in the background came to nothing. -/
inductive Defeat where
  | failed (message : String)
  | panicked (message : String)
  deriving DecidableEq, Inhabited, Repr

def Defeat.message : Defeat → String
  | failed message => "background work failed: " ++ message
  | panicked message => "background work panicked: " ++ message

/-- What a handle reports of an ending. -/
def Ending.report : Ending → Except Defeat Product
  | success product => .ok product
  | failure f => .error (.failed f.message)
  | panic message => .error (.panicked message)

/-- A handle to work in the background. -/
structure Handle where
  requestId : Option String
  /-- Whether there is work that it can cancel. -/
  cancels : Bool
  /-- What the work came to, once it has ended. -/
  report : Option (Except Defeat Product) := none

instance : Inhabited Handle := ⟨⟨none, false, none⟩⟩

/-- Work in the background. -/
structure Job where
  /-- What is left to do. -/
  task : Option Task
  /-- Where its ending is reported. -/
  handle : Option Nat := none
  /-- The request whose slot is given back when the work fails. -/
  owner : Option String := none
  deriving Inhabited

/-- A job waits for something. -/
structure Wait where
  job : Nat
  interest : Interest
  deriving DecidableEq, Inhabited, Repr

namespace Playback

def interests (p : Playback) : List Interest := p.pause.toList

end Playback

/-- The interest in the end of a limit. -/
def Limit.interests (l : Option Limit) : List Interest := l.toList.map fun l => .clock l.due

namespace Reader

def interests (r : Reader) : List Interest :=
  (r.token.map .token).toList ++ Limit.interests r.idle ++ r.playback.interests

end Reader

namespace Stage

def interests : Stage → List Interest
  | claimed => []
  | opening _ token limit playback _ =>
    .token token :: (playback.interests ++ Limit.interests limit)
  | collecting _ token limit playback =>
    .token token :: (playback.interests ++ Limit.interests limit)
  | reading r => r.interests

end Stage

namespace Task

/-- What a waiting task waits for. -/
def interests : Task → List Interest
  | request _ _ => []
  | execution e _ => e.stage.interests
  | collect limit playback => playback.interests ++ Limit.interests limit
  | read r => r.interests
  | await handle limit => .handle handle :: (limit.map .clock).toList
  | sleep due => [.clock due]
  | present handle _ => [.handle handle]
  | exports _ due => .stop :: (due.map .clock).toList

end Task

end PromptDesk
