import PromptDesk.Board.Attempt
import PromptDesk.Gate.Basic

/-! The board holds all attempts, the one that is current, and the displays that snapshots are
published to. A new attempt retires the one before it, and only attempts that are not retired
publish. Entries to be reported leave through the outbox. -/
namespace PromptDesk

/-- A display shows the snapshot published last. -/
structure Display where
  latest : Snapshot := {}
  /-- What it showed before, the latest first. -/
  earlier : List Snapshot := []
  deriving DecidableEq, Inhabited

namespace Display

def version (d : Display) : Nat := d.earlier.length

def publish (d : Display) (s : Snapshot) : Display := ⟨s, d.latest :: d.earlier⟩

end Display

structure Board where
  attempts : List Attempt := []
  current : Option Nat := none
  /-- The first display is the board's own. -/
  displays : List Display := [{}]
  /-- New attempts report their entries. -/
  reporting : Bool := false
  /-- Entries reported and not yet taken, the first one first. -/
  outbox : List StreamEvent := []
  deriving Inhabited

namespace Board

def attempt (b : Board) (i : Nat) : Attempt := b.attempts.getD i default

def setAttempt (b : Board) (i : Nat) (a : Attempt) : Board :=
  { b with attempts := b.attempts.set i a }

def displayAt (b : Board) (i : Nat) : Display := b.displays.getD i {}

/-- What the board itself shows. -/
def display (b : Board) : Display := b.displayAt 0

def publishTo (b : Board) (i : Nat) (s : Snapshot) : Board :=
  { b with displays := b.displays.set i ((b.displayAt i).publish s) }

/-- Publishes an attempt's snapshot, unless it was retired. -/
def publish (b : Board) (i : Nat) : Board :=
  let a := b.attempt i
  if a.retired then b else b.publishTo a.display a.snapshot

/-- Logs a note on an attempt and publishes. The answer says whether it changed anything. -/
def record (b : Board) (i : Nat) (n : Note) (now : Timestamp) : Board × Bool :=
  let a := b.attempt i
  match a.record? n now with
  | none => (b, false)
  | some (a', e) =>
    let b := (b.setAttempt i a').publish i
    (if a.reports then { b with outbox := b.outbox ++ [e] } else b, true)

/-- A note whose effect is not asked for. -/
def note (b : Board) (i : Nat) (n : Note) (now : Timestamp) : Board := (b.record i n now).1

/-- Adds an attempt, which inherits from what its display shows. -/
def add (b : Board) (requestId : String) (display : Nat) (reports retired : Bool) : Board × Nat :=
  let a : Attempt :=
    { requestId := requestId
      transcript := { requestId := requestId }
      baseline := .inherit (b.displayAt display).latest requestId
      display := display
      reports := reports
      retired := retired }
  let i := b.attempts.length
  (({ b with attempts := b.attempts ++ [a] }).publish i, i)

def retire (b : Board) (i : Nat) : Board := b.setAttempt i { b.attempt i with retired := true }

/-- Retires the current attempt, if there is one. -/
def retireCurrent (b : Board) : Board :=
  match b.current with
  | some i => { b.retire i with current := none }
  | none => b

/-- Starts an attempt and makes it the current one. -/
def begin (b : Board) (requestId : String) : Board × Nat :=
  let (b, i) := b.retireCurrent.add requestId 0 b.reporting false
  ({ b with current := some i }, i)

/-- An attempt that never publishes. -/
def detached (b : Board) (requestId : String) : Board × Nat := b.add requestId 0 b.reporting true

/-- Starts an attempt for a request that the state still names; another one gets a detached
attempt, and the current one is left alone. -/
def beginOwned (b : Board) (requestId : String) (state : PhaseState) : Board × Nat :=
  if state.isFor requestId then b.begin requestId else b.detached requestId

/-- A refusal concerns the current attempt, unless state and attempt name different requests. -/
def concerns (state : PhaseState) (a : Attempt) : Bool :=
  match state.requestId with
  | some id => a.requestId.isEmpty || id == a.requestId
  | none => true

/-- Logs a refusal on the current attempt. -/
def gatingDrop (b : Board) (state : PhaseState) (reason : DropReason) (source message : String)
    (now : Timestamp) : Board :=
  match b.current with
  | none => b
  | some i =>
    if concerns state (b.attempt i) then
      b.note i (.gatingDrop reason.code (name state.phase) source message) now
    else b

/-- Gives an attempt the axes that a catalog knows, and publishes. -/
def setAxes (b : Board) (i : Nat) (requested : Axes) (catalog : Catalog) : Board × Axes :=
  let axes := requested.filter catalog
  let a := b.attempt i
  ((b.setAttempt i { a with transcript := { a.transcript with axes := axes } }).publish i, axes)

/-- Logs a cancellation that the state asks for. -/
def cancelRequested (b : Board) (i : Nat) (state : PhaseState) (source : String)
    (now : Timestamp) : Board × Bool :=
  if state.cancelRequested then
    (b.note i (.cancelRequested source (name state.phase) "") now, true)
  else (b, false)

end Board

end PromptDesk
