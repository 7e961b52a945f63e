import PromptDesk.Slot.Phase
import PromptDesk.Failure

/-! The slot of the request in flight. It publishes phase states, issues request ids and keeps a
cancel token for each request that was sent. An owned event takes effect only while the slot still
names the request that it is meant for. -/
namespace PromptDesk

structure Slot where
  /-- The state published last. -/
  state : PhaseState := {}
  /-- The states published before it, the latest first. -/
  earlier : List PhaseState := []
  /-- How many ids were issued. -/
  issued : UInt64 := 0
  /-- Whether each cancel token was tripped, in the order in which tokens were made. -/
  tokens : List Bool := [false]
  /-- The token of the current request. -/
  armed : Nat := 0
  closed : Bool := false
  deriving Inhabited, Repr

namespace Slot

/-- The text of the n-th request id. -/
def idText (n : UInt64) : String := "req-" ++ Text.decimalText n.toNat

/-- How often a state was published. -/
def version (s : Slot) : Nat := s.earlier.length

def publish (s : Slot) (state : PhaseState) : Slot :=
  { s with state := state, earlier := s.state :: s.earlier }

/-- An event for whatever request the slot names. -/
def apply (s : Slot) (e : PhaseEvent) : Slot := s.publish (s.state.next e)

/-- An event for one request. -/
def applyFor? (s : Slot) (id : String) (allowed : PhaseState → Bool) (e : PhaseEvent) :
    Option Slot :=
  if s.state.isFor id && allowed s.state then some (s.apply e) else none

/-- A fresh request id. -/
def issue (s : Slot) : Slot × String :=
  ({ s with issued := s.issued + 1 }, idText (s.issued + 1))

/-- The given id or a fresh one. -/
def issueUnless (s : Slot) : Option String → Slot × String
  | some id => (s, id)
  | none => s.issue

/-- Makes a fresh token the current one. -/
def arm (s : Slot) : Slot :=
  { s with tokens := s.tokens ++ [false], armed := s.tokens.length }

def isTripped (s : Slot) (token : Nat) : Bool := s.tokens.getD token false

def trip (s : Slot) (token : Nat) : Slot := { s with tokens := s.tokens.set token true }

/-- The token of a request that holds the slot and was not cancelled. -/
def tokenFor? (s : Slot) (id : String) : Option Nat :=
  if s.state.isFor id && s.state.isInFlight && !s.state.cancelRequested && !s.isTripped s.armed then
    some s.armed
  else none

/-- Cancellation was asked for, by the state or by the token. -/
def isCancelRequested (s : Slot) : Bool := s.state.cancelRequested || s.isTripped s.armed

def reset (s : Slot) : Slot := s.apply .reset

/-- Sends a request under the given id or a fresh one, with a fresh token. -/
def beginSend (s : Slot) (id : Option String) : Slot × String :=
  let (s, id) := s.issueUnless id
  (s.arm.apply (.beginSend (some id)), id)

/-- Streams under the given id, the current one or a fresh one. -/
def beginStream (s : Slot) (id : Option String) : Slot × String :=
  let (s, id) := s.issueUnless (id <|> s.state.requestId)
  (s.apply (.beginStream (some id)), id)

/-- Streams while the request is still being sent and was not cancelled. -/
def beginStreamFor? (s : Slot) (id : String) : Option Slot :=
  s.applyFor? id (fun st => st.phase = .sending && !st.cancelRequested) (.beginStream (some id))

def complete (s : Slot) : Slot := s.apply .complete

def completeFor? (s : Slot) (id : String) : Option Slot :=
  s.applyFor? id PhaseState.isInFlight .complete

def fail (s : Slot) (error : String) : Slot := s.apply (.fail error)

def failFor? (s : Slot) (id error : String) : Option Slot :=
  s.applyFor? id PhaseState.isInFlight (.fail error)

/-- Cancels whatever request there is, and trips the current token. -/
def cancel (s : Slot) : Slot := (s.apply .cancel).trip s.armed

def cancelFor? (s : Slot) (id : String) : Option Slot :=
  (s.applyFor? id PhaseState.isInFlight .cancel).map fun t => t.trip t.armed

/-- Sends again, under the given id or the current one, with a fresh token. -/
def retry (s : Slot) (id : Option String) : Slot := s.arm.apply (.retry id)

def close (s : Slot) : Slot := { s with closed := true }

/-- Reading the state fails once the slot was closed. -/
def read (s : Slot) : Except Failure PhaseState :=
  if s.closed then .error (.unavailable "phase store is closed") else .ok s.state

end Slot

end PromptDesk
