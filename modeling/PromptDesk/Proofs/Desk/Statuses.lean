import PromptDesk.Proofs.Board.Status
import PromptDesk.Proofs.Script.Throughout
import PromptDesk.Proofs.Desk.Changes
import PromptDesk.Proofs.Desk.WorkerRuns

/-! The statuses of attempts at a desk. Apart from commands that say of an attempt that it is over,
only the worker that reads into an attempt changes its status: submissions, cancellations and all
other workers leave it alone. -/
namespace PromptDesk

/-- A command that says of no attempt that it is over. -/
def Command.isOpenEnded : Command → Bool
  | .attempt _ (.note n) => !n.isEnding
  | _ => true

/-- A step that says of no attempt that it is over, callbacks aside. -/
def Step.isOpenEnded : Step → Bool
  | .command c => c.isOpenEnded
  | .submit _ _ _ | .run _ _ | .dispatch _ _ _ | .prepare _ _ _ | .logEntry _ _ => true

namespace Desk

/-- An attempt stays, and so does its status. -/
def KeepsStatus (i : Nat) (d d' : Desk) : Prop := d.board.KeepsStatus i d'.board

variable {i : Nat} {d d' : Desk}

theorem KeepsStatus.of_changes (h : Changes (Board.Use.Spares i) i d d') : KeepsStatus i d d' :=
  Board.KeepsStatus.of_changes h.board

theorem KeepsStatus.of_dealings (h : Dealings (Board.Use.Spares i) d d') : KeepsStatus i d d' :=
  .of_changes (.of_dealings h)

/-- Who says of no attempt that it is over leaves all statuses alone. -/
theorem admits_isOpenEnded (i : Nat) : Admits Step.isOpenEnded (Board.Use.Spares i) where
  opens u hu := by
    cases u with
    | note | setAxes => cases hu
    | _ => trivial
  note h _ _ _ := by simpa [Step.isOpenEnded, Command.isOpenEnded] using h
  axes _ _ := trivial
  asks _ _ _ _ _ := rfl
  logs _ _ _ _ _ _ := rfl

end Desk

open Desk (KeepsStatus)

/-- A step leaves the statuses of all attempts alone, with all that callbacks do in it. -/
theorem Step.keepsStatus_perform (i : Nat) (s : Step) (d : Desk) (h : s.all Step.isOpenEnded = true) :
    KeepsStatus i d (s.perform d).1 :=
  .of_dealings (s.dealings_perform (Desk.admits_isOpenEnded i) d h)

theorem keepsStatus_performAll (i : Nat) (cs : List Call) (d : Desk)
    (h : Call.allIn Step.isOpenEnded cs = true) : KeepsStatus i d (performAll cs d) :=
  .of_dealings (dealings_performAll (Desk.admits_isOpenEnded i) cs d h)

namespace Desk

variable {i : Nat} {s : Stance}

/-- The attempt of an execution is in flight when it is begun. -/
theorem fresh_beginAttempt (d : Desk) (id : String) (axes : Axes) :
    d.board.Fresh ((d.beginAttempt id axes).1.board, (d.beginAttempt id axes).2) := by
  have h : d.board.Fresh ((d.withBoard (d.board.beginOwned id d.slot.state).1).board,
      (d.board.beginOwned id d.slot.state).2) :=
    (Board.blank_beginOwned d.board id d.slot.state).fresh.of_keeps (.of_eq rfl)
  simp only [beginAttempt]
  split
  · split
    · exact h
    · refine h.of_keeps (.of_changes ?_)
      exact (Board.Changes.setAxes fun _ => trivial).trans (.of_eq rfl)
  · exact h

theorem keepsStatus_handIn (i : Nat) (d : Desk) (id : String) (attempt : Nat) (outcome : ReadOutcome) :
    KeepsStatus i d (d.handIn id attempt outcome).1 :=
  .of_dealings (dealings_handIn (fun _ _ => rfl) (fun _ _ _ => rfl) d id outcome)

theorem keepsStatus_endLogEntry (i : Nat) (d : Desk) (j : Nat) (entry : HistoryEntry)
    (result : Except Failure (Option String)) : KeepsStatus i d (d.endLogEntry j entry result).1 :=
  .of_dealings (dealings_endLogEntry d entry result fun _ _ _ => rfl)

/-- A worker leaves the statuses of all attempts alone but that of its own. -/
theorem keepsStatus_advance (d : Desk) (free : s.callback? = none) (h : s.attempt? ≠ some i) :
    KeepsStatus i d (d.advance s).1 :=
  .of_dealings (dealings_advance d free fun _ hj _ _ he => absurd (he ▸ hj) h)

end Desk

end PromptDesk
