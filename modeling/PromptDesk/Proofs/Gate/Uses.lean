import Mathlib
import PromptDesk.Gate.Basic

/-! What is done with a gate, one use after another. An attempt is refused, let through, or let through
although nobody could read the phase; counts and the last refusal are taken away. Slots and phases are
those of the moment, so nothing is assumed of how one use leads to the next. -/
namespace PromptDesk

/-- There is always something to read. -/
theorem DropReason.message_ne_empty (reason : DropReason) : reason.message ≠ "" := by
  cases reason with
  | inFlight => decide +kernel
  | other code =>
    have h : ∀ s t : String, "Request blocked; reason=" ++ s ++ t ≠ "" := by simp
    exact h _ _

namespace Gate

/-- What users do with a gate. -/
inductive Use where
  /-- An attempt is refused for whatever reason. -/
  | refuse (reason : DropReason) (source : String)
  | tryBegin (state : PhaseState) (source : String)
  | tryBeginCurrent (reading : Except Failure PhaseState) (source : String)
  /-- The slot is the one that there is at that moment. -/
  | tryClaim (slot : Slot) (source : String)
  /-- An export takes the counts, too. -/
  | takeCounts
  | takeLastDrop

def use (g : Gate) : Use → Gate
  | .refuse reason source => (g.reject reason source).1
  | .tryBegin state source => (g.tryBegin state source).1
  | .tryBeginCurrent reading source => (g.tryBeginCurrent reading source).1
  | .tryClaim slot source => (g.tryClaim slot source).1
  | .takeCounts => g.takeCounts.1
  | .takeLastDrop => g.takeLastDrop.1

/-- A fresh gate after some uses, the latest first. -/
def after : List Use → Gate
  | [] => {}
  | u :: us => (after us).use u

namespace Use

/-- Where an attempt comes from. -/
def source : Use → String
  | refuse _ source | tryBegin _ source | tryBeginCurrent _ source | tryClaim _ source => source
  | takeCounts | takeLastDrop => ""

def isAttempt : Use → Bool
  | refuse _ _ | tryBegin _ _ | tryBeginCurrent _ _ | tryClaim _ _ => true
  | takeCounts | takeLastDrop => false

/-- An attempt that finds no phase to read. -/
def isBlind : Use → Bool
  | tryBeginCurrent (.error _) _ => true
  | tryClaim slot _ => slot.closed
  | _ => false

/-- What an attempt is told. -/
def answer? (g : Gate) : Use → Option Admission
  | refuse reason source => some (g.reject reason source).2
  | tryBegin state source => some (g.tryBegin state source).2
  | tryBeginCurrent reading source => some (g.tryBeginCurrent reading source).2
  | tryClaim slot source => some (g.tryClaim slot source).2.2
  | takeCounts | takeLastDrop => none

/-- The refusal that an attempt comes to. -/
def refusal? (g : Gate) (u : Use) : Option DropRecord :=
  match u.answer? g with
  | some (.rejected reason message) => some ⟨reason, message, sourceName u.source⟩
  | _ => none

theorem isAttempt_of_isBlind {u : Use} (h : u.isBlind = true) : u.isAttempt = true := by
  cases u <;> first | rfl | cases h

theorem isAttempt_of_answer {u : Use} {g : Gate} {a : Admission} (h : u.answer? g = some a) :
    u.isAttempt = true := by
  cases u <;> first | rfl | cases h

end Use

/-- What one use comes to: the answer, and the gate afterwards. -/
inductive Outcome (g : Gate) : Use → Option Admission → Gate → Prop
  | refuses {u : Use} (attempt : u.isAttempt = true) (reads : u.isBlind = false)
      (reason : DropReason) :
      Outcome g u (some (.rejected reason reason.message)) (g.reject reason u.source).1
  | admits {u : Use} (attempt : u.isAttempt = true) (reads : u.isBlind = false)
      (id : Option String) : Outcome g u (some (.allowed id)) { g with lastDrop := none }
  /-- Whoever is let through blindly leaves the last refusal where it is. -/
  | admitsBlindly {u : Use} (attempt : u.isAttempt = true) (blind : u.isBlind = true)
      (id : Option String) : Outcome g u (some (.allowed id)) g
  | takesCounts : Outcome g .takeCounts none { g with tally := {} }
  | takesLastDrop : Outcome g .takeLastDrop none { g with lastDrop := none }

variable (g : Gate)

theorem outcome_tryBegin {u : Use} (attempt : u.isAttempt = true) (reads : u.isBlind = false)
    (state : PhaseState) :
    g.Outcome u (some (g.tryBegin state u.source).2) (g.tryBegin state u.source).1 := by
  rw [tryBegin]
  split
  · exact .refuses attempt reads .inFlight
  · exact .admits attempt reads none

/-- A claim is an attempt in the phase of the slot, and takes the slot on top of it. -/
theorem outcome_tryClaim (slot : Slot) (source : String) :
    g.Outcome (.tryClaim slot source) (some (g.tryClaim slot source).2.2)
      (g.tryClaim slot source).1 := by
  have hblind : (Use.tryClaim slot source).isBlind = slot.closed := rfl
  cases hc : slot.closed with
  | true =>
    have ht : g.tryClaim slot source = (g, (slot.beginSend none).1, .allowed slot.issue.2) := by
      simp [tryClaim, tryBeginCurrent, Slot.read, hc, Slot.beginSend, Slot.issueUnless]
    rw [ht]
    exact .admitsBlindly rfl (hblind.trans hc) _
  | false =>
    cases hf : slot.state.isInFlight with
    | true =>
      have ht : g.tryClaim slot source =
          ((g.reject .inFlight source).1, slot, .rejected .inFlight DropReason.inFlight.message) := by
        simp [tryClaim, tryBeginCurrent, Slot.read, hc, tryBegin, hf, reject]
      rw [ht]
      exact .refuses rfl (hblind.trans hc) .inFlight
    | false =>
      have ht : g.tryClaim slot source =
          ({ g with lastDrop := none }, (slot.beginSend none).1, .allowed slot.issue.2) := by
        simp [tryClaim, tryBeginCurrent, Slot.read, hc, tryBegin, hf, Slot.beginSend,
          Slot.issueUnless]
      rw [ht]
      exact .admits rfl (hblind.trans hc) _

/-- There is nothing else that a use comes to. -/
theorem outcome (u : Use) : g.Outcome u (u.answer? g) (g.use u) := by
  cases u with
  | refuse reason source => exact .refuses rfl rfl reason
  | tryBegin state source => exact outcome_tryBegin g (u := .tryBegin state source) rfl rfl state
  | tryBeginCurrent reading source =>
    cases reading with
    | ok state =>
      exact outcome_tryBegin g (u := .tryBeginCurrent (.ok state) source) rfl rfl state
    | error f => exact .admitsBlindly rfl rfl none
  | tryClaim slot source => exact g.outcome_tryClaim slot source
  | takeCounts => exact .takesCounts
  | takeLastDrop => exact .takesLastDrop

end Gate

end PromptDesk
