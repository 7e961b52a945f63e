import PromptDesk.Gate.Tally
import PromptDesk.Slot.Basic

/-! The gate before the slot. An attempt is refused while a request is in flight; every refusal is
counted and the latest one kept. Where the phase cannot be read, the attempt is let through. -/
namespace PromptDesk

structure Gate where
  tally : DropTally := {}
  lastDrop : Option DropRecord := none
  deriving DecidableEq, Inhabited

namespace Gate

/-- Where an attempt came from; a blank source is unspecified. -/
def sourceName (source : String) : String :=
  let s := Text.trim source
  if s.isEmpty then "unspecified" else s

/-- Counts and keeps a refusal. -/
def reject (g : Gate) (reason : DropReason) (source : String) : Gate × Admission :=
  let source := sourceName source
  let message := reason.message
  ({ tally := g.tally.record reason.code source message,
     lastDrop := some ⟨reason, message, source⟩ },
    .rejected reason message)

/-- An attempt in a given state. An attempt that is let through clears the last refusal. -/
def tryBegin (g : Gate) (state : PhaseState) (source : String) : Gate × Admission :=
  if state.isInFlight then g.reject .inFlight source
  else ({ g with lastDrop := none }, .allowed none)

/-- An attempt in a state that may be unreadable, which lets it through and clears nothing. -/
def tryBeginCurrent (g : Gate) (reading : Except Failure PhaseState) (source : String) :
    Gate × Admission :=
  match reading with
  | .ok state => g.tryBegin state source
  | .error _ => (g, .allowed none)

/-- An attempt that also takes the slot, under a fresh id. -/
def tryClaim (g : Gate) (slot : Slot) (source : String) : Gate × Slot × Admission :=
  match g.tryBeginCurrent slot.read source with
  | (g, .allowed _) =>
    let (slot, id) := slot.beginSend none
    (g, slot, .allowed (some id))
  | (g, rejected) => (g, slot, rejected)

def statistics (g : Gate) : DropStatistics := g.tally.statistics

/-- Takes the counts by reason and starts counting anew. -/
def takeCounts (g : Gate) : Gate × Counts := ({ g with tally := {} }, g.tally.counts)

/-- Takes the last refusal. -/
def takeLastDrop (g : Gate) : Gate × Option DropRecord := ({ g with lastDrop := none }, g.lastDrop)

/-- The notice of the last refusal, empty when there is none. -/
def lastMessage (g : Gate) : String := (g.lastDrop.map DropRecord.message).getD ""

/-- A request is in flight; a state that cannot be read counts as idle. -/
def isInFlight : Except Failure PhaseState → Bool
  | .ok state => state.isInFlight
  | .error _ => false

end Gate

end PromptDesk
