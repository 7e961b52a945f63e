import PromptDesk.Board.Transcript

/-! The published view of an attempt. Refusals counted for an earlier attempt of the same request
are carried over and added to those of the attempt itself. -/
namespace PromptDesk

inductive StreamStatus where
  | inflight
  | completed
  | errored
  deriving DecidableEq, Inhabited, Repr

instance : Named StreamStatus where
  all := [.inflight, .completed, .errored]
  name
    | .inflight => "inflight"
    | .completed => "completed"
    | .errored => "errored"

/-- How often a reason was given. -/
structure DropCount where
  reason : String
  count : UInt64
  deriving DecidableEq, Inhabited, Repr

instance : Published DropCount where
  toJson c := .object [("reason", .text c.reason), ("count", toJson c.count)]
  ofTree? t := do
    let r ← t.record? ["reason", "count"]
    return ⟨← r.required? "reason", ← r.required? "count"⟩

namespace DropCount

/-- A larger count stands first, and among equal counts the smaller reason. -/
def ranksBefore (a b : DropCount) : Bool := Counts.ranksBefore (a.reason, a.count) (b.reason, b.count)

/-- The counts of a map by rank. -/
def ranking (m : Counts) : List DropCount :=
  (m.entries.map fun e => DropCount.mk e.1 e.2).mergeSort ranksBefore

end DropCount

structure Snapshot where
  requestId : String := ""
  text : String := ""
  completed : Bool := false
  errored : Bool := false
  errorMessage : String := ""
  axes : Axes := ∅
  dropCounts : Counts := ∅
  /-- The counts by rank. -/
  dropRanking : List DropCount := []
  dropSources : Counts := ∅
  dropTotal : UInt64 := 0
  lastDrop : Option DropCount := none
  deriving DecidableEq, Inhabited

instance : Published Snapshot where
  toJson s := .object [("request_id", .text s.requestId), ("text", .text s.text),
    ("completed", .bool s.completed), ("errored", .bool s.errored),
    ("error_message", .text s.errorMessage), ("axes", toJson s.axes),
    ("gating_drop_counts", toJson s.dropCounts),
    ("gating_drop_counts_sorted", toJson s.dropRanking),
    ("gating_drop_sources", toJson s.dropSources), ("gating_drop_total", toJson s.dropTotal),
    ("gating_drop_last", toJson s.lastDrop)]
  ofTree? t := do
    let r ← t.record? ["request_id", "text", "completed", "errored", "error_message", "axes",
      "gating_drop_counts", "gating_drop_counts_sorted", "gating_drop_sources",
      "gating_drop_total", "gating_drop_last"]
    return ⟨← r.required? "request_id", ← r.required? "text", ← r.required? "completed",
      ← r.required? "errored", ← r.required? "error_message", ← r.required? "axes",
      ← r.required? "gating_drop_counts", ← r.required? "gating_drop_counts_sorted",
      ← r.required? "gating_drop_sources", ← r.required? "gating_drop_total",
      ← r.optional? "gating_drop_last"⟩

/-- What a canvas shows. -/
structure CanvasView where
  text : String
  status : StreamStatus
  errorMessage : String
  deriving DecidableEq, Inhabited, Repr

instance : Published CanvasView where
  toJson v := .object [("text", .text v.text), ("status", toJson v.status),
    ("error_message", .text v.errorMessage)]
  ofTree? t := do
    let r ← t.record? ["text", "status", "error_message"]
    return ⟨← r.required? "text", ← r.required? "status", ← r.required? "error_message"⟩

/-- Counts carried over from the attempt before. -/
structure Baseline where
  counts : Counts := ∅
  sources : Counts := ∅
  deriving DecidableEq, Inhabited

namespace Baseline

/-- Only an attempt of the same request hands its counts on. -/
def inherit (before : Snapshot) (requestId : String) : Baseline :=
  if before.requestId == requestId then ⟨before.dropCounts, before.dropSources⟩ else {}

end Baseline

namespace Snapshot

/-- The view of a transcript on top of what was carried over. -/
def of (t : Transcript) (base : Baseline) : Snapshot :=
  let counts := Counts.merge base.counts t.dropCounts
  { requestId := t.requestId
    text := t.text
    completed := t.completed
    errored := t.errored
    errorMessage := t.errorMessage
    axes := t.axes
    dropCounts := counts
    dropRanking := DropCount.ranking counts
    dropSources := Counts.merge base.sources t.dropSources
    dropTotal := counts.total
    lastDrop := t.lastDrop.map fun r => ⟨r, counts.count r⟩ }

/-- An error weighs more than an end. -/
def status (s : Snapshot) : StreamStatus :=
  if s.errored then .errored else if s.completed then .completed else .inflight

def canvas (s : Snapshot) : CanvasView := ⟨s.text, s.status, s.errorMessage⟩

end Snapshot

end PromptDesk
