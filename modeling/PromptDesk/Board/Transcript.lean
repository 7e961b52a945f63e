import PromptDesk.Json.Published
import PromptDesk.Axes

/-! What one attempt has received so far: chunks of text, whether it ended well or with an error,
its axes and the refusals of other attempts meanwhile. -/
namespace PromptDesk

structure Transcript where
  requestId : String
  chunks : List String := []
  completed : Bool := false
  errored : Bool := false
  errorMessage : String := ""
  axes : Axes := ∅
  dropCounts : Counts := ∅
  dropSources : Counts := ∅
  lastDrop : Option String := none
  deriving DecidableEq

instance : Inhabited Transcript := ⟨{ requestId := "" }⟩

instance : Published Transcript where
  toJson t := .object [("request_id", .text t.requestId), ("chunks", toJson t.chunks),
    ("completed", .bool t.completed), ("errored", .bool t.errored),
    ("error_message", .text t.errorMessage), ("axes", toJson t.axes),
    ("gating_drop_counts", toJson t.dropCounts), ("gating_drop_sources", toJson t.dropSources),
    ("gating_drop_last", toJson t.lastDrop)]
  ofTree? t := do
    let r ← t.record? ["request_id", "chunks", "completed", "errored", "error_message", "axes",
      "gating_drop_counts", "gating_drop_sources", "gating_drop_last"]
    return ⟨← r.required? "request_id", ← r.required? "chunks", ← r.required? "completed",
      ← r.required? "errored", ← r.required? "error_message", ← r.required? "axes",
      ← r.required? "gating_drop_counts", ← r.required? "gating_drop_sources",
      ← r.optional? "gating_drop_last"⟩

namespace Transcript

/-- The chunks, joined. -/
def text (t : Transcript) : String := String.join t.chunks

/-- A blank chunk is not kept, and neither is one after an error. -/
def keeps (t : Transcript) (chunk : String) : Bool := !t.errored && !Text.isBlankText chunk

/-- One more chunk, if it is kept. -/
def chunk? (t : Transcript) (chunk : String) : Option Transcript :=
  if t.keeps chunk then some { t with chunks := t.chunks ++ [chunk] } else none

/-- The end, unless an error came before it. -/
def complete? (t : Transcript) : Option Transcript :=
  if t.errored then none else some { t with completed := true }

/-- An error; the chunks stay. -/
def error (t : Transcript) (message : String) : Transcript :=
  { t with errored := true, completed := false, errorMessage := message }

/-- A refusal of another attempt. -/
def gatingDrop (t : Transcript) (reason source : String) : Transcript :=
  { t with
    dropCounts := t.dropCounts.bump reason
    dropSources := t.dropSources.bump source
    lastDrop := some reason }

end Transcript

end PromptDesk
