import PromptDesk.Gate.Reason

/-! Counts of refusals by reason, by source and by both, together with the latest refusal. -/
namespace PromptDesk

/-- The counts as they are published. -/
structure DropStatistics where
  counts : Counts := ∅
  sources : Counts := ∅
  reasonSources : Keyed Counts := ∅
  /-- The reason of the latest refusal and its count. -/
  lastDrop : Option (String × UInt64) := none
  lastSource : Option String := none
  lastMessage : String := ""
  total : UInt64 := 0
  deriving DecidableEq, Inhabited

instance : Published DropStatistics where
  toJson s := .object [("counts", toJson s.counts), ("sources", toJson s.sources),
    ("reason_sources", toJson s.reasonSources), ("last_drop", toJson s.lastDrop),
    ("last_source", toJson s.lastSource), ("last_message", .text s.lastMessage),
    ("total", toJson s.total)]
  ofTree? t := do
    let r ← t.record? ["counts", "sources", "reason_sources", "last_drop", "last_source",
      "last_message", "total"]
    return ⟨← r.required? "counts", ← r.required? "sources", ← r.required? "reason_sources",
      ← r.optional? "last_drop", ← r.optional? "last_source", ← r.required? "last_message",
      ← r.required? "total"⟩

structure DropTally where
  counts : Counts := ∅
  sources : Counts := ∅
  reasonSources : Keyed Counts := ∅
  lastReason : Option String := none
  lastSource : Option String := none
  lastMessage : String := ""
  deriving DecidableEq, Inhabited

namespace DropTally

/-- One more refusal. -/
def record (t : DropTally) (reason source message : String) : DropTally where
  counts := t.counts.bump reason
  sources := t.sources.bump source
  reasonSources :=
    t.reasonSources.insert reason (Counts.bump ((t.reasonSources.find? reason).getD ∅) source)
  lastReason := some reason
  lastSource := some source
  lastMessage := message

def statistics (t : DropTally) : DropStatistics where
  counts := t.counts
  sources := t.sources
  reasonSources := t.reasonSources
  lastDrop := t.lastReason.map fun r => (r, t.counts.count r)
  lastSource := t.lastSource
  lastMessage := t.lastMessage
  total := t.counts.total

end DropTally

end PromptDesk
