import PromptDesk.Json.Published

/-! Refusals counted since the last export, by rank. -/
namespace PromptDesk

structure Telemetry where
  counts : Counts
  ranking : List (String × UInt64)
  total : UInt64
  exportedAt : Timestamp
  deriving DecidableEq

namespace Telemetry

instance : Inhabited Telemetry := ⟨⟨∅, [], 0, default⟩⟩

/-- An export of some counts; there is none when nothing was counted. -/
def of? (counts : Counts) (now : Timestamp) : Option Telemetry :=
  if counts.isEmpty then none else some ⟨counts, counts.ranking, counts.total, now⟩

end Telemetry

instance : Published Telemetry where
  toJson t := .object [("counts", toJson t.counts), ("counts_sorted", toJson t.ranking),
    ("total", toJson t.total), ("exported_at", toJson t.exportedAt)]
  ofTree? t := do
    let r ← t.record? ["counts", "counts_sorted", "total", "exported_at"]
    return ⟨← r.required? "counts", ← r.required? "counts_sorted", ← r.required? "total",
      ← r.required? "exported_at"⟩

end PromptDesk
