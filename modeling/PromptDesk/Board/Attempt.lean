import PromptDesk.Board.Event
import PromptDesk.Board.Snapshot

/-! One attempt at a request: its transcript and its log. A note that changes nothing is not
logged, so the log and the transcript tell the same story. -/
namespace PromptDesk

/-- A finished response for the history. -/
structure HistoryEntry where
  requestId : String
  text : String
  axes : Axes
  deriving DecidableEq

instance : Inhabited HistoryEntry := ⟨⟨"", "", ∅⟩⟩

instance : Published HistoryEntry where
  toJson e := .object [("request_id", .text e.requestId), ("text", .text e.text),
    ("axes", toJson e.axes)]
  ofTree? t := do
    let r ← t.record? ["request_id", "text", "axes"]
    return ⟨← r.required? "request_id", ← r.required? "text", ← r.required? "axes"⟩

structure Attempt where
  requestId : String
  transcript : Transcript
  /-- The log, the first entry first. -/
  events : List StreamEvent := []
  baseline : Baseline := {}
  /-- The display that it publishes to. -/
  display : Nat := 0
  /-- Its entries are reported as they are logged. -/
  reports : Bool := false
  /-- It no longer publishes. -/
  retired : Bool := false
  deriving Inhabited

namespace Transcript

/-- What a note does to the transcript; nothing if it changes nothing. -/
def note? (t : Transcript) : Note → Option Transcript
  | .chunk text => t.chunk? text
  | .complete => t.complete?
  | .error message => some (t.error message)
  | .gatingDrop reason _ source _ => some (t.gatingDrop reason source)
  | _ => some t

end Transcript

namespace Attempt

def snapshot (a : Attempt) : Snapshot := .of a.transcript a.baseline

def text (a : Attempt) : String := a.transcript.text

/-- The next entry of the log. -/
def entry (a : Attempt) (n : Note) (now : Timestamp) : StreamEvent where
  kind := n.kind
  requestId := a.requestId
  seq := UInt64.ofNat (a.events.length + 1)
  at_ := now
  fields := Keyed.ofList n.fields

/-- Logs a note that changes something. -/
def record? (a : Attempt) (n : Note) (now : Timestamp) : Option (Attempt × StreamEvent) :=
  match a.transcript.note? n with
  | some t =>
    let e := a.entry n now
    some ({ a with transcript := t, events := a.events ++ [e] }, e)
  | none => none

/-- The response as an entry for the history. -/
def historyEntry (a : Attempt) : HistoryEntry := ⟨a.requestId, a.text, a.transcript.axes⟩

end Attempt

end PromptDesk
