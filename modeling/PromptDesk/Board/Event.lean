import PromptDesk.Json.Published

/-! Entries of an attempt's log. An entry says what happened, to which request, at which place of
the log and when; what else it tells depends on its kind. -/
namespace PromptDesk

inductive EventKind where
  | chunk
  | complete
  | error
  | gatingDrop
  | cancelRequested
  | cancelExecuted
  | historySaved
  | historyWriteRequested
  | logEntry
  | uiRefreshRequested
  | uiRefreshExecuted
  deriving DecidableEq, Inhabited, Repr

instance : Named EventKind where
  all := [.chunk, .complete, .error, .gatingDrop, .cancelRequested, .cancelExecuted, .historySaved,
    .historyWriteRequested, .logEntry, .uiRefreshRequested, .uiRefreshExecuted]
  name
    | .chunk => "chunk"
    | .complete => "complete"
    | .error => "error"
    | .gatingDrop => "gating_drop"
    | .cancelRequested => "cancel_requested"
    | .cancelExecuted => "cancel_executed"
    | .historySaved => "history_saved"
    | .historyWriteRequested => "history_write_requested"
    | .logEntry => "log_entry"
    | .uiRefreshRequested => "ui_refresh_requested"
    | .uiRefreshExecuted => "ui_refresh_executed"

/-- What can happen in an attempt. -/
inductive Note where
  | chunk (text : String)
  | complete
  | error (message : String)
  | gatingDrop (reason phase source message : String)
  | cancelRequested (source phase detail : String)
  | cancelExecuted (source : String) (emitted : Bool)
  | historySaved (path : String) (success : Bool)
  | historyWriteRequested (axes : List String)
  /-- The history was written, or failed with a message. -/
  | logEntry (axes : List String) (failure : Option String)
  | uiRefreshRequested (forced : Bool) (reason : String)
  | uiRefreshExecuted (forced : Bool) (reason : String) (success : Bool) (error : Option String)
  deriving DecidableEq, Inhabited, Repr

namespace Note

def kind : Note → EventKind
  | chunk _ => .chunk
  | complete => .complete
  | error _ => .error
  | gatingDrop .. => .gatingDrop
  | cancelRequested .. => .cancelRequested
  | cancelExecuted .. => .cancelExecuted
  | historySaved .. => .historySaved
  | historyWriteRequested _ => .historyWriteRequested
  | logEntry .. => .logEntry
  | uiRefreshRequested .. => .uiRefreshRequested
  | uiRefreshExecuted .. => .uiRefreshExecuted

/-- A member that is there only with a content. -/
def optionalField (name : String) : Option String → List (String × Json)
  | some s => [(name, .text s)]
  | none => []

/-- What an entry tells beside its kind. -/
def fields : Note → List (String × Json)
  | chunk text => [("text", .text text)]
  | complete => []
  | error message => [("message", .text message)]
  | gatingDrop reason phase source message =>
    [("reason", .text reason), ("phase", .text phase), ("source", .text source),
      ("message", .text message)]
  | cancelRequested source phase detail =>
    [("source", .text source), ("phase", .text phase), ("detail", .text detail)]
  | cancelExecuted source emitted => [("source", .text source), ("emitted", .bool emitted)]
  | historySaved path success => [("path", .text path), ("success", .bool success)]
  | historyWriteRequested axes => [("axes_keys", toJson axes)]
  | logEntry axes failure =>
    [("success", .bool failure.isNone), ("axes_keys", toJson axes)] ++
      optionalField "error" failure
  | uiRefreshRequested forced reason => [("forced", .bool forced), ("reason", .text reason)]
  | uiRefreshExecuted forced reason success fault =>
    [("forced", .bool forced), ("reason", .text reason), ("success", .bool success)] ++
      optionalField "error" fault

end Note

structure StreamEvent where
  kind : EventKind
  requestId : String
  seq : UInt64
  at_ : Timestamp
  fields : Keyed Json

namespace StreamEvent

instance : Inhabited StreamEvent := ⟨⟨.chunk, "", 0, default, ∅⟩⟩

def get? (e : StreamEvent) (key : String) : Option Json := e.fields.find? key

def text? (e : StreamEvent) (key : String) : Option String := (e.get? key).bind Json.text?

def bool? (e : StreamEvent) (key : String) : Option Bool := (e.get? key).bind Json.bool?

/-- The members that every entry has. -/
def ownNames : List String := ["kind", "request_id", "seq", "timestamp"]

end StreamEvent

/-- All members that an entry does not know are kept, and written beside those it knows. -/
instance : Published StreamEvent where
  toJson e := .object <|
    [("kind", toJson e.kind), ("request_id", .text e.requestId), ("seq", toJson e.seq),
      ("timestamp", toJson e.at_)] ++ e.fields.entries
  ofTree?
    | .object ms => do
      let r ← (Json.Tree.object ms).record? StreamEvent.ownNames
      let others := ms.filter fun m => !(m.1.any StreamEvent.ownNames.contains)
      let fields ← Json.Tree.members? others (Json.depthLimit - 1)
      return ⟨← r.required? "kind", ← r.required? "request_id", ← r.required? "seq",
        ← r.required? "timestamp", Keyed.ofList fields⟩
    | _ => none

end PromptDesk
