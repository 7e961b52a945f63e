import PromptDesk.Settings.Basic
import PromptDesk.Failure
import PromptDesk.Toml.Reader

/-! Settings from a file. A setting that the file does not give has its default, other keys are
passed over, and a file that does not exist gives all defaults. -/
namespace PromptDesk

/-- Types of settings, as a file writes them. -/
class Setting (α : Type) where
  ofToml? : Toml.Value → Option α

instance : Setting Bool where
  ofToml?
    | .bool b => some b
    | _ => none

/-- An integer that fits a word. -/
instance : Setting UInt64 where
  ofToml?
    | .integer (.ofNat n) => Text.word? n
    | _ => none

/-- A name may also be written as the only key of a table, over an empty value. -/
instance {α : Type} [Named α] : Setting α where
  ofToml?
    | .text s => ofName? s
    | .table _ [(key, .array [])] => ofName? key
    | .table _ [(key, .table _ [])] => ofName? key
    | _ => none

namespace Settings

/-- The setting under a key, or its default. -/
def field? {α : Type} [Setting α] (es : Toml.Entries) (key : String) (a : α) : Option α :=
  match es.lookup key with
  | some v => Setting.ofToml? v
  | none => some a

/-- The settings that a table gives. -/
def ofEntries? (es : Toml.Entries) : Option Settings := do
  let d : Settings := {}
  return ⟨← field? es "streaming" d.streaming, ← field? es "thread_enabled" d.threadEnabled,
    ← field? es "request_timeout_ms" d.requestTimeoutMs,
    ← field? es "stream_idle_timeout_ms" d.streamIdleTimeoutMs,
    ← field? es "default_destination" d.defaultDestination,
    ← field? es "telemetry_interval_secs" d.telemetryIntervalSecs⟩

/-- The settings that the text of a file gives. -/
def ofText (text : String) : Except Failure Settings :=
  match (Toml.document? text).bind ofEntries? with
  | some s => .ok s
  | none => .error (.malformedFile "")

end Settings

/-- What is found at a path. -/
inductive FileContent where
  | missing
  | directory
  | bytes (data : ByteArray)

namespace Settings

/-- Where settings are kept, below the home directory. -/
def defaultPath : String := ".parley/config.toml"

/-- The settings of a file. -/
def load : FileContent → Except Failure Settings
  | .missing => .ok {}
  | .directory => .error (.io "Is a directory (os error 21)")
  | .bytes data =>
    match String.fromUTF8? data with
    | some text => ofText text
    | none => .error (.io "stream did not contain valid UTF-8")

end Settings

end PromptDesk
