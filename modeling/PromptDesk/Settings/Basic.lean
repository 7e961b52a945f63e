import PromptDesk.Destination

/-! The settings of a desk. Every setting has a default, in a JSON text as well as in a file. -/
namespace PromptDesk

structure Settings where
  /-- Responses arrive chunk by chunk instead of whole. -/
  streaming : Bool := true
  /-- The conversation goes on from request to request. -/
  threadEnabled : Bool := false
  requestTimeoutMs : UInt64 := 120000
  /-- Zero waits for ever. -/
  streamIdleTimeoutMs : UInt64 := 30000
  defaultDestination : Destination := .default
  telemetryIntervalSecs : UInt64 := 300
  deriving DecidableEq, Inhabited, Repr

/-- A span of time in seconds and nanoseconds. -/
structure Span where
  seconds : Nat
  nanos : Nat
  deriving DecidableEq, Inhabited, Repr

namespace Span

def ofMillis (ms : Nat) : Span := ⟨ms / 1000, ms % 1000 * 1000000⟩

end Span

namespace Settings

def requestTimeout (s : Settings) : Span := .ofMillis s.requestTimeoutMs.toNat

def streamIdleTimeout (s : Settings) : Option Span :=
  if s.streamIdleTimeoutMs = 0 then none else some (.ofMillis s.streamIdleTimeoutMs.toNat)

def telemetryInterval (s : Settings) : Span := ⟨s.telemetryIntervalSecs.toNat, 0⟩

def fieldNames : List String :=
  ["streaming", "thread_enabled", "request_timeout_ms", "stream_idle_timeout_ms",
    "default_destination", "telemetry_interval_secs"]

end Settings

instance : Published Settings where
  toJson s := .object [("streaming", .bool s.streaming),
    ("thread_enabled", .bool s.threadEnabled),
    ("request_timeout_ms", toJson s.requestTimeoutMs),
    ("stream_idle_timeout_ms", toJson s.streamIdleTimeoutMs),
    ("default_destination", toJson s.defaultDestination),
    ("telemetry_interval_secs", toJson s.telemetryIntervalSecs)]
  ofTree? t := do
    let r ← t.record? Settings.fieldNames
    let d : Settings := {}
    return ⟨← r.withDefault? "streaming" d.streaming,
      ← r.withDefault? "thread_enabled" d.threadEnabled,
      ← r.withDefault? "request_timeout_ms" d.requestTimeoutMs,
      ← r.withDefault? "stream_idle_timeout_ms" d.streamIdleTimeoutMs,
      ← r.withDefault? "default_destination" d.defaultDestination,
      ← r.withDefault? "telemetry_interval_secs" d.telemetryIntervalSecs⟩

end PromptDesk
