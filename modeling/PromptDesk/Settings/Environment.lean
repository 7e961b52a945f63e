import PromptDesk.Settings.Basic
import PromptDesk.Failure
import PromptDesk.Text.Blank
import PromptDesk.Text.Quoted

/-! Environment variables lie on top of the settings. Each variable overrides the setting of its
own; the first one whose value cannot be read decides the failure. -/
namespace PromptDesk

/-- Looks a variable up. -/
abbrev Environment := String → Option String

namespace Environment

/-- What is wrong with a value. -/
inductive Fault where
  | notBoolean (key value : String)
  | notInteger (key value : String)
  | unknownDestination (value : String)
  deriving DecidableEq, Inhabited, Repr

/-- The wording of a fault. -/
def Fault.message : Fault → String
  | notBoolean key value => key ++ ": expected a boolean, got " ++ Text.quoted value
  | notInteger key value => key ++ ": expected an integer, got " ++ Text.quoted value
  | unknownDestination value =>
    "PARLEY_DESTINATION: unknown destination " ++ Text.quoted value

def Fault.failure (f : Fault) : Failure := .configuration f.message

/-- Four words for either truth value, capitals and blanks around them aside. A fault quotes the
word as it was compared. -/
def readBool (key value : String) : Except Fault Bool :=
  let word := Text.lowerAscii (Text.trim value)
  if ["1", "true", "yes", "on"].contains word then .ok true
  else if ["0", "false", "no", "off"].contains word then .ok false
  else .error (.notBoolean key word)

/-- Decimal digits with or without a plus sign, below 2^64. -/
def word? (cs : List Char) : Option UInt64 :=
  let digits := match cs with
    | '+' :: rest => rest
    | _ => cs
  (Text.readNat? digits).bind Text.word?

/-- An integer, blanks around it aside. A fault quotes the whole value. -/
def readWord (key value : String) : Except Fault UInt64 :=
  match word? (Text.trimChars value.toList) with
  | some n => .ok n
  | none => .error (.notInteger key value)

/-- The name of a destination, blanks around it aside. -/
def readDestination (value : String) : Except Fault Destination :=
  match ofName? (Text.trim value) with
  | some d => .ok d
  | none => .error (.unknownDestination value)

/-- The value of a variable, or what lies under it. -/
def override {α : Type} (env : Environment) (key : String)
    (read : String → Except Fault α) (under : α) : Except Fault α :=
  match env key with
  | some value => read value
  | none => .ok under

end Environment

namespace Settings

open Environment in
/-- The settings with the environment on top. -/
def withEnvironment (s : Settings) (env : Environment) : Except Fault Settings := do
  let streaming ← override env "PARLEY_STREAMING" (readBool "PARLEY_STREAMING") s.streaming
  let thread ← override env "PARLEY_THREAD" (readBool "PARLEY_THREAD") s.threadEnabled
  let request ← override env "PARLEY_REQUEST_TIMEOUT_MS" (readWord "PARLEY_REQUEST_TIMEOUT_MS")
    s.requestTimeoutMs
  let idle ← override env "PARLEY_STREAM_IDLE_TIMEOUT_MS"
    (readWord "PARLEY_STREAM_IDLE_TIMEOUT_MS") s.streamIdleTimeoutMs
  let destination ← override env "PARLEY_DESTINATION" readDestination s.defaultDestination
  let telemetry ← override env "PARLEY_TELEMETRY_INTERVAL_SECS"
    (readWord "PARLEY_TELEMETRY_INTERVAL_SECS") s.telemetryIntervalSecs
  return ⟨streaming, thread, request, idle, destination, telemetry⟩

end Settings

end PromptDesk
