import PromptDesk.Destination
import PromptDesk.Text.Blank
import PromptDesk.Text.Pattern

/-! Directives in responses. A response may ask for one more run by a JSON object, either as the
whole response or inside a block between fences of three backticks. Only the first object found
counts. -/
namespace PromptDesk

/-- What a directive asks for. -/
inductive DirectiveAction where
  | delegate
  | callSelf
  deriving DecidableEq, Inhabited, Repr

instance : Named DirectiveAction where
  all := [.delegate, .callSelf]
  name
    | .delegate => "delegate"
    | .callSelf => "call_self"

structure Directive where
  action : DirectiveAction
  prompt : String
  /-- The name of a destination, as it was given. -/
  responseDestination : Option String
  deriving DecidableEq, Inhabited, Repr

instance : Published Directive where
  toJson d := .object <|
    [("action", toJson d.action), ("prompt", .text d.prompt)] ++
      match d.responseDestination with
      | some s => [("response_destination", .text s)]
      | none => []
  ofTree? t := do
    let r ← t.record? ["action", "prompt", "response_destination"]
    return ⟨← r.required? "action", ← r.required? "prompt",
      ← r.withDefault? "response_destination" none⟩

namespace Directive

/-- The destination that is named, or the fallback when none is named or the name is unknown. -/
def destinationOr (d : Directive) (fallback : Destination) : Destination :=
  match d.responseDestination with
  | some s => (ofName? (Text.trim s)).getD fallback
  | none => fallback

/-- Three backticks. -/
def fence : List Char := ['\x60', '\x60', '\x60']

/-- The word that may open a block. -/
def label : List Char := ['j', 's', 'o', 'n']

/-- A block between two fences. The word that may open it and the blanks after that do not count. -/
def block : List Text.Atom :=
  [.word fence, .optional label, .many Text.isBlank, .captured, .word fence]

/-- Where an object may stand: the whole text first, then each block. -/
def candidates (text : String) : List (List Char) :=
  Text.trimChars text.toList :: (Text.captures block 0 text.toList).map Text.trimChars

/-- The members of an object that a text consists of. -/
def object? (cs : List Char) : Option (List (String × Json)) :=
  match Json.parse? cs with
  | some (.object members) => some members
  | _ => none

/-- The directive that an object asks for. -/
def ofObject? (members : List (String × Json)) : Option Directive :=
  match (members.lookup "action").bind Json.text?, (members.lookup "prompt").bind Json.text? with
  | some action, some prompt =>
    match (ofName? action : Option DirectiveAction) with
    | some action =>
      if Text.isBlankText prompt then none
      else some ⟨action, prompt, (members.lookup "response_destination").bind Json.text?⟩
    | none => none
  | _, _ => none

/-- The directive of a response: the first candidate that is an object decides. -/
def ofResponse? (text : String) : Option Directive :=
  match ((candidates text).filter (!·.isEmpty)).findSome? object? with
  | some members => ofObject? members
  | none => none

end Directive

end PromptDesk
