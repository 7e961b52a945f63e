import PromptDesk.Json.Published
import PromptDesk.Text.Blank

/-! Messages of a conversation: a role, parts of text or images, and an instant if it is known. -/
namespace PromptDesk

inductive Role where
  | system
  | user
  | assistant
  deriving DecidableEq, Inhabited, Repr

instance : Named Role where
  all := [.system, .user, .assistant]
  name
    | .system => "system"
    | .user => "user"
    | .assistant => "assistant"

/-- An image as encoded data with its media type. -/
structure Image where
  data : String
  mimeType : String
  deriving DecidableEq, Inhabited, Repr

instance : Published Image where
  toJson i := .object [("data", .text i.data), ("mime_type", .text i.mimeType)]
  ofTree? t := do
    let r ← t.record? ["data", "mime_type"]
    return ⟨← r.required? "data", ← r.required? "mime_type"⟩

inductive Part where
  | text (text : String)
  | image (image : Image)
  deriving DecidableEq, Inhabited, Repr

namespace Part

/-- Blank text, or an image without data. -/
def isEmpty : Part → Bool
  | text s => Text.isBlankText s
  | image i => i.data.isEmpty

/-- The text of a part, if it is one. -/
def text? : Part → Option String
  | text s => some s
  | image _ => none

end Part

instance : Published Part where
  toJson
    | .text s => .object [("type", .text "text"), ("text", .text s)]
    | .image i =>
      .object [("type", .text "image"), ("data", .text i.data), ("mime_type", .text i.mimeType)]
  ofTree? t := do
    let (kind, fields) ← t.tagged? "type"
    if kind == "text" then
      let r ← fields.record? ["text"]
      return .text (← r.required? "text")
    else if kind == "image" then
      return .image (← ofTree? fields)
    else none

structure Message where
  role : Role
  content : List Part
  at? : Option Timestamp
  deriving DecidableEq, Inhabited, Repr

instance : Published Message where
  toJson m := .object <|
    [("role", toJson m.role), ("content", toJson m.content)] ++
      match m.at? with
      | some t => [("timestamp", toJson t)]
      | none => []
  ofTree? t := do
    let r ← t.record? ["role", "content", "timestamp"]
    return ⟨← r.required? "role", ← r.required? "content", ← r.withDefault? "timestamp" none⟩

namespace Message

/-- A message of a single text, made now. -/
def ofText (role : Role) (text : String) (now : Timestamp) : Message :=
  ⟨role, [.text text], some now⟩

/-- The texts of the parts, joined. -/
def text (m : Message) : String := String.join (m.content.filterMap Part.text?)

/-- No part carries anything. -/
def isEmpty (m : Message) : Bool := m.content.all Part.isEmpty

end Message

end PromptDesk
