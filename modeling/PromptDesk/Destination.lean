import PromptDesk.Json.Published

/-! Where a finished response goes, and how it is laid out for that place. -/
namespace PromptDesk

inductive Destination where
  | above
  | below
  | clipboard
  | snip
  | context
  | newContext
  | appendClipboard
  | browser
  | textToSpeech
  | chain
  | paste
  | thread
  | newThread
  | default
  deriving DecidableEq, Repr

instance : Inhabited Destination := ⟨.default⟩

instance : Named Destination where
  all := [.above, .below, .clipboard, .snip, .context, .newContext, .appendClipboard, .browser,
    .textToSpeech, .chain, .paste, .thread, .newThread, .default]
  name
    | .above => "above"
    | .below => "below"
    | .clipboard => "clipboard"
    | .snip => "snip"
    | .context => "context"
    | .newContext => "new_context"
    | .appendClipboard => "append_clipboard"
    | .browser => "browser"
    | .textToSpeech => "text_to_speech"
    | .chain => "chain"
    | .paste => "paste"
    | .thread => "thread"
    | .newThread => "new_thread"
    | .default => "default"

/-- A response laid out for a place. -/
structure Presentation where
  displayText : String
  pasteText : String
  browserLines : List String
  openBrowser : Bool
  deriving DecidableEq, Inhabited, Repr

instance : Published Presentation where
  toJson p := .object [("display_text", .text p.displayText), ("paste_text", .text p.pasteText),
    ("browser_lines", toJson p.browserLines), ("open_browser", .bool p.openBrowser)]
  ofTree? t := do
    let r ← t.record? ["display_text", "paste_text", "browser_lines", "open_browser"]
    return ⟨← r.required? "display_text", ← r.required? "paste_text",
      ← r.required? "browser_lines", ← r.required? "open_browser"⟩

namespace Presentation

/-- More lines than this open the browser at any destination. -/
def lineLimit : Nat := 60

/-- The lines between line feeds, of which there is at least one. -/
def lines : List Char → List (List Char)
  | [] => [[]]
  | c :: cs =>
    if c = '\n' then [] :: lines cs
    else match lines cs with
      | [] => [[c]]
      | l :: ls => (c :: l) :: ls

/-- Only the browser depends on the destination; the texts are the same for all of them. -/
def render (text : String) (destination : Destination) : Presentation :=
  let ls := (lines text.toList).map String.ofList
  ⟨text, text, ls, destination = .browser || lineLimit < ls.length⟩

end Presentation

end PromptDesk
