import PromptDesk.Message
import PromptDesk.Failure

/-! What outlives a single request: the thread, messages queued for later requests and the last
response. Here are also the messages that a request is made of. -/
namespace PromptDesk

structure Conversation where
  thread : List Message := []
  /-- Context that every request sends before its own message. -/
  queued : List Message := []
  lastResponse : String := ""
  deriving DecidableEq, Inhabited

namespace Conversation

def push (c : Conversation) (m : Message) : Conversation := { c with thread := c.thread ++ [m] }

def clear (c : Conversation) : Conversation := { c with thread := [] }

def queue (c : Conversation) (m : Message) : Conversation := { c with queued := c.queued ++ [m] }

/-- A reply goes to the thread under the assistant's role, unless it is empty. -/
def pushReply (c : Conversation) (m : Message) : Conversation :=
  if m.isEmpty then c else c.push { m with role := .assistant }

end Conversation

namespace Message

/-- The system's message has a part for each line, and without lines there is none. -/
def system? (lines : List String) (now : Timestamp) : Option Message :=
  if lines.isEmpty then none else some ⟨.system, lines.map .text, some now⟩

/-- The prompt, followed by what the sources gave; empty parts are left out. -/
def user (prompt : String) (parts : List Part) (now : Timestamp) : Message :=
  ⟨.user, (Part.text prompt :: parts).filter fun p => !p.isEmpty, some now⟩

end Message

/-- What a source of text gives: nothing if the text is blank. -/
def Part.ofText (text : String) : List Part :=
  if Text.isBlankText text then [] else [.text text]

end PromptDesk
