import PromptDesk.Conversation
import PromptDesk.Destination
import PromptDesk.Axes
import PromptDesk.Slot.Basic

/-! A request in preparation: its messages so far, and what it will be sent with. -/
namespace PromptDesk

structure Draft where
  destination : Destination
  /-- The id under which the slot was taken for it. -/
  requestId : Option String := none
  /-- Axes asked for; a catalog decides on them when the request is sent. -/
  axes : Axes := ∅
  messages : List Message := []
  /-- Messages are kept from now on. -/
  begun : Bool := false
  deriving DecidableEq, Inhabited

namespace Draft

/-- Makes sure that there is a request. One that was begun keeps its messages, and so does one that
has messages if it may be reused. -/
def begin (d : Draft) (reuse : Bool) : Draft :=
  if d.begun || (reuse && !d.messages.isEmpty) then { d with begun := true }
  else { d with messages := [], begun := true }

def add (d : Draft) (messages : List Message) : Draft :=
  let d := d.begin false
  { d with messages := d.messages ++ messages }

/-- What a request sends before the user's message: the system's message, the thread if it is in
use, and the queue. -/
def context (system : List String) (threaded : Bool) (c : Conversation) (now : Timestamp) :
    List Message :=
  (Message.system? system now).toList ++ (if threaded then c.thread else []) ++ c.queued

/-- Puts in everything up to the user's message. -/
def fill (d : Draft) (system : List String) (threaded : Bool) (c : Conversation) (user : Message)
    (now : Timestamp) : Draft :=
  d.add (context system threaded c now ++ [user])

end Draft

namespace Slot

/-- Takes the slot for a request at the start of its execution. A request that was claimed keeps
the claim; a request that the slot names and that was cancelled meanwhile is refused. -/
def enter (s : Slot) : Option String → Slot × Except String String
  | none =>
    let (s, id) := s.beginSend none
    (s, .ok id)
  | some id =>
    if s.state.isFor id && s.state.cancelRequested then (s, .error id)
    else if s.state.isFor id && s.state.phase = .sending then (s, .ok id)
    else
      let (s, id) := s.beginSend (some id)
      (s, .ok id)

end Slot

end PromptDesk
