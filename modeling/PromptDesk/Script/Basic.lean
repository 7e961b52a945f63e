import PromptDesk.Script.Command

/-! Scripts of what the desk's surroundings do. Sources, the history writer and the transport call
back into the desk while they are asked, and those calls may bring requests of their own, so all
of these types refer to each other. -/
namespace PromptDesk

/-- What a panic carries. -/
inductive Payload where
  | text (message : String)
  | other
  deriving DecidableEq, Inhabited, Repr

/-- The text of a panic. -/
def Payload.message : Payload → String
  | text message => message
  | other => "unknown panic"

/-- Why somebody who is asked has no answer. -/
inductive Mishap where
  | failure (failure : Failure)
  | panic (payload : Payload)
  deriving DecidableEq, Inhabited, Repr

mutual

/-- A step made from inside a callback, under the label that it is reported by. If the step panics,
the callback is told so and goes on. -/
inductive Call where
  | mk (label : String) (step : Step)

/-- A step that is made at once. -/
inductive Step where
  | command (command : Command)
  /-- Submits a request in the background. -/
  | submit (request : Request) (source under : String)
  /-- Prepares a request now and runs it in the background. -/
  | run (request : Request) (under : String)
  /-- Plays items in the background and joins their chunks. -/
  | dispatch (items : List Item) (id : Option String) (under : String)
  /-- Prepares the draft of a name. -/
  | prepare (name prompt : String) (sources : List Source)
  /-- Has the response of an attempt written to the history. -/
  | logEntry (attempt : Option String) (writer : Writer)

/-- One visit to a source: the calls that it makes, and its answer. -/
inductive Visit where
  | mk (calls : List Call) (content : Except Failure (List Part))
  | panic (calls : List Call) (payload : Payload)

/-- The next visit to a source and those after it; the last one repeats. -/
inductive Source where
  | mk (now : Visit) (later : List Visit)

/-- A history writer: the calls that it makes, and what it stores. Without a text of its own it
stores the text of the entry. -/
inductive Writer where
  | mk (calls : List Call) (result : Except Failure (Option String))
  | panic (calls : List Call) (payload : Payload)

/-- What happens while a stream is read or work is done. -/
inductive Item where
  | chunk (text : String)
  | fail (failure : Failure)
  | delay (ms : Nat)
  /-- Waits until a name is released. -/
  | wait (name : String)
  | hang
  | panic (payload : Payload)
  | calls (calls : List Call)

/-- A prompt with its sources, asked in their order. -/
inductive Request where
  | mk (prompt : String) (sources : List Source) (destination : Option Destination)
    (id : Option String) (axes : Axes)

end

/-- What the transport does when it is called: first while the stream is opened, then on it. -/
structure Reply where
  opening : List Item
  items : List Item

namespace Reply

/-- The answer when no other was given. -/
def standard : Reply := ⟨[], [.chunk "Mock response"]⟩

end Reply

instance : Inhabited Item := ⟨.hang⟩
instance : Inhabited Step := ⟨.command default⟩
instance : Inhabited Call := ⟨.mk "" default⟩
instance : Inhabited Visit := ⟨.mk [] (.ok [])⟩
instance : Inhabited Source := ⟨.mk default []⟩
instance : Inhabited Writer := ⟨.mk [] (.ok none)⟩
instance : Inhabited Request := ⟨.mk "" [] none none ∅⟩
instance : Inhabited Reply := ⟨.standard⟩

namespace Visit

def calls : Visit → List Call
  | mk calls _ | panic calls _ => calls

/-- What the visit comes to. -/
def content : Visit → Except Mishap (List Part)
  | mk _ content => content.mapError .failure
  | panic _ payload => .error (.panic payload)

end Visit

namespace Source

/-- The source as the visit after this one finds it. -/
def next : Source → Source
  | mk now [] => mk now []
  | mk _ (v :: vs) => mk v vs

/-- The calls that the next visit makes. -/
def calls : Source → List Call
  | mk now _ => now.calls

/-- What the next visit comes to. -/
def content : Source → Except Mishap (List Part)
  | mk now _ => now.content

/-- What the next visits to some sources come to, up to the first mishap. -/
def answers : List Source → Except Mishap (List Part)
  | [] => .ok []
  | s :: ss =>
    match s.content with
    | .error m => .error m
    | .ok parts => (answers ss).map (parts ++ ·)

/-- The parts of some sources, up to the first failure. A source that panics gives none. -/
def contents (ss : List Source) : Except Failure (List Part) :=
  match answers ss with
  | .ok parts => .ok parts
  | .error (.failure f) => .error f
  | .error (.panic _) => .ok []

end Source

namespace Request

def prompt : Request → String
  | mk prompt .. => prompt

def sources : Request → List Source
  | mk _ sources .. => sources

def destination : Request → Option Destination
  | mk _ _ destination _ _ => destination

def id : Request → Option String
  | mk _ _ _ id _ => id

def axes : Request → Axes
  | mk _ _ _ _ axes => axes

/-- A request for a destination, without axes and without a claim. -/
def plain (prompt : String) (sources : List Source) (destination : Destination) : Request :=
  mk prompt sources (some destination) none ∅

/-- The request under an id. -/
def claimed : Request → Option String → Request
  | mk prompt sources destination _ axes, id => mk prompt sources destination id axes

/-- The request that follows from this one for another prompt, with the same sources. -/
def follow (r : Request) (prompt : String) (destination : Destination) (id : Option String) :
    Request :=
  mk prompt (r.sources.map Source.next) (some destination) id r.axes

end Request

end PromptDesk
