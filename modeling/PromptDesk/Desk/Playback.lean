import PromptDesk.Desk.Step

/-! Playing items, either for their joined chunks or into an attempt. Playing goes on without a
break until something has to be waited for. A reader looks at its token and its idle limit before
it asks for the next chunk, and items that are played on the way to that chunk change nothing of
that. -/
namespace PromptDesk

/-- What collecting comes to. -/
inductive Collected where
  | text (text : String)
  | failed (failure : Failure)
  | panicked (message : String)
  | waiting (playback : Playback)
  deriving Inhabited

/-- What a turn of a reader comes to. -/
inductive Drained where
  | ended (outcome : ReadOutcome)
  | panicked (message : String)
  | waiting (reader : Reader)
  deriving Inhabited

namespace Desk

/-- What an item makes playing wait for, if there is anything to wait for. -/
def pauseAt (d : Desk) : Item → Option Interest
  | .delay ms => if ms = 0 then none else some (.clock (d.clock + ms))
  | .wait name => if d.released.contains name then none else some (.release name)
  | .hang => some .never
  | .chunk _ | .fail _ | .panic _ | .calls _ => none

/-- A pause is over. -/
def isOver (d : Desk) (pause : Option Interest) : Bool := pause.all d.isMet

/-- Joins the chunks of items to those collected before. -/
def collectItems : List Item → String → Desk → Desk × Collected
  | [], text, d => (d, .text text)
  | .chunk s :: rest, text, d => collectItems rest (text ++ s) d
  | .fail f :: _, _, d => (d, .failed f)
  | .panic payload :: _, _, d => (d, .panicked payload.message)
  | .calls calls :: rest, text, d => collectItems rest text (performAll calls d)
  | item :: rest, text, d =>
    match d.pauseAt item with
    | some pause => (d, .waiting ⟨some pause, rest, text⟩)
    | none => collectItems rest text d

/-- A turn of collecting. -/
def collect (d : Desk) (p : Playback) : Desk × Collected :=
  if d.isOver p.pause then collectItems p.rest p.text d else (d, .waiting p)

/-- A turn of collecting within a limit. What is there at the limit still counts. -/
def collectWithin (d : Desk) (limit : Option Limit) (p : Playback) : Desk × Collected :=
  match d.collect p with
  | (d, .waiting p) =>
    match limit with
    | some l => if l.due ≤ d.clock then (d, .failed l.failure) else (d, .waiting p)
    | none => (d, .waiting p)
  | other => other

/-- What ends reading before the next chunk: the token, and after it the idle limit. -/
def halt? (d : Desk) (attempt : Nat) (token : Option Nat) (idle : Option Limit) :
    Option (Desk × ReadOutcome) :=
  if token.any d.slot.isTripped then some (d, .cancelled (d.board.attempt attempt).text)
  else match idle with
    | some l =>
      if l.due ≤ d.clock then
        some (d.note attempt (.error l.failure.message), .failed l.failure)
      else none
    | none => none

/-- Reads items until they are over or something has to be waited for. Every chunk restarts the
idle limit, kept or not. -/
def readItems (attempt : Nat) (token : Option Nat) :
    List Item → Option Limit → Desk → Desk × Drained
  | [], _, d =>
    let d := d.note attempt .complete
    (d, .ended (.completed (d.board.attempt attempt).text))
  | .chunk s :: rest, idle, d =>
    let idle := idle.map (·.restart d.clock)
    let d := d.note attempt (.chunk s)
    match d.halt? attempt token idle with
    | some (d, outcome) => (d, .ended outcome)
    | none => readItems attempt token rest idle d
  | .fail f :: _, _, d => (d.note attempt (.error f.message), .ended (.failed f))
  | .panic payload :: _, _, d => (d, .panicked payload.message)
  | .calls calls :: rest, idle, d => readItems attempt token rest idle (performAll calls d)
  | item :: rest, idle, d =>
    match d.pauseAt item with
    | some pause =>
      (d, .waiting ⟨attempt, token, idle, { pause := some pause, rest := rest }⟩)
    | none => readItems attempt token rest idle d

/-- A turn of a reader. -/
def read (d : Desk) (r : Reader) : Desk × Drained :=
  match d.halt? r.attempt r.token r.idle with
  | some (d, outcome) => (d, .ended outcome)
  | none =>
    if d.isOver r.playback.pause then readItems r.attempt r.token r.playback.rest r.idle d
    else (d, .waiting r)

end Desk

end PromptDesk
