import PromptDesk.Desk.Command

/-! Steps that are made at once, together with the callbacks that they bring about: a source that
is asked for its content and a writer that stores a response may both make steps of their own. -/
namespace PromptDesk

namespace Desk

/-- Hands a prepared request over to the background. -/
def runInBackground (d : Desk) (r : Request) (parts : Except Mishap (List Part)) :
    Desk × Except Mishap Nat :=
  match parts with
  | .error m => (d, .error m)
  | .ok parts =>
    let (d, draft) := d.prepare (d.draftFor r) r.prompt parts
    let (d, i) := d.sendDraft draft .conclude
    (d, .ok i)

/-- A submission came to nothing before it went to the background. Its slot is given back if it
failed, and by nobody if it panicked. -/
def turnBack (d : Desk) (id : Option String) : Mishap → Desk
  | .failure f => d.giveBack id f
  | .panic _ => d

/-- Prepares the draft of a name with what the sources gave. -/
def prepareNamed (d : Desk) (name prompt : String) (parts : Except Mishap (List Part)) :
    Desk × Answer :=
  match d.names.drafts.find? name with
  | none => (d, .unknownName)
  | some draft =>
    let draft := draft.begin false
    match parts with
    | .error m => ((d.keepDraft name draft).1, .ofMishap m)
    | .ok parts =>
      let (d, draft) := d.prepare draft prompt parts
      d.keepDraft name draft

/-- Asks for an attempt's response to be stored. -/
def beginLogEntry (d : Desk) (i : Nat) : Desk × HistoryEntry :=
  let entry := (d.board.attempt i).historyEntry
  let d := d.note i (.historyWriteRequested entry.axes.keys)
  (d.write (.history entry), entry)

/-- Logs how storing went, and gives the stored text. -/
def endLogEntry (d : Desk) (i : Nat) (entry : HistoryEntry)
    (result : Except Failure (Option String)) : Desk × Option String :=
  match result with
  | .ok stored => (d.note i (.logEntry entry.axes.keys none), some (stored.getD entry.text))
  | .error f => (d.note i (.logEntry entry.axes.keys (some f.message)), none)

end Desk

mutual

/-- Makes a step. -/
def Step.perform : Step → Desk → Desk × Answer
  | .command c, d => d.obey c
  | .submit (.mk prompt sources destination _ axes) source under, d =>
    match d.claim source with
    | (d, .rejected reason message) => (d, .refused reason message)
    | (d, .allowed id) =>
      let r := Request.mk prompt sources destination id axes
      if d.setup.delegates then
        let (d, i) := d.dispatch id (.request r (.delegate r true)) id
        d.pending under i
      else
        let (d, parts) := gather sources d
        match d.runInBackground r parts with
        | (d, .ok i) => d.pending under i
        | (d, .error m) => (d.turnBack id m, .ofMishap m)
  | .run (.mk prompt sources destination id axes) under, d =>
    let (d, parts) := gather sources d
    match d.runInBackground (.mk prompt sources destination id axes) parts with
    | (d, .ok i) => d.pending under i
    | (d, .error m) => (d, .ofMishap m)
  | .dispatch items id under, d =>
    let (d, i) := d.dispatch id (.collect none { rest := items }) none
    d.pending under i
  | .prepare name prompt sources, d =>
    let (d, parts) := gather sources d
    d.prepareNamed name prompt parts
  | .logEntry attempt (.mk calls result), d =>
    match d.attempt? attempt with
    | none => (d, .noAttempt)
    | some i =>
      let (d, entry) := d.beginLogEntry i
      let d := performAll calls d
      let (d, stored) := d.endLogEntry i entry result
      (d, .ofText? stored)
  | .logEntry attempt (.panic calls payload), d =>
    match d.attempt? attempt with
    | none => (d, .noAttempt)
    | some i =>
      let (d, _) := d.beginLogEntry i
      (performAll calls d, .panicked payload.message)

/-- Makes the steps of a callback one after the other, and reports each of them. -/
def performAll : List Call → Desk → Desk
  | [], d => d
  | .mk label step :: calls, d =>
    let (d, answer) := step.perform d
    performAll calls (d.write (.did label answer))

/-- Asks sources for their content, up to the first that fails or panics. -/
def gather : List Source → Desk → Desk × Except Mishap (List Part)
  | [], d => (d, .ok [])
  | .mk (.panic calls payload) _ :: _, d => (performAll calls d, .error (.panic payload))
  | .mk (.mk calls content) _ :: sources, d =>
    let d := performAll calls d
    match content with
    | .error f => (d, .error (.failure f))
    | .ok parts =>
      match gather sources d with
      | (d, .ok more) => (d, .ok (parts ++ more))
      | (d, .error m) => (d, .error m)

end

/-- Asking some sources is asking the first of them, and the others if it has an answer. -/
theorem gather_cons (s : Source) (ss : List Source) (d : Desk) : gather (s :: ss) d =
    match s.content with
    | .error m => (performAll s.calls d, .error m)
    | .ok parts => (gather ss (performAll s.calls d)).map id (·.map (parts ++ ·)) := by
  obtain ⟨⟨calls, content⟩ | ⟨calls, payload⟩, later⟩ := s
  · cases content with
    | error f => rfl
    | ok parts =>
      rw [gather]
      simp only [Source.content, Visit.content, Source.calls, Visit.calls]
      generalize gather ss (performAll calls d) = x
      obtain ⟨d', more | m⟩ := x <;> rfl
  · rfl

namespace Desk

/-- Has an attempt's response stored. A panic of the writer goes to whoever asked for it. -/
def recordLogEntry (d : Desk) (i : Nat) : Writer → Desk × Except Payload (Option String)
  | .mk calls result =>
    let (d, entry) := d.beginLogEntry i
    let (d, stored) := (performAll calls d).endLogEntry i entry result
    (d, .ok stored)
  | .panic calls payload =>
    let (d, _) := d.beginLogEntry i
    (performAll calls d, .error payload)

end Desk

end PromptDesk
