import PromptDesk.Desk.Schedule

/-! Scenarios: what visitors of a desk do one after the other, and what can be seen of it. A
visitor who waits lets the work in the background and the clock go on; before the next visitor
comes, all work in the background waits. -/
namespace PromptDesk

/-- What a visitor does. -/
inductive Visitor where
  | step (step : Step)
  /-- Makes steps without letting anything come in between. -/
  | batch (steps : List Step)
  /-- Submits a request and waits for its result. -/
  | submit (request : Request) (source : String)
  /-- Has a request run without asking the gate. -/
  | run (request : Request)
  /-- The same, and a directive in its response is followed. -/
  | delegate (request : Request) (gated : Bool)
  /-- Sends the draft of a name. -/
  | send (name : String)
  /-- Waits for the work behind a handle. -/
  | wait (name : String) (ms : Option Nat)
  | advance (ms : Nat)
  /-- Reads items into the attempt of a name, or into the current one. -/
  | read (items : List Item) (idle : Option Nat) (attempt token : Option String)
  /-- Joins chunks within a limit. -/
  | collect (ms : Nat) (items : List Item)
  deriving Inhabited

/-- What can be seen after a visit. -/
structure Report where
  answer : Answer
  state : PhaseState
  clock : Nat
  /-- What happened meanwhile, in order. -/
  effects : List Effect
  deriving Inhabited

namespace Desk

/-- The answer to a visitor who waited for a task. -/
def answerTo (finished : PromptResult → Answer) : Option Ending → Answer
  | none => .stuck
  | some (.failure f) => .failure f
  | some (.panic message) => .panicked message
  | some (.success p) =>
    match p with
    | .nothing => .nothing
    | .text s => .text s
    | .response r => .response r
    | .result r => finished r
    | .reading outcome => .reading outcome
    | .resolved inTime => .flag inTime

/-- Waits for a task. -/
def waitForTask (d : Desk) (task : Task) : Desk × Option Ending := finishTask turnLimit task d

/-- Waits for a task and answers by what it comes to. -/
def answerTask (d : Desk) (task : Task) : Desk × Answer :=
  let (d, e) := d.waitForTask task
  (d, answerTo .result e)

/-- Makes steps one after the other. -/
def performEach (d : Desk) : List Step → Desk × List Answer
  | [] => (d, [])
  | s :: ss =>
    let (d, a) := s.perform d
    let (d, as) := d.performEach ss
    (d, a :: as)

/-- Submits a request and waits for its result. The slot is given back if there is none. -/
def submit (d : Desk) (r : Request) (source : String) : Desk × Answer :=
  match d.claim source with
  | (d, .rejected reason message) => (d, .refused reason message)
  | (d, .allowed id) =>
    let r := r.claimed id
    let sequel := if d.setup.delegates then Sequel.delegate r true else .conclude
    match d.waitForTask (.request r sequel) with
    | (d, some (.failure f)) => (d.giveBack id f, .failure f)
    | (d, e) => (d, answerTo .completed e)

/-- Sends the draft of a name and waits for the response. -/
def sendNamed (d : Desk) (name : String) : Desk × Answer :=
  d.withDraft name fun draft =>
    match d.enter draft with
    | (d, draft, .ok id) =>
      (d.keepDraft name draft).1.answerTask (.execution ⟨id, draft, .claimed⟩ .respond)
    | (d, draft, .error id) =>
      let (d, r) := (d.keepDraft name draft).1.cancelledBeforeStart id
      (d, .response r)

/-- Reads items into an attempt, while a token allows it. -/
def readInto (d : Desk) (items : List Item) (idle : Option Nat) (attempt : Option String)
    (token : Option Nat) : Desk × Answer :=
  match d.attempt? attempt with
  | none => (d, .noAttempt)
  | some i =>
    d.answerTask (.read ⟨i, token, idle.bind (Limit.start · d.clock), { rest := items }⟩)

/-- Does what a visitor wants. -/
def serve (d : Desk) : Visitor → Desk × Answer
  | .step s => s.perform d
  | .batch ss =>
    let (d, as) := d.performEach ss
    (d, .all as)
  | .submit r source => d.submit r source
  | .run r => d.answerTask (.request r .conclude)
  | .delegate r gated => d.answerTask (.request r (.delegate r gated))
  | .send name => d.sendNamed name
  | .wait name ms =>
    d.withHandle name fun i =>
      match d.waitForTask (.await i (ms.map (d.clock + ·))) with
      | (d, some (.success (.resolved inTime))) => (d, .resolved inTime (d.handle i))
      | (d, e) => (d, answerTo .result e)
  | .advance ms => d.answerTask (.sleep (d.clock + ms))
  | .read items idle attempt token =>
    match token with
    | none => d.readInto items idle attempt none
    | some name =>
      match d.names.tokens.find? name with
      | some t => d.readInto items idle attempt (some t)
      | none => (d, .unknownName)
  | .collect ms items => d.answerTask (.collect (Limit.start ms d.clock) { rest := items })

/-- A visit up to the moment at which all work in the background waits. -/
def visit (d : Desk) (v : Visitor) : Desk × Report :=
  let (d', answer) := d.serve v
  let d' := d'.settleDown
  let seen := d'.journal.take (d'.journal.length - d.journal.length)
  (d', ⟨answer, d'.slot.state, d'.clock, seen.reverse⟩)

/-- The reports of visits, one after the other. -/
def visits (d : Desk) : List Visitor → List Report
  | [] => []
  | v :: vs =>
    let (d, r) := d.visit v
    r :: d.visits vs

/-- A desk that nobody has visited yet. -/
def opened (setup : Setup) (replies : List Reply) (reporting : Bool) : Desk :=
  { setup := setup, replies := replies, board := { reporting := reporting } }

end Desk

end PromptDesk
