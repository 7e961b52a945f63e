import PromptDesk.Desk.Execution
import PromptDesk.Directive

/-! A turn of a task. A task goes on until it ends or has to wait, and so does everything that
follows from it: a directive in a finished response leads to one more request in the same turn,
and whatever comes of that is final. -/
namespace PromptDesk.Desk

/-- Sends a draft; the first turn of its execution comes at once. -/
def send (d : Desk) (draft : Draft) : Desk × Draft × Progress :=
  match d.enter draft with
  | (d, draft, .ok id) =>
    let (d, p) := d.execute ⟨id, draft, .claimed⟩
    (d, draft, p)
  | (d, draft, .error id) =>
    let (d, r) := d.cancelledBeforeStart id
    (d, draft, .ended r)

/-- Prepares a request and sends it. -/
def run (d : Desk) (r : Request) : Desk × Except Mishap (Draft × Progress) :=
  match gather r.sources d with
  | (d, .error m) => (d, .error m)
  | (d, .ok parts) =>
    let (d, draft) := d.prepare (d.draftFor r) r.prompt parts
    let (d, draft, p) := d.send draft
    (d, .ok (draft, p))

/-- Hands a result back when nothing follows it. -/
def proceedToResult (d : Desk) (destination : Destination) : Progress → Desk × Turn
  | .waiting e => (d, .waiting (.execution e .conclude))
  | .panicked message => (d, .ended (.panic message))
  | .ended r =>
    let (d, result) := d.conclude destination r
    (d, .ended (.success (.result result)))

/-- A request that nothing follows. -/
def runLast (d : Desk) (r : Request) : Desk × Turn :=
  match d.run r with
  | (d, .error m) => (d, .ended m.ending)
  | (d, .ok (draft, p)) => d.proceedToResult draft.destination p

/-- The source that a followed directive takes the slot for. -/
def delegateSource : String := "delegation"

/-- Follows a directive in the result of a request. Where the slot was taken meanwhile, the result
stands. -/
def follow (d : Desk) (r : Request) (gated : Bool) (result : PromptResult) : Desk × Turn :=
  let stands : Turn := .ended (.success (.result result))
  if !result.isCompleted then (d, stands)
  else match Directive.ofResponse? result.text with
    | none => (d, stands)
    | some directive =>
      match if gated then d.claim delegateSource else (d, .allowed none) with
      | (d, .rejected _ _) => (d, stands)
      | (d, .allowed id) =>
        d.runLast (r.follow directive.prompt (directive.destinationOr result.destination) id)

/-- What follows a turn of an execution. -/
def proceed (d : Desk) (destination : Destination) : Sequel → Progress → Desk × Turn
  | sequel, .waiting e => (d, .waiting (.execution e sequel))
  | _, .panicked message => (d, .ended (.panic message))
  | .respond, .ended r => (d, .ended (.success (.response r)))
  | .conclude, .ended r => d.proceedToResult destination (.ended r)
  | .delegate request gated, .ended r =>
    let (d, result) := d.conclude destination r
    d.follow request gated result

/-- A turn of a task. -/
def turn (d : Desk) : Task → Desk × Turn
  | .request r sequel =>
    match d.run r with
    | (d, .error m) => (d, .ended m.ending)
    | (d, .ok (draft, p)) => d.proceed draft.destination sequel p
  | .execution e sequel =>
    let (d, p) := d.execute e
    d.proceed e.draft.destination sequel p
  | .collect limit p =>
    match d.collectWithin limit p with
    | (d, .waiting p) => (d, .waiting (.collect limit p))
    | (d, .text s) => (d, .ended (.success (.text s)))
    | (d, .failed f) => (d, .ended (.failure f))
    | (d, .panicked message) => (d, .ended (.panic message))
  | .read r =>
    match d.read r with
    | (d, .waiting r) => (d, .waiting (.read r))
    | (d, .ended outcome) => (d, .ended (.success (.reading outcome)))
    | (d, .panicked message) => (d, .ended (.panic message))
  | .await h limit =>
    if (d.handle h).report.isSome then (d, .ended (.success (.resolved true)))
    else if limit.any (· ≤ d.clock) then (d, .ended (.success (.resolved false)))
    else (d, .waiting (.await h limit))
  | .sleep due =>
    if due ≤ d.clock then (d, .ended (.success .nothing)) else (d, .waiting (.sleep due))
  | .present h quiet =>
    match (d.handle h).report with
    | none => (d, .waiting (.present h quiet))
    | some (.ok p) => (d.write (.presented p), .ended (.success .nothing))
    | some (.error defeat) =>
      (if quiet then d else d.write (.defeatPresented defeat), .ended (.success .nothing))
  | .exports interval due =>
    if d.stopped then (d.exportCounts.1, .ended (.success .nothing))
    else if interval = 0 then (d, .waiting (.exports 0 none))
    else match due with
      | none => (d, .waiting (.exports interval (some (d.clock + interval))))
      | some due =>
        if due ≤ d.clock then
          (d.exportCounts.1, .waiting (.exports interval (some (due + interval))))
        else (d, .waiting (.exports interval (some due)))

/-- What becomes of a job when its task has ended. -/
def settle (d : Desk) (j : Job) (e : Ending) : Desk :=
  let d := match e, j.owner with
    | .failure f, some id => d.failOwned id f
    | _, _ => d
  match j.handle with
  | some h => d.resolve h e.report
  | none => d

/-- The waits of a job from now on; those that go on keep their places. -/
def await (d : Desk) (i : Nat) (interests : List Interest) : Desk :=
  let kept := d.waits.filter fun w => w.job != i || interests.contains w.interest
  let fresh := interests.filter fun x => !kept.contains ⟨i, x⟩
  { d with waits := kept ++ fresh.map (⟨i, ·⟩) }

/-- A turn of a job. While it has its turn its task is out of reach, and what it comes to wait for
may be there already. -/
def turnOfJob (d : Desk) (i : Nat) : Desk :=
  let j := d.job i
  match j.task with
  | none => d
  | some task =>
    let d := { d with jobs := d.jobs.set i { j with task := none } }
    match d.turn task with
    | (d, .ended e) => (d.await i []).settle j e
    | (d, .waiting task) =>
      let d := { d with jobs := d.jobs.set i { j with task := some task } }
      let d := d.await i task.interests
      if task.interests.any d.isMet then d.enqueue i else d

end PromptDesk.Desk
