import PromptDesk.Desk.Basic

/-! How a desk carries out commands. A command changes the desk at once and is answered; work that
it starts goes into the background and has its first turn later. -/
namespace PromptDesk.Desk

/-- Changes what is kept under names. -/
def keep (d : Desk) (f : Names → Names) : Desk := { d with names := f d.names }

def keepHandle (d : Desk) (under : String) (i : Nat) : Desk :=
  d.keep fun n => { n with handles := n.handles.insert under i }

/-- Keeps a handle and tells which request it is for. -/
def pending (d : Desk) (under : String) (i : Nat) : Desk × Answer :=
  (d.keepHandle under i, .pending (d.handle i).requestId)

/-- An owned event took effect, or it did not. -/
def owned (d : Desk) (s? : Option Slot) (yes : PhaseState → Answer) (no : Answer) : Desk × Answer :=
  match s? with
  | some s => (d.withSlot s, yes s.state)
  | none => (d, no)

/-- Whoever keeps a watch under a name has seen every state so far. -/
def look (d : Desk) (name : String) : Desk :=
  d.keep fun n => { n with watches := n.watches.insert name d.slot.version }

/-- Whoever keeps a watch under a name has seen every snapshot so far. -/
def lookAtDisplay (d : Desk) (name : String) : Desk :=
  d.keep fun n => { n with displayWatches := n.displayWatches.insert name d.board.display.version }

def obeySlot (d : Desk) : SlotCommand → Desk × Answer
  | .issue => let (s, id) := d.slot.issue; (d.withSlot s, .text id)
  | .beginSend id => let (s, id) := d.slot.beginSend id; (d.withSlot s, .text id)
  | .beginStream id => let (s, id) := d.slot.beginStream id; (d.withSlot s, .text id)
  | .beginStreamFor id => d.owned (d.slot.beginStreamFor? id) (fun _ => .flag true) (.flag false)
  | .apply e => let s := d.slot.apply e; (d.withSlot s, .phase s.state)
  | .cancel => let s := d.slot.cancel; (d.withSlot s, .phase s.state)
  | .retry id => let s := d.slot.retry id; (d.withSlot s, .phase s.state)
  | .completeFor id => d.owned (d.slot.completeFor? id) .phase .nothing
  | .failFor id error => d.owned (d.slot.failFor? id error) .phase .nothing
  | .cancelFor id => d.owned (d.slot.cancelFor? id) .phase .nothing
  | .close => (d.withSlot d.slot.close, .flag true)
  | .read =>
    match d.slot.read with
    | .ok s => (d, .phase s)
    | .error f => (d, .failure f)
  | .view => (d, .slot ⟨d.slot.state, d.slot.isCancelRequested, d.slot.closed⟩)
  | .inFlight cutOff =>
    (d, .flag (!cutOff && Gate.isInFlight d.slot.read))
  | .keepToken under =>
    (d.keep fun n => { n with tokens := n.tokens.insert under d.slot.armed },
      .flag (d.slot.isTripped d.slot.armed))
  | .keepTokenFor id under =>
    match d.slot.tokenFor? id with
    | none => (d, .nothing)
    | some t =>
      (match under with
        | some under => d.keep fun n => { n with tokens := n.tokens.insert under t }
        | none => d,
        .flag (d.slot.isTripped t))
  | .tokenState name =>
    match d.names.tokens.find? name with
    | some t => (d, .flag (d.slot.isTripped t))
    | none => (d, .unknownName)
  | .trip name =>
    match d.names.tokens.find? name with
    | some t => (d.withSlot (d.slot.trip t), .nothing)
    | none => (d, .unknownName)
  | .watch under => (d.look under, .nothing)
  | .checkWatch name =>
    match d.names.watches.find? name with
    | some seen => (d.look name, .watched (d.slot.version != seen) d.slot.state)
    | none => (d, .unknownName)

def obeyGate (d : Desk) : GateCommand → Desk × Answer
  | .tryBegin state source => let (d, a) := d.tryBegin state source; (d, .admission a)
  | .tryBeginCurrent source cutOff =>
    let reading := if cutOff then .error (.unavailable "phase store is closed") else d.slot.read
    let (d, a) := d.tryBeginCurrent source reading
    (d, .admission a)
  | .claim source => let (d, a) := d.claim source; (d, .admission a)
  | .statistics => (d, .statistics d.gate.statistics)
  | .takeCounts => let (g, counts) := d.gate.takeCounts; ({ d with gate := g }, .counts counts)
  | .lastDrop => (d, .lastDrop d.gate.lastMessage d.gate.lastDrop)
  | .takeLastDrop =>
    let (g, drop) := d.gate.takeLastDrop
    ({ d with gate := g }, (drop.map Answer.drop).getD .nothing)
  | .observe on => ({ d with observed := on }, .nothing)
  | .exportCounts =>
    let (d, t) := d.exportCounts
    (d, (t.map Answer.telemetry).getD .nothing)
  | .startExports interval =>
    let interval := interval.getD (d.setup.settings.telemetryIntervalSecs.toNat * 1000)
    (d.spawn { task := some (.exports interval none) }, .nothing)
  | .stopExports => (rouse { d with stopped := true }, .nothing)

/-- Keeps an attempt and tells about it. -/
def keepAttempt (d : Desk) (under : String) (b : Board × Nat) : Desk × Answer :=
  let a := b.1.attempt b.2
  ((d.withBoard b.1).keep fun n => { n with attempts := n.attempts.insert under b.2 },
    .attempt a.requestId a.retired)

def obeyBoard (d : Desk) : BoardCommand → Desk × Answer
  | .begin id under => d.keepAttempt under (d.board.begin id)
  | .beginOwned id under => d.keepAttempt under (d.board.beginOwned id d.slot.state)
  | .add id under reports ownDisplay retired =>
    let b := d.board
    if ownDisplay then
      d.keepAttempt under
        (Board.add { b with displays := b.displays ++ [{}] } id b.displays.length reports retired)
    else d.keepAttempt under (b.add id 0 reports retired)
  | .view => (d, .snapshot d.board.display.latest)
  | .publish s => (d.withBoard (d.board.publishTo 0 s), .nothing)
  | .current => (d, .ofText? (d.board.current.map fun i => (d.board.attempt i).requestId))
  | .report on =>
    let b := d.board
    (d.withBoard { b with reporting := on }, .nothing)
  | .drop state reason source message =>
    (d.withBoard (d.board.gatingDrop state reason source message d.now), .nothing)
  | .watch under => (d.lookAtDisplay under, .nothing)
  | .checkWatch name =>
    match d.names.displayWatches.find? name with
    | some seen =>
      let display := d.board.display
      (d.lookAtDisplay name, .displayed (display.version != seen) display.latest.text)
    | none => (d, .unknownName)
  | .follow under =>
    (d.keep fun n => { n with followers := n.followers.insert under none }, .nothing)
  | .nextText name =>
    match d.names.followers.find? name with
    | some seen =>
      if seen = some d.board.display.version then (d, .nothing)
      else
        (d.keep fun n =>
          { n with followers := n.followers.insert name (some d.board.display.version) },
          .text d.board.display.latest.text)
    | none => (d, .unknownName)

/-- The attempt of a name, or the current one. -/
def attempt? (d : Desk) : Option String → Option Nat
  | some name => d.names.attempts.find? name
  | none => d.board.current

/-- Whether it tells anything that a note changed something. -/
def isAnswered : Note → Bool
  | .chunk _ | .complete => true
  | _ => false

def obeyAttempt (d : Desk) (i : Nat) : AttemptCommand → Desk × Answer
  | .note n =>
    let (b, changed) := d.board.record i n d.now
    (d.withBoard b, if isAnswered n then .flag changed else .nothing)
  | .cancelRequested state source =>
    let (b, noted) := d.board.cancelRequested i state source d.now
    (d.withBoard b, .flag noted)
  | .setAxes requested catalog =>
    let (b, axes) := d.board.setAxes i requested catalog
    (d.withBoard b, .axes axes)
  | .snapshot => (d, .snapshot (d.board.attempt i).snapshot)
  | .transcript => (d, .transcript (d.board.attempt i).transcript)
  | .events => (d, .events (d.board.attempt i).events)
  | .kinds => (d, .kinds ((d.board.attempt i).events.map StreamEvent.kind))
  | .text => (d, .attemptText (d.board.attempt i).text (d.board.attempt i).retired)

def obeyConversation (d : Desk) : ConversationCommand → Desk × Answer
  | .queue m => ({ d with conversation := d.conversation.queue m }, .nothing)
  | .push m => ({ d with conversation := d.conversation.push m }, .nothing)
  | .clear => ({ d with conversation := d.conversation.clear }, .nothing)
  | .view => (d, .conversation d.conversation)

/-- Does something with the handle of a name. -/
def withHandle (d : Desk) (name : String) (f : Nat → Desk × Answer) : Desk × Answer :=
  match d.names.handles.find? name with
  | some i => f i
  | none => (d, .unknownName)

def obeyWork (d : Desk) : WorkCommand → Desk × Answer
  | .cancelCurrent source => let (d, b) := d.cancelCurrent source; (d, .flag b)
  | .ready value under =>
    let (d, i) := d.settled (.text value)
    d.pending under i
  | .view name => d.withHandle name fun i => (d, .handle (d.handle i))
  | .cancel name =>
    d.withHandle name fun i => let (d, b) := d.cancelHandle i; (d, .flag b)
  | .present name quiet =>
    d.withHandle name fun i => (d.spawn { task := some (.present i quiet) }, .nothing)
  | .release name => (d.release name, .nothing)

/-- Sends a draft in the background. One that was cancelled before is answered at once. -/
def sendDraft (d : Desk) (draft : Draft) (sequel : Sequel) : Desk × Nat :=
  match d.enter draft with
  | (d, draft, .ok id) => d.dispatch (some id) (.execution ⟨id, draft, .claimed⟩ sequel) none
  | (d, draft, .error id) =>
    let (d, r) := d.cancelledBeforeStart id
    match sequel with
    | .respond => d.settled (.response r)
    | .conclude | .delegate _ _ =>
      let (d, result) := d.conclude draft.destination r
      d.settled (.result result)

def keepDraft (d : Desk) (name : String) (draft : Draft) : Desk × Answer :=
  (d.keep fun n => { n with drafts := n.drafts.insert name draft }, .messages draft.messages)

/-- Does something with the draft of a name. -/
def withDraft (d : Desk) (name : String) (f : Draft → Desk × Answer) : Desk × Answer :=
  match d.names.drafts.find? name with
  | some draft => f draft
  | none => (d, .unknownName)

def obeyDraft (d : Desk) : DraftCommand → Desk × Answer
  | .new under id destination axes =>
    let draft : Draft := { destination := destination, requestId := id, axes := axes }
    ((d.keepDraft under draft).1, .destination destination)
  | .begin name reuse => d.withDraft name fun draft => d.keepDraft name (draft.begin reuse)
  | .add name messages => d.withDraft name fun draft => d.keepDraft name (draft.add messages)
  | .reply name m =>
    d.withDraft name fun draft =>
      (if d.setup.settings.threadEnabled then
          { d with conversation := d.conversation.pushReply m }
        else d,
        .messages draft.messages)
  | .messages name => d.withDraft name fun draft => (d, .messages draft.messages)
  | .send name under =>
    d.withDraft name fun draft =>
      let d := d.keep fun n => { n with drafts := n.drafts.erase name }
      let (d, i) := d.sendDraft draft .respond
      d.pending under i

def obey (d : Desk) : Command → Desk × Answer
  | .slot c => d.obeySlot c
  | .gate c => d.obeyGate c
  | .board c => d.obeyBoard c
  | .attempt name c =>
    match d.attempt? name with
    | some i => d.obeyAttempt i c
    | none => (d, .noAttempt)
  | .conversation c => d.obeyConversation c
  | .work c => d.obeyWork c
  | .draft c => d.obeyDraft c

end PromptDesk.Desk
