import PromptDesk.Proofs.Board.Drops
import PromptDesk.Proofs.Desk.Deeds
import PromptDesk.Proofs.Script.Throughout

/-! What is done at a desk with its board and its gate. Every deed is one of a few dealings: the slot
moves, an attempt is begun, a note is logged, a refusal is counted, counts are taken or exported, or
work goes into the background. A script that is not allowed all uses of the board makes no other
ones, however deep in its callbacks. -/
namespace PromptDesk

namespace Board.Use

/-- Everybody may use the board so. The other uses are notes on an attempt and its axes. -/
def isOpen : Use → Bool
  | note _ _ _ | setAxes _ _ _ => false
  | begin _ | beginOwned _ _ | gatingDrop _ _ _ _ _ | cancelRequested _ _ _ _ | report _ => true

end Board.Use

namespace Effect

def event? : Effect → Option StreamEvent
  | event e => some e
  | _ => none

def telemetry? : Effect → Option Telemetry
  | telemetry t => some t
  | _ => none

/-- What a presenter was told. -/
def presentation? : Effect → Option (Except Defeat Product)
  | presented p => some (.ok p)
  | defeatPresented defeat => some (.error defeat)
  | _ => none

end Effect

/-- The task is to call a presenter. -/
def Task.isPresenter : Task → Bool
  | present _ _ => true
  | _ => false

namespace Gate

/-- How a gate answers an attempt from a source: it counts nothing, or it counts one refusal. -/
inductive Answers (g : Gate) (source : String) : Gate × Admission → Prop
  | admits {g' : Gate} (tally : g'.tally = g.tally) (id : Option String) :
      Answers g source (g', .allowed id)
  | refuses (reason : DropReason) : Answers g source (g.reject reason source)

theorem answers_tryBegin (g : Gate) (state : PhaseState) (source : String) :
    g.Answers source (g.tryBegin state source) := by
  rw [tryBegin]
  split
  · exact .refuses .inFlight
  · have h : ({ g with lastDrop := none } : Gate).tally = g.tally := rfl
    exact .admits h none

theorem answers_tryBeginCurrent (g : Gate) (reading : Except Failure PhaseState) (source : String) :
    g.Answers source (g.tryBeginCurrent reading source) := by
  cases reading with
  | ok state => exact answers_tryBegin g state source
  | error f => exact .admits rfl none

theorem answers_tryClaim (g : Gate) (slot : Slot) (source : String) :
    g.Answers source ((g.tryClaim slot source).1, (g.tryClaim slot source).2.2) := by
  have h := answers_tryBeginCurrent g slot.read source
  rw [tryClaim]
  generalize g.tryBeginCurrent slot.read source = out at h
  cases h with
  | admits tally id => exact .admits tally _
  | refuses reason => exact .refuses reason

end Gate

namespace Desk

/-- The entries that attempts have reported, the latest first. -/
def reported (d : Desk) : List StreamEvent := d.journal.filterMap Effect.event?

/-- The counts that were exported, the latest first. -/
def exported (d : Desk) : List Telemetry := d.journal.filterMap Effect.telemetry?

/-- What presenters were told, the latest first. -/
def presented (d : Desk) : List (Except Defeat Product) := d.journal.filterMap Effect.presentation?

/-- Nothing happens to the slot, the board, what the gate has counted, and the work in the
background. -/
structure Aside (d d' : Desk) : Prop where
  setup : d'.setup = d.setup
  slot : d'.slot = d.slot
  tally : d'.gate.tally = d.gate.tally
  board : d'.board = d.board
  stopped : d'.stopped = d.stopped
  handles : d'.handles = d.handles
  jobs : d'.jobs = d.jobs
  reported : d'.reported = d.reported
  exported : d'.exported = d.exported
  presented : d'.presented = d.presented

/-- One thing that is done at a desk by somebody who may use the board in some ways. -/
inductive Dealing (ok : Board.Use → Prop) : Desk → Desk → Prop
  | slot (d : Desk) {s : Slot} (h : d.slot.Remembers s) : Dealing ok d (d.withSlot s)
  | use (d : Desk) (u : Board.Use) (h : ok u) : Dealing ok d (d.withBoard (d.board.use u))
  /-- An attempt of an execution. -/
  | begins (d : Desk) (id : String) (axes : Axes) : Dealing ok d (d.beginAttempt id axes).1
  /-- An attempt that is over at once. -/
  | forgoes (d : Desk) (id : String) : Dealing ok d (d.cancelledBeforeStart id).1
  /-- An attempt beside the current one, which may have a display of its own. -/
  | adds (d : Desk) (l : List Display) (id : String) (display : Nat) (reports retired : Bool)
      (h : d.board.displays.length ≤ l.length) :
      Dealing ok d (d.withBoard (Board.add { d.board with displays := l } id display reports retired).1)
  | displays (d : Desk) (l : List Display) (h : d.board.displays.length ≤ l.length) :
      Dealing ok d (d.withBoard { d.board with displays := l })
  | refuses (d : Desk) (reason : DropReason) (source : String) :
      Dealing ok d { d with gate := (d.gate.reject reason source).1 }
  | takes (d : Desk) : Dealing ok d { d with gate := d.gate.takeCounts.1 }
  | exports (d : Desk) : Dealing ok d d.exportCounts.1
  | stops (d : Desk) : Dealing ok d (rouse { d with stopped := true })
  | spawns (d : Desk) {j : Job} (h : j.handle = none) : Dealing ok d (d.spawn j)
  | dispatches (d : Desk) {id owner : Option String} {t : Task} (h : t.isFor id owner) :
      Dealing ok d (d.dispatch id t owner).1
  | settles (d : Desk) (p : Product) : Dealing ok d (d.settled p).1
  | aside {d d' : Desk} (h : d.Aside d') : Dealing ok d d'

abbrev Dealings (ok : Board.Use → Prop) : Desk → Desk → Prop := Relation.ReflTransGen (Dealing ok)

/-- Whatever may be done at a desk. -/
abbrev Dealt : Desk → Desk → Prop := Dealings fun _ => True

variable {ok : Board.Use → Prop} {p : Step → Bool} {d d' d'' : Desk}

theorem Dealing.deeds (h : Dealing ok d d') : Deeds d d' := by
  cases h with
  | slot h => exact .slot h
  | use u h => exact .board (Board.follows_use d.board u)
  | begins id axes =>
    have h : Deeds d (d.withBoard (d.board.beginOwned id d.slot.state).1) :=
      .board (Board.follows_beginOwned ..)
    simp only [beginAttempt]
    split
    · split
      · exact h
      · exact h.trans (.board (Board.follows_setAxes ..))
    · exact h
  | forgoes id =>
    have h : Deeds d (d.withBoard (d.board.begin id).1) := .board (Board.follows_begin d.board id)
    exact h.trans (.board (Board.follows_note ..))
  | adds l id display reports retired =>
    have h : d.board.Follows { d.board with displays := l } := .of_eq rfl rfl
    exact .board (h.trans (Board.follows_add ..))
  | displays => exact .board (.of_eq rfl rfl)
  | refuses | takes | stops => exact .aside rfl rfl rfl rfl
  | exports =>
    simp only [exportCounts]
    split <;> exact .aside rfl rfl rfl rfl
  | spawns h => exact .single (.spawn d h)
  | dispatches h => exact .single (.dispatch d h)
  | settles p => exact .single (.settled d p)
  | aside h => exact .aside h.slot h.board h.handles h.jobs

namespace Dealings

theorem trans (h : Dealings ok d d') (h' : Dealings ok d' d'') : Dealings ok d d'' :=
  Relation.ReflTransGen.trans h h'

theorem deeds (h : Dealings ok d d') : Deeds d d' := by
  induction h with
  | refl => exact .refl
  | tail _ hd ih => exact ih.trans hd.deeds

/-- What every dealing respects, any number of dealings respects. -/
theorem respect {R : Desk → Desk → Prop} (h : Dealings ok d d') (refl : ∀ d, R d d)
    (trans : ∀ {d d' d''}, R d d' → R d' d'' → R d d'')
    (dealing : ∀ {d d'}, Dealing ok d d' → R d d') : R d d' := by
  induction h with
  | refl => exact refl d
  | tail _ hd ih => exact trans ih (dealing hd)

theorem slot {s : Slot} (h : d.slot.Remembers s) : Dealings ok d (d.withSlot s) :=
  .single (.slot d h)

theorem use {u : Board.Use} (h : ok u) : Dealings ok d (d.withBoard (d.board.use u)) :=
  .single (.use d u h)

theorem aside (h : d.Aside d') : Dealings ok d d' := .single (.aside h)

end Dealings

theorem aside_names (d : Desk) (n : Names) : Aside d { d with names := n } :=
  ⟨rfl, rfl, rfl, rfl, rfl, rfl, rfl, rfl, rfl, rfl⟩

theorem aside_conversation (d : Desk) (c : Conversation) : Aside d { d with conversation := c } :=
  ⟨rfl, rfl, rfl, rfl, rfl, rfl, rfl, rfl, rfl, rfl⟩

theorem aside_gate (d : Desk) {g : Gate} (h : g.tally = d.gate.tally) : Aside d { d with gate := g } :=
  ⟨rfl, rfl, h, rfl, rfl, rfl, rfl, rfl, rfl, rfl⟩

theorem aside_write (d : Desk) {e : Effect} (he : e.event? = none) (ht : e.telemetry? = none)
    (hp : e.presentation? = none) : Aside d (d.write e) := by
  refine ⟨rfl, rfl, rfl, rfl, rfl, rfl, rfl, ?_, ?_, ?_⟩
  · exact List.filterMap_cons_none he
  · exact List.filterMap_cons_none ht
  · exact List.filterMap_cons_none hp

/-- Who may make some steps may use the board in these ways. -/
structure Admits (p : Step → Bool) (ok : Board.Use → Prop) : Prop where
  opens : ∀ u : Board.Use, u.isOpen = true → ok u
  note : ∀ {name n}, p (.command (.attempt name (.note n))) = true → ∀ i now, ok (.note i n now)
  axes : ∀ {name requested catalog}, p (.command (.attempt name (.setAxes requested catalog))) = true →
    ∀ i, ok (.setAxes i requested catalog)
  asks : ∀ {name w}, p (.logEntry name w) = true →
    ∀ i axes now, ok (.note i (.historyWriteRequested axes) now)
  logs : ∀ {name w}, p (.logEntry name w) = true →
    ∀ i axes failure now, ok (.note i (.logEntry axes failure) now)

theorem Admits.of_forall (h : ∀ u, ok u) : Admits p ok :=
  ⟨fun _ _ => h _, fun _ _ _ => h _, fun _ _ => h _, fun _ _ _ _ => h _, fun _ _ _ _ _ => h _⟩

section

variable (opens : ∀ u : Board.Use, u.isOpen = true → ok u)
include opens

theorem dealings_withGate (d : Desk) {source : String} {out : Gate × Admission}
    (h : d.gate.Answers source out) (state : PhaseState) :
    Dealings ok d (d.withGate out.1 state source out.2) := by
  cases h with
  | admits tally id => exact .aside (aside_gate d tally)
  | refuses reason =>
    have hr : Dealings ok d { d with gate := (d.gate.reject reason source).1 } :=
      .single (.refuses d reason source)
    simp only [withGate, Gate.reject]
    split
    · exact hr.trans (.use (u := .gatingDrop ..) (opens _ rfl))
    · exact hr

theorem dealings_claim (d : Desk) (source : String) : Dealings ok d (d.claim source).1 := by
  have hs : d.slot.Remembers (d.gate.tryClaim d.slot source).2.1 := by
    rw [Gate.tryClaim]
    split
    · exact Slot.remembers_beginSend d.slot none
    · exact .refl _
  exact (Dealings.slot hs).trans (dealings_withGate opens (d.withSlot _)
    (Gate.answers_tryClaim d.gate d.slot source) d.slot.state)

theorem dealings_cancelCurrent (d : Desk) (source : String) :
    Dealings ok d (d.cancelCurrent source).1 := by
  simp only [cancelCurrent]
  split
  · exact .refl
  split
  · exact .refl
  · rename_i s hs
    have hr : d.slot.Remembers s := by
      split at hs
      · exact Slot.remembers_cancelFor? hs
      · cases hs
        exact Slot.remembers_cancel d.slot
    have h : Dealings ok d (d.withSlot s) := .slot hr
    split
    · split
      · exact h.trans (.use (u := .cancelRequested ..) (opens _ rfl))
      · exact h
    · exact h

end

theorem dealings_failOwned (d : Desk) (id : String) (f : Failure) :
    Dealings ok d (d.failOwned id f) := by
  rw [failOwned]
  split
  · exact .slot (Slot.remembers_applyFor? ‹_›)
  · exact .refl

theorem dealings_giveBack (d : Desk) (id : Option String) (f : Failure) :
    Dealings ok d (d.giveBack id f) := by
  cases id with
  | none => exact .slot (Slot.remembers_of_tokens rfl)
  | some id => exact dealings_failOwned d id f

theorem dealings_turnBack (d : Desk) (id : Option String) (m : Mishap) :
    Dealings ok d (d.turnBack id m) := by
  cases m with
  | failure f => exact dealings_giveBack d id f
  | panic payload => exact .refl

theorem dealings_cancelHandle (d : Desk) (i : Nat) : Dealings ok d (d.cancelHandle i).1 := by
  simp only [cancelHandle]
  split
  · exact .refl
  · split
    · exact .slot (Slot.remembers_cancel d.slot)
    · split
      · exact .slot (Slot.remembers_cancelFor? ‹_›)
      · exact .refl

theorem dealings_conclude (d : Desk) (destination : Destination) (r : Response) :
    Dealings ok d (d.conclude destination r).1 := by
  rw [conclude]
  split
  · exact .aside (aside_conversation d _)
  · exact .refl

theorem dealings_prepare (d : Desk) (draft : Draft) (prompt : String) (parts : List Part) :
    Dealings ok d (d.prepare draft prompt parts).1 := by
  rw [prepare]
  dsimp only
  split
  · exact .aside (aside_conversation d _)
  · exact .refl

theorem dealings_enter (d : Desk) (draft : Draft) : Dealings ok d (d.enter draft).1 := by
  have h : Dealings ok d (d.withSlot (d.slot.enter (draft.begin false).requestId).1) :=
    .slot (Slot.remembers_enter d.slot _)
  rw [enter]
  dsimp only
  split <;> exact h

theorem dealings_pending (d : Desk) (under : String) (i : Nat) :
    Dealings ok d (d.pending under i).1 := .aside (aside_names d _)

/-- Work for a draft goes into the background under the id that the draft entered with. -/
theorem dealings_sendDraft (d : Desk) (draft : Draft) (sequel : Sequel) :
    Dealings ok d (d.sendDraft draft sequel).1 := by
  have h : Dealings ok d (d.enter draft).1 := dealings_enter d draft
  rw [sendDraft]
  split
  · rename_i d₁ draft' id he
    rw [he] at h
    exact h.trans (.single (.dispatches d₁ (t := .execution _ _) ⟨rfl, rfl, rfl⟩))
  · rename_i d₁ draft' id he
    rw [he] at h
    have hc : Dealings ok d (d₁.cancelledBeforeStart id).1 := h.trans (.single (.forgoes d₁ id))
    dsimp only
    split
    · exact hc.trans (.single (.settles _ _))
    all_goals exact (hc.trans (dealings_conclude _ draft'.destination _)).trans (.single (.settles _ _))

theorem dealings_owned (d : Desk) {s? : Option Slot} (h : ∀ s, s? = some s → d.slot.Remembers s)
    (yes : PhaseState → Answer) (no : Answer) : Dealings ok d (d.owned s? yes no).1 := by
  cases s? with
  | none => exact .refl
  | some s => exact .slot (h s rfl)

theorem dealings_obeySlot (d : Desk) (c : SlotCommand) : Dealings ok d (d.obeySlot c).1 := by
  cases c with
  | issue => exact .slot (Slot.remembers_of_tokens rfl)
  | beginSend id => exact .slot (Slot.remembers_beginSend d.slot id)
  | beginStream id => exact .slot (Slot.remembers_beginStream d.slot id)
  | beginStreamFor id | completeFor id | failFor id error =>
    exact dealings_owned d (fun _ => Slot.remembers_applyFor?) _ _
  | cancelFor id => exact dealings_owned d (fun _ => Slot.remembers_cancelFor?) _ _
  | apply e | close => exact .slot (Slot.remembers_of_tokens rfl)
  | cancel => exact .slot (Slot.remembers_cancel d.slot)
  | retry id => exact .slot (Slot.remembers_arm d.slot)
  | read =>
    rw [obeySlot]
    split <;> exact .refl
  | view | inFlight cutOff => exact .refl
  | keepToken under | watch under => exact .aside (aside_names d _)
  | keepTokenFor id under =>
    rw [obeySlot]
    split
    · exact .refl
    · cases under with
      | none => exact .refl
      | some under => exact .aside (aside_names d _)
  | tokenState name =>
    rw [obeySlot]
    split <;> exact .refl
  | trip name =>
    rw [obeySlot]
    split
    · exact .slot (Slot.remembers_trip d.slot _)
    · exact .refl
  | checkWatch name =>
    rw [obeySlot]
    split
    · exact .aside (aside_names d _)
    · exact .refl

theorem dealings_obeyConversation (d : Desk) (c : ConversationCommand) :
    Dealings ok d (d.obeyConversation c).1 := by
  cases c with
  | queue m | push m | clear => exact .aside (aside_conversation d _)
  | view => exact .refl

theorem dealings_withHandle (d : Desk) (name : String) {f : Nat → Desk × Answer}
    (h : ∀ i, Dealings ok d (f i).1) : Dealings ok d (d.withHandle name f).1 := by
  rw [withHandle]
  split
  · exact h _
  · exact .refl

theorem dealings_withDraft (d : Desk) (name : String) {f : Draft → Desk × Answer}
    (h : ∀ draft, Dealings ok d (f draft).1) : Dealings ok d (d.withDraft name f).1 := by
  rw [withDraft]
  split
  · exact h _
  · exact .refl

theorem dealings_obeyDraft (d : Desk) (c : DraftCommand) : Dealings ok d (d.obeyDraft c).1 := by
  cases c with
  | new under id destination axes => exact .aside (aside_names d _)
  | begin name reuse | add name messages =>
    exact dealings_withDraft d name fun _ => .aside (aside_names d _)
  | reply name m =>
    refine dealings_withDraft d name fun _ => ?_
    dsimp only
    split
    · exact .aside (aside_conversation d _)
    · exact .refl
  | messages name => exact dealings_withDraft d name fun _ => .refl
  | send name under =>
    refine dealings_withDraft d name fun draft => ?_
    have h : Dealings ok d (d.keep fun n => { n with drafts := n.drafts.erase name }) :=
      .aside (aside_names d _)
    exact (h.trans (dealings_sendDraft _ draft .respond)).trans (dealings_pending _ _ _)

theorem dealings_keepAttempt (d : Desk) (under : String) {b : Board × Nat}
    (h : Dealings ok d (d.withBoard b.1)) : Dealings ok d (d.keepAttempt under b).1 :=
  h.trans (.aside (aside_names _ _))

section

variable (opens : ∀ u : Board.Use, u.isOpen = true → ok u)
include opens

theorem dealings_obeyGate (d : Desk) (c : GateCommand) : Dealings ok d (d.obeyGate c).1 := by
  cases c with
  | tryBegin state source => exact dealings_withGate opens d (Gate.answers_tryBegin ..) state
  | tryBeginCurrent source cutOff =>
    exact dealings_withGate opens d (Gate.answers_tryBeginCurrent ..) d.slot.state
  | claim source => exact dealings_claim opens d source
  | statistics | lastDrop => exact .refl
  | takeCounts => exact .single (.takes d)
  | takeLastDrop => exact .aside (aside_gate d rfl)
  | observe on => exact .aside ⟨rfl, rfl, rfl, rfl, rfl, rfl, rfl, rfl, rfl, rfl⟩
  | exportCounts => exact .single (.exports d)
  | startExports interval => exact .single (.spawns d rfl)
  | stopExports => exact .single (.stops d)

theorem dealings_obeyBoard (d : Desk) (c : BoardCommand) : Dealings ok d (d.obeyBoard c).1 := by
  cases c with
  | begin id under => exact dealings_keepAttempt d under (.use (u := .begin id) (opens _ rfl))
  | beginOwned id under =>
    exact dealings_keepAttempt d under (.use (u := .beginOwned id d.slot.state) (opens _ rfl))
  | add id under reports ownDisplay retired =>
    rw [obeyBoard]
    split
    · exact dealings_keepAttempt d under (.single (.adds d _ id _ reports retired (by simp)))
    · refine dealings_keepAttempt d under (.single ?_)
      exact .adds d d.board.displays id 0 reports retired (Nat.le_refl _)
  | view | current => exact .refl
  | publish s => exact .single (.displays d _ (by simp))
  | report on => exact .use (u := .report on) (opens _ rfl)
  | drop state reason source message => exact .use (u := .gatingDrop ..) (opens _ rfl)
  | watch under | follow under => exact .aside (aside_names d _)
  | checkWatch name =>
    simp only [obeyBoard]
    split
    · exact .aside (aside_names d _)
    · exact .refl
  | nextText name =>
    rw [obeyBoard]
    split
    · split
      · exact .refl
      · exact .aside (aside_names d _)
    · exact .refl

theorem dealings_obeyWork (d : Desk) (c : WorkCommand) : Dealings ok d (d.obeyWork c).1 := by
  cases c with
  | cancelCurrent source => exact dealings_cancelCurrent opens d source
  | ready value under =>
    exact (Dealings.trans (.single (.settles d _)) (dealings_pending _ _ _))
  | view name => exact dealings_withHandle d name fun _ => .refl
  | cancel name => exact dealings_withHandle d name fun i => dealings_cancelHandle d i
  | present name quiet => exact dealings_withHandle d name fun _ => .single (.spawns d rfl)
  | release name => exact .aside ⟨rfl, rfl, rfl, rfl, rfl, rfl, rfl, rfl, rfl, rfl⟩

end

theorem dealings_obeyAttempt (d : Desk) (i : Nat) {c : AttemptCommand}
    (opens : ∀ u : Board.Use, u.isOpen = true → ok u) (note : ∀ n, c = .note n → ok (.note i n d.now))
    (axes : ∀ r k, c = .setAxes r k → ok (.setAxes i r k)) :
    Dealings ok d (d.obeyAttempt i c).1 := by
  cases c with
  | note n => exact .use (note n rfl)
  | cancelRequested state source => exact .use (u := .cancelRequested ..) (opens _ rfl)
  | setAxes requested catalog => exact .use (axes _ _ rfl)
  | snapshot | transcript | events | kinds | text => exact .refl

theorem dealings_obey (h : Admits p ok) (d : Desk) {c : Command} (hc : p (.command c) = true) :
    Dealings ok d (d.obey c).1 := by
  cases c with
  | slot c => exact dealings_obeySlot d c
  | gate c => exact dealings_obeyGate h.opens d c
  | board c => exact dealings_obeyBoard h.opens d c
  | attempt name c =>
    rw [obey]
    split
    · refine dealings_obeyAttempt d _ h.opens (fun n he => ?_) fun r k he => ?_
      · subst he
        exact h.note hc _ _
      · subst he
        exact h.axes hc _
    · exact .refl
  | conversation c => exact dealings_obeyConversation d c
  | work c => exact dealings_obeyWork h.opens d c
  | draft c => exact dealings_obeyDraft d c

theorem dealings_prepareNamed (d : Desk) (name prompt : String) (parts : Except Mishap (List Part)) :
    Dealings ok d (d.prepareNamed name prompt parts).1 := by
  rw [prepareNamed]
  split
  · exact .refl
  · dsimp only
    split
    · exact .aside (aside_names d _)
    · exact (dealings_prepare d _ prompt _).trans (.aside (aside_names _ _))

theorem dealings_runInBackground (d : Desk) (r : Request) (parts : Except Mishap (List Part)) :
    Dealings ok d (d.runInBackground r parts).1 := by
  cases parts with
  | error f => exact .refl
  | ok parts =>
    refine Dealings.trans (dealings_prepare d (d.draftFor r) r.prompt parts) ?_
    exact dealings_sendDraft _ _ _

theorem dealings_note (d : Desk) {i : Nat} {n : Note} (h : ok (.note i n d.now)) :
    Dealings ok d (d.note i n) := .use h

theorem dealings_beginLogEntry (d : Desk) {i : Nat}
    (h : ∀ axes, ok (.note i (.historyWriteRequested axes) d.now)) :
    Dealings ok d (d.beginLogEntry i).1 :=
  (dealings_note d (h _)).trans (.aside (aside_write _ rfl rfl rfl))

theorem dealings_endLogEntry (d : Desk) {i : Nat} (entry : HistoryEntry)
    (result : Except Failure (Option String))
    (h : ∀ axes failure, ok (.note i (.logEntry axes failure) d.now)) :
    Dealings ok d (d.endLogEntry i entry result).1 := by
  cases result <;> exact dealings_note d (h _ _)

end Desk

open Desk (Admits Dealings Deeds)

variable {ok : Board.Use → Prop} {p : Step → Bool}

mutual

/-- Every step is a number of dealings, with all that callbacks do in it. -/
theorem Step.dealings_perform (h : Admits p ok) : ∀ (s : Step) (d : Desk), s.all p = true →
    Dealings ok d (s.perform d).1
  | .command c, d, hs => d.dealings_obey h hs
  | .submit (.mk prompt sources destination id' axes) source under, d, hs => by
    simp only [Step.all, Request.all, Bool.and_eq_true] at hs
    have hc := d.dealings_claim h.opens source
    rw [Step.perform]
    generalize d.claim source = out at hc ⊢
    obtain ⟨d₁, id | _⟩ := out
    · dsimp only at hc ⊢
      split
      · let r : Request := .mk prompt sources destination id axes
        have hd : Dealings ok d₁ (d₁.dispatch id (.request r (.delegate r true)) id).1 :=
          .single (.dispatches d₁ (t := .request r (.delegate r true)) ⟨rfl, rfl⟩)
        exact (hc.trans hd).trans (Desk.dealings_pending _ _ _)
      · have hg := hc.trans (dealings_gather h sources d₁ hs.2)
        generalize gather sources d₁ = g at hg ⊢
        obtain ⟨d₂, parts⟩ := g
        have hr := hg.trans
          (d₂.dealings_runInBackground (.mk prompt sources destination id axes) parts)
        dsimp only at hr ⊢
        split
        · rename_i he
          rw [he] at hr
          exact hr.trans (Desk.dealings_pending _ _ _)
        · rename_i he
          rw [he] at hr
          exact hr.trans (Desk.dealings_turnBack _ _ _)
    · exact hc
  | .run (.mk prompt sources destination id axes) under, d, hs => by
    simp only [Step.all, Request.all, Bool.and_eq_true] at hs
    have hg := dealings_gather h sources d hs.2
    rw [Step.perform]
    generalize gather sources d = g at hg ⊢
    obtain ⟨d₂, parts⟩ := g
    have hr := hg.trans (d₂.dealings_runInBackground (.mk prompt sources destination id axes) parts)
    dsimp only at hr ⊢
    split
    · rename_i he
      rw [he] at hr
      exact hr.trans (Desk.dealings_pending _ _ _)
    · rename_i he
      rwa [he] at hr
  | .dispatch items id under, d, _ => by
    have hd : Dealings ok d (d.dispatch id (.collect none { rest := items }) none).1 :=
      .single (.dispatches d (t := .collect _ _) rfl)
    exact hd.trans (Desk.dealings_pending _ _ _)
  | .prepare name prompt sources, d, hs => by
    simp only [Step.all, Bool.and_eq_true] at hs
    rw [Step.perform]
    exact (dealings_gather h sources d hs.2).trans (Desk.dealings_prepareNamed _ _ _ _)
  | .logEntry attempt (.mk calls result), d, hs => by
    simp only [Step.all, Writer.all, Bool.and_eq_true] at hs
    rw [Step.perform]
    split
    · exact .refl
    · exact ((d.dealings_beginLogEntry fun _ => h.asks hs.1 _ _ _).trans
        (dealings_performAll h calls _ hs.2)).trans
        (Desk.dealings_endLogEntry _ _ _ fun _ _ => h.logs hs.1 _ _ _ _)
  | .logEntry attempt (.panic calls payload), d, hs => by
    simp only [Step.all, Writer.all, Bool.and_eq_true] at hs
    rw [Step.perform]
    split
    · exact .refl
    · exact (d.dealings_beginLogEntry fun _ => h.asks hs.1 _ _ _).trans
        (dealings_performAll h calls _ hs.2)

theorem dealings_performAll (h : Admits p ok) : ∀ (cs : List Call) (d : Desk),
    Call.allIn p cs = true → Dealings ok d (performAll cs d)
  | [], _, _ => .refl
  | .mk label step :: cs, d, hs => by
    simp only [Call.allIn, Call.all, Bool.and_eq_true] at hs
    rw [performAll]
    have hd := Dealings.trans (step.dealings_perform h d hs.1)
      (.aside (Desk.aside_write _ (e := .did label (step.perform d).2) rfl rfl rfl))
    exact hd.trans (dealings_performAll h cs _ hs.2)

theorem dealings_gather (h : Admits p ok) : ∀ (ss : List Source) (d : Desk),
    Source.allIn p ss = true → Dealings ok d (gather ss d).1
  | [], _, _ => .refl
  | .mk (.panic calls payload) later :: ss, d, hs => by
    simp only [Source.allIn, Source.all, Visit.all, Bool.and_eq_true] at hs
    exact dealings_performAll h calls d hs.1.1
  | .mk (.mk calls content) later :: ss, d, hs => by
    simp only [Source.allIn, Source.all, Visit.all, Bool.and_eq_true] at hs
    have hc := dealings_performAll h calls d hs.1.1
    rw [gather_cons]
    cases content with
    | error f => exact hc
    | ok parts => exact hc.trans (dealings_gather h ss (performAll calls d) hs.2)

end

namespace Desk

theorem dealt_perform (d : Desk) (s : Step) : Dealt d (s.perform d).1 :=
  s.dealings_perform (.of_forall fun _ => trivial) d (s.all_of_forall (p := fun _ => true) fun _ => rfl)

theorem dealt_performAll (calls : List Call) (d : Desk) : Dealt d (performAll calls d) :=
  dealings_performAll (.of_forall fun _ => trivial) calls d
    (Call.allIn_of_forall (p := fun _ => true) (fun _ => rfl) calls)

theorem dealt_gather (sources : List Source) (d : Desk) : Dealt d (gather sources d).1 :=
  dealings_gather (.of_forall fun _ => trivial) sources d
    (Source.allIn_of_forall (p := fun _ => true) (fun _ => rfl) sources)

theorem dealt_claim (d : Desk) (source : String) : Dealt d (d.claim source).1 :=
  dealings_claim (fun _ _ => trivial) d source

theorem dealt_note (d : Desk) (i : Nat) (n : Note) : Dealt d (d.note i n) := dealings_note d trivial

end Desk

end PromptDesk
