import Mathlib
import PromptDesk.Desk.Command

/-! What commands leave alone. Most of what happens at a desk is quiet: it neither touches the slot
nor calls the transport, and the work that it starts has nothing to do with any request. -/
namespace PromptDesk

/-- Work that concerns no request. -/
def Task.isPlain : Task → Bool
  | .await _ _ | .sleep _ | .present _ _ | .exports _ _ => true
  | .request _ _ | .execution _ _ | .collect _ _ | .read _ => false

def Job.isPlain (j : Job) : Bool := j.owner.isNone && j.task.all Task.isPlain

namespace Effect

/-- The request with which the transport is called. -/
def call? : Effect → Option TransportRequest
  | transport _ r => some r
  | _ => none

end Effect

namespace Desk

/-- The calls of the transport so far, the latest first. -/
def calls (d : Desk) : List TransportRequest := d.journal.filterMap Effect.call?

/-- How often the transport was called for a request. -/
def callsFor (d : Desk) (id : String) : Nat := d.calls.countP (·.requestId == id)

/-- Handles that can cancel anything belong to a request. -/
def Labelled (d : Desk) : Prop := ∀ h ∈ d.handles, h.cancels = true → h.requestId.isSome = true

/-- Nothing that requests depend on has changed. -/
structure Quiet (d d' : Desk) : Prop where
  setup : d'.setup = d.setup
  slot : d'.slot = d.slot
  replies : d'.replies = d.replies
  calls : d'.calls = d.calls
  labelled : d.Labelled → d'.Labelled
  jobs : ∃ l, d'.jobs = d.jobs ++ l ∧ ∀ j ∈ l, j.isPlain = true

namespace Quiet

variable {d d' d'' : Desk}

theorem refl (d : Desk) : Quiet d d := ⟨rfl, rfl, rfl, rfl, id, [], by simp⟩

theorem trans (h : Quiet d d') (h' : Quiet d' d'') : Quiet d d'' where
  setup := h'.setup.trans h.setup
  slot := h'.slot.trans h.slot
  replies := h'.replies.trans h.replies
  calls := h'.calls.trans h.calls
  labelled := h'.labelled ∘ h.labelled
  jobs := by
    obtain ⟨l, hl, hp⟩ := h.jobs
    obtain ⟨l', hl', hp'⟩ := h'.jobs
    refine ⟨l ++ l', by rw [hl', hl, List.append_assoc], fun j hj => ?_⟩
    exact (List.mem_append.1 hj).elim (hp j) (hp' j)

/-- Everything that requests depend on is literally the same. -/
theorem of_eq (setup : d'.setup = d.setup) (slot : d'.slot = d.slot)
    (replies : d'.replies = d.replies) (calls : d'.calls = d.calls)
    (handles : d'.handles = d.handles) (jobs : d'.jobs = d.jobs) : Quiet d d' :=
  ⟨setup, slot, replies, calls, fun h => by rwa [Labelled, handles], [], by simp [jobs]⟩

end Quiet

/-- A slot that stays as it is rouses nobody who was not roused before. -/
theorem quiet_withSlot_self (d : Desk) : Quiet d (d.withSlot d.slot) :=
  .of_eq rfl rfl rfl rfl rfl rfl

theorem quiet_names (d : Desk) (n : Names) : Quiet d { d with names := n } :=
  .of_eq rfl rfl rfl rfl rfl rfl

theorem quiet_pending (d : Desk) (under : String) (i : Nat) : Quiet d (d.pending under i).1 :=
  quiet_names d _

theorem quiet_keepDraft (d : Desk) (name : String) (draft : Draft) :
    Quiet d (d.keepDraft name draft).1 := quiet_names d _

/-- Reports of the board do not count where something else is looked for in the journal. -/
theorem filterMap_withBoard {α : Type} {f : Effect → Option α} (h : ∀ e, f (.event e) = none)
    (d : Desk) (b : Board) : (d.withBoard b).journal.filterMap f = d.journal.filterMap f := by
  have hb : (b.outbox.map Effect.event).reverse.filterMap f = [] :=
    List.filterMap_eq_nil_iff.2 fun e he => by
      obtain ⟨e, _, rfl⟩ := List.mem_map.1 (List.mem_reverse.1 he)
      exact h e
  rw [withBoard, List.filterMap_append, hb, List.nil_append]

theorem quiet_withBoard (d : Desk) (b : Board) : Quiet d (d.withBoard b) :=
  .of_eq rfl rfl rfl (filterMap_withBoard (fun _ => rfl) d b) rfl rfl

theorem quiet_note (d : Desk) (i : Nat) (n : Note) : Quiet d (d.note i n) := quiet_withBoard d _

theorem quiet_gate (d : Desk) (g : Gate) : Quiet d { d with gate := g } :=
  .of_eq rfl rfl rfl rfl rfl rfl

theorem quiet_conversation (d : Desk) (c : Conversation) : Quiet d { d with conversation := c } :=
  .of_eq rfl rfl rfl rfl rfl rfl

theorem quiet_write (d : Desk) {e : Effect} (h : e.call? = none) : Quiet d (d.write e) :=
  .of_eq rfl rfl rfl (by simp [calls, write, h]) rfl rfl

theorem quiet_withGate (d : Desk) (g : Gate) (state : PhaseState) (source : String)
    (a : Admission) : Quiet d (d.withGate g state source a) := by
  cases a with
  | allowed _ => exact quiet_gate d g
  | rejected reason message =>
    rw [withGate]
    split
    · exact (quiet_gate d g).trans (quiet_withBoard _ _)
    · exact quiet_gate d g

theorem quiet_spawn (d : Desk) {j : Job} (h : j.isPlain = true) : Quiet d (d.spawn j) :=
  ⟨rfl, rfl, rfl, rfl, id, [j], rfl, by simpa using h⟩

theorem quiet_settled (d : Desk) (p : Product) : Quiet d (d.settled p).1 where
  setup := rfl
  slot := rfl
  replies := rfl
  calls := rfl
  labelled h x hx := by
    rcases List.mem_append.1 hx with hx | hx
    · exact h x hx
    · obtain rfl := List.mem_singleton.1 hx
      simp
  jobs := ⟨[], by simp [settled]⟩

theorem quiet_resolve (d : Desk) (i : Nat) (report : Except Defeat Product) :
    Quiet d (d.resolve i report) := by
  rw [resolve]
  split
  · exact .refl d
  · refine ⟨rfl, rfl, rfl, rfl, fun h x hx => ?_, [], by simp [rouse]⟩
    rcases List.mem_or_eq_of_mem_set hx with hx | rfl
    · exact h x hx
    · by_cases hi : i < d.handles.length
      · exact h (d.handle i) (by simp [handle, List.getElem?_eq_getElem hi])
      · simp [handle, List.getElem?_eq_none (Nat.le_of_not_lt hi), default]

theorem quiet_tryBegin (d : Desk) (state : PhaseState) (source : String) :
    Quiet d (d.tryBegin state source).1 := quiet_withGate d _ _ _ _

theorem quiet_tryBeginCurrent (d : Desk) (source : String) (reading : Except Failure PhaseState) :
    Quiet d (d.tryBeginCurrent source reading).1 := quiet_withGate d _ _ _ _

theorem quiet_exportCounts (d : Desk) : Quiet d d.exportCounts.1 := by
  simp only [exportCounts]
  split
  · exact (quiet_gate d _).trans (quiet_write _ rfl)
  · exact quiet_gate d _

theorem quiet_conclude (d : Desk) (destination : Destination) (r : Response) :
    Quiet d (d.conclude destination r).1 := by
  rw [conclude]
  split
  · exact quiet_conversation d _
  · exact .refl d

theorem quiet_prepare (d : Desk) (draft : Draft) (prompt : String) (parts : List Part) :
    Quiet d (d.prepare draft prompt parts).1 := by
  rw [prepare]
  split
  · exact quiet_conversation d _
  · exact .refl d

theorem quiet_cancelledBeforeStart (d : Desk) (id : String) :
    Quiet d (d.cancelledBeforeStart id).1 := (quiet_withBoard d _).trans (quiet_note _ _ _)

theorem quiet_keepAttempt (d : Desk) (under : String) (b : Board × Nat) :
    Quiet d (d.keepAttempt under b).1 := (quiet_withBoard d _).trans (quiet_names _ _)

end Desk

/-- Commands that concern no request. -/
def Command.isQuiet : Command → Bool
  | .slot c =>
    match c with
    | .read | .view | .inFlight _ | .keepToken _ | .keepTokenFor _ _ | .tokenState _ | .watch _
    | .checkWatch _ => true
    | _ => false
  | .gate c =>
    match c with
    | .claim _ => false
    | _ => true
  | .board _ | .attempt _ _ | .conversation _ => true
  | .work c =>
    match c with
    | .cancelCurrent _ | .cancel _ => false
    | _ => true
  | .draft c =>
    match c with
    | .send _ _ => false
    | _ => true

namespace Desk

theorem quiet_obeySlot (d : Desk) {c : SlotCommand} (h : (Command.slot c).isQuiet = true) :
    Quiet d (d.obeySlot c).1 := by
  cases c with
  | read =>
    rw [obeySlot]
    split <;> exact .refl d
  | view | inFlight cutOff => exact .refl d
  | keepToken under | watch under => exact quiet_names d _
  | keepTokenFor id under =>
    rw [obeySlot]
    split
    · exact .refl d
    · cases under with
      | none => exact .refl d
      | some under => exact quiet_names d _
  | tokenState name =>
    rw [obeySlot]
    split <;> exact .refl d
  | checkWatch name =>
    rw [obeySlot]
    split
    · exact quiet_names d _
    · exact .refl d
  | _ => cases h

theorem quiet_obeyGate (d : Desk) {c : GateCommand} (h : (Command.gate c).isQuiet = true) :
    Quiet d (d.obeyGate c).1 := by
  cases c with
  | claim source => cases h
  | tryBegin state source => exact quiet_tryBegin d state source
  | tryBeginCurrent source cutOff => exact quiet_tryBeginCurrent d source _
  | statistics | lastDrop => exact .refl d
  | takeCounts | takeLastDrop => exact quiet_gate d _
  | observe on | stopExports => exact .of_eq rfl rfl rfl rfl rfl rfl
  | exportCounts => exact quiet_exportCounts d
  | startExports interval => exact quiet_spawn d rfl

theorem quiet_obeyBoard (d : Desk) (c : BoardCommand) : Quiet d (d.obeyBoard c).1 := by
  cases c with
  | begin id under | beginOwned id under => exact quiet_keepAttempt d under _
  | add id under reports ownDisplay retired =>
    rw [obeyBoard]
    split <;> exact quiet_keepAttempt d under _
  | view | current => exact .refl d
  | publish s | report on | drop state reason source message => exact quiet_withBoard d _
  | watch under | follow under => exact quiet_names d _
  | checkWatch name =>
    simp only [obeyBoard]
    split
    · exact quiet_names d _
    · exact .refl d
  | nextText name =>
    rw [obeyBoard]
    split
    · split
      · exact .refl d
      · exact quiet_names d _
    · exact .refl d

theorem quiet_obeyAttempt (d : Desk) (i : Nat) (c : AttemptCommand) :
    Quiet d (d.obeyAttempt i c).1 := by
  cases c with
  | note n | cancelRequested state source | setAxes requested catalog => exact quiet_withBoard d _
  | snapshot | transcript | events | kinds | text => exact .refl d

theorem quiet_obeyConversation (d : Desk) (c : ConversationCommand) :
    Quiet d (d.obeyConversation c).1 := by
  cases c with
  | queue m | push m | clear => exact quiet_conversation d _
  | view => exact .refl d

theorem quiet_withHandle (d : Desk) (name : String) {f : Nat → Desk × Answer}
    (h : ∀ i, Quiet d (f i).1) : Quiet d (d.withHandle name f).1 := by
  rw [withHandle]
  split
  · exact h _
  · exact .refl d

theorem quiet_obeyWork (d : Desk) {c : WorkCommand} (h : (Command.work c).isQuiet = true) :
    Quiet d (d.obeyWork c).1 := by
  cases c with
  | cancelCurrent source | cancel name => cases h
  | ready value under => exact (quiet_settled d _).trans (quiet_pending _ _ _)
  | view name => exact quiet_withHandle d name fun _ => .refl d
  | present name quiet => exact quiet_withHandle d name fun _ => quiet_spawn d rfl
  | release name => exact .of_eq rfl rfl rfl rfl rfl rfl

theorem quiet_withDraft (d : Desk) (name : String) {f : Draft → Desk × Answer}
    (h : ∀ draft, Quiet d (f draft).1) : Quiet d (d.withDraft name f).1 := by
  rw [withDraft]
  split
  · exact h _
  · exact .refl d

theorem quiet_obeyDraft (d : Desk) {c : DraftCommand} (h : (Command.draft c).isQuiet = true) :
    Quiet d (d.obeyDraft c).1 := by
  cases c with
  | new under id destination axes => exact quiet_keepDraft d _ _
  | begin name reuse | add name messages =>
    exact quiet_withDraft d name fun _ => quiet_keepDraft d _ _
  | reply name m =>
    refine quiet_withDraft d name fun _ => ?_
    dsimp only
    split
    · exact quiet_conversation d _
    · exact .refl d
  | messages name => exact quiet_withDraft d name fun _ => .refl d
  | send name under => cases h

theorem quiet_obey (d : Desk) {c : Command} (h : c.isQuiet = true) : Quiet d (d.obey c).1 := by
  cases c with
  | slot c => exact quiet_obeySlot d h
  | gate c => exact quiet_obeyGate d h
  | board c => exact quiet_obeyBoard d c
  | attempt name c =>
    rw [obey]
    split
    · exact quiet_obeyAttempt d _ c
    · exact .refl d
  | conversation c => exact quiet_obeyConversation d c
  | work c => exact quiet_obeyWork d h
  | draft c => exact quiet_obeyDraft d h

end Desk

end PromptDesk
