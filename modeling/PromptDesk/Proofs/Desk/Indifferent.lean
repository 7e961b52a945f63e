import PromptDesk.Proofs.Desk.Alike

/-! Steps are indifferent to how responses arrive. Every command, every submission and everything that
callbacks do leads from desks that are alike to desks that are alike. -/
namespace PromptDesk

namespace Desk.Alike

variable {rs : List Reply} {d e : Desk}

/-- What comes to the same at desks that are alike. -/
inductive With (rs : List Reply) {α : Type} : Desk × α → Desk × α → Prop
  | mk {d e : Desk} (h : Alike rs d e) (a : α) : With rs (d, a) (e, a)

theorem With.of {α : Type} {x y : Desk × α} (h : Alike rs x.1 y.1 ∧ y.2 = x.2) : With rs x y := by
  obtain ⟨d, a⟩ := x
  obtain ⟨e, b⟩ := y
  obtain ⟨hd, hb⟩ : Alike rs d e ∧ b = a := h
  subst hb
  exact .mk hd b

theorem withNames (h : Alike rs d e) {n m : Names} (hn : n.Alike m) :
    Alike rs { d with names := n } { e with names := m } := { h with names := hn }

theorem keepHandle (h : Alike rs d e) (under : String) (i : Nat) :
    Alike rs (d.keepHandle under i) (e.keepHandle under i) :=
  h.withNames { h.names with handles := congrArg (Keyed.insert · under i) h.names.handles }

theorem pending (h : Alike rs d e) (under : String) (i : Nat) :
    Alike rs (d.pending under i).1 (e.pending under i).1 := h.keepHandle under i

theorem keepDraft (h : Alike rs d e) (name : String) (draft : Draft) :
    Alike rs (d.keepDraft name draft).1 (e.keepDraft name draft).1 :=
  h.withNames { h.names with drafts := congrArg (Keyed.insert · name draft) h.names.drafts }

theorem owned (h : Alike rs d e) {s? t? : Option Slot} (hs : Option.Rel Slot.Alike s? t?)
    (yes : PhaseState → Answer) (no : Answer) :
    Alike rs (d.owned s? yes no).1 (e.owned t? yes no).1 := by
  cases hs with
  | none => exact h
  | some hs => exact h.withSlot hs

theorem obeySlot (h : Alike rs d e) (c : SlotCommand) : Alike rs (d.obeySlot c).1 (e.obeySlot c).1 := by
  cases c with
  | issue => exact h.withSlot h.slot.issue.1
  | beginSend id => exact h.withSlot (h.slot.beginSend id).1
  | beginStream id => exact h.withSlot (h.slot.beginStream id).1
  | beginStreamFor id | completeFor id | failFor id error => exact h.owned (h.slot.applyFor? ..) _ _
  | cancelFor id => exact h.owned (h.slot.cancelFor? id) _ _
  | apply event => exact h.withSlot (h.slot.apply event)
  | cancel => exact h.withSlot h.slot.cancel
  | retry id => exact h.withSlot (h.slot.arm.apply (.retry id))
  | close => exact h.withSlot { h.slot with closed := rfl }
  | read =>
    rw [Desk.obeySlot, Desk.obeySlot, h.slot.read]
    split <;> exact h
  | view | inFlight => exact h
  | keepToken under =>
    refine h.withNames { h.names with tokens := ?_ }
    dsimp only
    rw [h.names.tokens, h.slot.armed]
  | keepTokenFor id under =>
    rw [Desk.obeySlot, Desk.obeySlot, h.slot.tokenFor?]
    split
    · exact h
    · cases under with
      | none => exact h
      | some under => exact h.withNames { h.names with tokens := congrArg (Keyed.insert · under _) h.names.tokens }
  | tokenState name =>
    rw [Desk.obeySlot, Desk.obeySlot, h.names.tokens]
    split <;> exact h
  | trip name =>
    rw [Desk.obeySlot, Desk.obeySlot, h.names.tokens]
    split
    · exact h.withSlot (h.slot.trip _)
    · exact h
  | watch under => exact h.withNames { h.names with }
  | checkWatch name =>
    -- one of them may have lost the watch, but nothing hangs on it
    rw [Desk.obeySlot, Desk.obeySlot]
    split <;> split <;> exact { h with names := { h.names with } }

theorem obeyGate (h : Alike rs d e) (c : GateCommand) : Alike rs (d.obeyGate c).1 (e.obeyGate c).1 := by
  cases c with
  | tryBegin state source =>
    simp only [Desk.obeyGate, Desk.tryBegin, h.gate]
    exact h.withGate _ _ _ _
  | tryBeginCurrent source cutOff =>
    simp only [Desk.obeyGate, Desk.tryBeginCurrent, h.gate, h.slot.state, h.slot.read]
    exact h.withGate _ _ _ _
  | claim source => exact (h.claim source).1
  | statistics | lastDrop => exact h
  | takeCounts => exact { h with gate := congrArg (fun g => g.takeCounts.1) h.gate }
  | takeLastDrop => exact { h with gate := congrArg (fun g => g.takeLastDrop.1) h.gate }
  | observe on => exact { h with observed := rfl }
  | exportCounts => exact h.exportCounts
  | startExports interval =>
    have secs : e.setup.settings.telemetryIntervalSecs = d.setup.settings.telemetryIntervalSecs := by
      rw [h.setup]
      rfl
    simp only [Desk.obeyGate, secs]
    exact h.spawn _
  | stopExports => exact { h with stopped := rfl }

theorem keepAttempt (h : Alike rs d e) (under : String) {b c : Board × Nat}
    (hb : b.1.Alike c.1 ∧ c.2 = b.2) :
    Alike rs (d.keepAttempt under b).1 (e.keepAttempt under c).1 := by
  have hi := congrArg (Keyed.insert · under b.2) h.names.attempts
  refine (h.withBoard hb.1).withNames { h.names with attempts := ?_ }
  rw [hb.2]
  exact hi

theorem obeyBoard (h : Alike rs d e) (c : BoardCommand) : Alike rs (d.obeyBoard c).1 (e.obeyBoard c).1 := by
  cases c with
  | begin id under => exact h.keepAttempt under (h.board.begin id)
  | beginOwned id under =>
    rw [Desk.obeyBoard, Desk.obeyBoard, h.slot.state]
    exact h.keepAttempt under (h.board.beginOwned id _)
  | add id under reports ownDisplay retired =>
    have hb : Board.Alike { d.board with displays := d.board.displays ++ [{}] }
      { e.board with displays := e.board.displays ++ [{}] } := h.board.addDisplay
    simp only [Desk.obeyBoard, h.board.lengthDisplays]
    split
    · exact h.keepAttempt under (hb.add ..)
    · exact h.keepAttempt under (h.board.add ..)
  | view | current => exact h
  | publish s => exact h.withBoard (h.board.publishTo 0 s)
  | report on => exact h.withBoard { h.board with reporting := rfl }
  | drop state reason source message => exact h.withBoard (h.board.gatingDrop ..)
  | watch under | follow under => exact h.withNames { h.names with }
  | checkWatch name =>
    rw [Desk.obeyBoard, Desk.obeyBoard]
    split <;> split <;> exact { h with names := { h.names with } }
  | nextText name =>
    have hnext : ∀ d : Desk, ∃ followers, (d.obeyBoard (.nextText name)).1 =
        { d with names := { d.names with followers := followers } } := fun d => by
      rw [Desk.obeyBoard]
      split
      · split
        · exact ⟨d.names.followers, rfl⟩
        · exact ⟨_, rfl⟩
      · exact ⟨d.names.followers, rfl⟩
    obtain ⟨_, hd⟩ := hnext d
    obtain ⟨_, he⟩ := hnext e
    rw [hd, he]
    exact { h with names := { h.names with } }

theorem obeyAttempt (h : Alike rs d e) (i : Nat) (c : AttemptCommand) :
    Alike rs (d.obeyAttempt i c).1 (e.obeyAttempt i c).1 := by
  cases c with
  | note n => exact h.withBoard (h.board.record i n _ _)
  | cancelRequested state source => exact h.withBoard (h.board.cancelRequested ..)
  | setAxes requested catalog => exact h.withBoard (h.board.setAxes ..)
  | snapshot | transcript | events | kinds | text => exact h

theorem obeyConversation (h : Alike rs d e) (c : ConversationCommand) :
    Alike rs (d.obeyConversation c).1 (e.obeyConversation c).1 := by
  cases c with
  | queue m => exact { h with conversation := congrArg (Conversation.queue · m) h.conversation }
  | push m => exact { h with conversation := congrArg (Conversation.push · m) h.conversation }
  | clear => exact { h with conversation := congrArg Conversation.clear h.conversation }
  | view => exact h

theorem withHandle (h : Alike rs d e) (name : String) {f g : Nat → Desk × Answer}
    (hf : ∀ i, Alike rs (f i).1 (g i).1) : Alike rs (d.withHandle name f).1 (e.withHandle name g).1 := by
  rw [Desk.withHandle, Desk.withHandle, h.names.handles]
  split
  · exact hf _
  · exact h

theorem obeyWork (h : Alike rs d e) (c : WorkCommand) : Alike rs (d.obeyWork c).1 (e.obeyWork c).1 := by
  cases c with
  | cancelCurrent source => exact h.cancelCurrent source
  | ready value under =>
    obtain ⟨hs, hi⟩ := h.settled (.text value)
    simp only [Desk.obeyWork, hi]
    exact hs.pending under _
  | view name => exact h.withHandle name fun _ => h
  | cancel name => exact h.withHandle name fun i => h.cancelHandle i
  | present name quiet => exact h.withHandle name fun _ => h.spawn _
  | release name => exact { h with released := congrArg (name :: ·) h.released }

theorem sendDraft (h : Alike rs d e) (draft : Draft) (sequel : Sequel) :
    Alike rs (d.sendDraft draft sequel).1 (e.sendDraft draft sequel).1 ∧
      (e.sendDraft draft sequel).2 = (d.sendDraft draft sequel).2 := by
  have he := With.of (h.enter draft)
  rw [Desk.sendDraft, Desk.sendDraft]
  generalize d.enter draft = x at he ⊢
  generalize e.enter draft = y at he ⊢
  cases he with
  | mk he out =>
    obtain ⟨draft, id | id⟩ := out
    · obtain ⟨hc, hr⟩ := he.cancelledBeforeStart id
      dsimp only
      rw [hr]
      cases sequel with
      | respond => exact hc.settled _
      | conclude | delegate => exact (hc.conclude _ _).settled _
    · exact he.dispatch _ _ _

theorem withDraft (h : Alike rs d e) (name : String) {f g : Draft → Desk × Answer}
    (hf : ∀ draft, Alike rs (f draft).1 (g draft).1) :
    Alike rs (d.withDraft name f).1 (e.withDraft name g).1 := by
  rw [Desk.withDraft, Desk.withDraft, h.names.drafts]
  split
  · exact hf _
  · exact h

theorem obeyDraft (h : Alike rs d e) (c : DraftCommand) : Alike rs (d.obeyDraft c).1 (e.obeyDraft c).1 := by
  cases c with
  | new under id destination axes => exact h.keepDraft under _
  | begin name reuse | add name messages => exact h.withDraft name fun _ => h.keepDraft name _
  | reply name m =>
    refine h.withDraft name fun draft => ?_
    dsimp only
    rw [h.threadEnabled]
    split
    · exact { h with conversation := congrArg (Conversation.pushReply · m) h.conversation }
    · exact h
  | messages name => exact h.withDraft name fun _ => h
  | send name under =>
    refine h.withDraft name fun draft => ?_
    have hk : Alike rs (d.keep fun n => { n with drafts := n.drafts.erase name })
        (e.keep fun n => { n with drafts := n.drafts.erase name }) :=
      h.withNames { h.names with drafts := congrArg (Keyed.erase · name) h.names.drafts }
    obtain ⟨hs, hi⟩ := hk.sendDraft draft .respond
    dsimp only
    rw [hi]
    exact hs.pending under _

theorem obey (h : Alike rs d e) (c : Command) : Alike rs (d.obey c).1 (e.obey c).1 := by
  cases c with
  | slot c => exact h.obeySlot c
  | gate c => exact h.obeyGate c
  | board c => exact h.obeyBoard c
  | attempt name c =>
    rw [Desk.obey, Desk.obey, h.attempt?]
    split
    · exact h.obeyAttempt _ c
    · exact h
  | conversation c => exact h.obeyConversation c
  | work c => exact h.obeyWork c
  | draft c => exact h.obeyDraft c

theorem prepareNamed (h : Alike rs d e) (name prompt : String) (parts : Except Mishap (List Part)) :
    Alike rs (d.prepareNamed name prompt parts).1 (e.prepareNamed name prompt parts).1 := by
  rw [Desk.prepareNamed, Desk.prepareNamed, h.names.drafts]
  split
  · exact h
  · dsimp only
    split
    · exact h.keepDraft name _
    · obtain ⟨hp, hdraft⟩ := h.prepare _ prompt _
      rw [hdraft]
      exact hp.keepDraft name _

theorem runInBackground (h : Alike rs d e) (r : Request) (parts : Except Mishap (List Part)) :
    Alike rs (d.runInBackground r parts).1 (e.runInBackground r parts).1 ∧
      (e.runInBackground r parts).2 = (d.runInBackground r parts).2 := by
  cases parts with
  | error f => exact ⟨h, rfl⟩
  | ok parts =>
    obtain ⟨hp, hdraft⟩ := h.prepare (d.draftFor r) r.prompt parts
    rw [Desk.runInBackground, Desk.runInBackground, h.draftFor]
    dsimp only
    rw [hdraft]
    obtain ⟨hs, hi⟩ := hp.sendDraft (d.prepare (d.draftFor r) r.prompt parts).2 .conclude
    exact ⟨hs, congrArg Except.ok hi⟩

theorem beginLogEntry (h : Alike rs d e) (i : Nat) :
    Alike rs (d.beginLogEntry i).1 (e.beginLogEntry i).1 ∧
      (e.beginLogEntry i).2 = (d.beginLogEntry i).2 := by
  have hentry := (h.board.attempt i).historyEntry
  simp only [Desk.beginLogEntry, hentry]
  exact ⟨(h.note i _).write rfl, trivial⟩

theorem endLogEntry (h : Alike rs d e) (i : Nat) (entry : HistoryEntry)
    (result : Except Failure (Option String)) :
    Alike rs (d.endLogEntry i entry result).1 (e.endLogEntry i entry result).1 := by
  cases result <;> exact h.note i _

end Desk.Alike

open Desk (Alike)

variable {rs : List Reply}

/-- What sources gave is handed over to the background. -/
theorem Desk.Alike.runGathered {ss : List Source} {d e : Desk}
    (h : (gather ss d).1.Alike rs (gather ss e).1 ∧ (gather ss e).2 = (gather ss d).2) (r : Request) :
    Alike.With rs ((gather ss d).1.runInBackground r (gather ss d).2)
      ((gather ss e).1.runInBackground r (gather ss e).2) := by
  obtain ⟨hg, hparts⟩ := h
  rw [hparts]
  exact .of (hg.runInBackground r _)

mutual

/-- A step leads from desks that are alike to desks that are alike, with all that callbacks do in it. -/
theorem Step.alike_perform :
    ∀ (s : Step) {d e : Desk}, d.Alike rs e → (s.perform d).1.Alike rs (s.perform e).1
  | .command c, _, _, h => h.obey c
  | .submit (.mk prompt sources destination id' axes) source under, d, e, h => by
    have hc := Alike.With.of (h.claim source)
    rw [Step.perform, Step.perform]
    generalize d.claim source = x at hc ⊢
    generalize e.claim source = y at hc ⊢
    cases hc with
    | mk hc a =>
      cases a with
      | rejected reason message => exact hc
      | allowed id =>
        let r : Request := .mk prompt sources destination id axes
        dsimp only
        rw [hc.delegates]
        split
        · obtain ⟨hd, hi⟩ := hc.dispatch id (.request r (.delegate r true)) id
          rw [hi]
          exact hd.pending under _
        · have hr := Alike.runGathered (alike_gather sources hc) r
          generalize Desk.runInBackground _ r _ = x at hr ⊢
          generalize Desk.runInBackground _ r _ = y at hr ⊢
          cases hr with
          | mk hr result =>
            cases result with
            | ok i => exact hr.pending under i
            | error m => exact hr.turnBack id m
  | .run (.mk prompt sources destination id axes) under, d, e, h => by
    let r : Request := .mk prompt sources destination id axes
    have hr := Alike.runGathered (alike_gather sources h) r
    rw [Step.perform, Step.perform]
    dsimp only
    generalize Desk.runInBackground _ r _ = x at hr ⊢
    generalize Desk.runInBackground _ r _ = y at hr ⊢
    cases hr with
    | mk hr result =>
      cases result with
      | ok i => exact hr.pending under i
      | error f => exact hr
  | .dispatch items id under, d, e, h => by
    obtain ⟨hd, hi⟩ := h.dispatch id (.collect none { rest := items }) none
    rw [Step.perform, Step.perform]
    dsimp only
    rw [hi]
    exact hd.pending under _
  | .prepare name prompt sources, d, e, h => by
    obtain ⟨hg, hparts⟩ := alike_gather sources h
    rw [Step.perform, Step.perform]
    dsimp only
    rw [hparts]
    exact hg.prepareNamed name prompt _
  | .logEntry attempt (.mk calls result), d, e, h => by
    rw [Step.perform, Step.perform, h.attempt?]
    split
    · exact h
    · rename_i i _
      obtain ⟨hb, hentry⟩ := h.beginLogEntry i
      dsimp only
      rw [hentry]
      exact (alike_performAll calls hb).endLogEntry i _ result
  | .logEntry attempt (.panic calls payload), d, e, h => by
    rw [Step.perform, Step.perform, h.attempt?]
    split
    · exact h
    · rename_i i _
      exact alike_performAll calls (h.beginLogEntry i).1

theorem alike_performAll :
    ∀ (cs : List Call) {d e : Desk}, d.Alike rs e → (performAll cs d).Alike rs (performAll cs e)
  | [], _, _, h => h
  | .mk label step :: cs, d, e, h => by
    rw [performAll, performAll]
    exact alike_performAll cs ((step.alike_perform h).write rfl)

theorem alike_gather : ∀ (ss : List Source) {d e : Desk}, d.Alike rs e →
    (gather ss d).1.Alike rs (gather ss e).1 ∧ (gather ss e).2 = (gather ss d).2
  | [], _, _, h => ⟨h, rfl⟩
  | .mk (.panic calls payload) later :: ss, d, e, h => ⟨alike_performAll calls h, rfl⟩
  | .mk (.mk calls content) later :: ss, d, e, h => by
    have hc := alike_performAll calls h
    rw [gather_cons, gather_cons]
    cases content with
    | error f => exact ⟨hc, rfl⟩
    | ok parts =>
      obtain ⟨hg, hparts⟩ := alike_gather ss hc
      exact ⟨hg, congrArg (Except.map (parts ++ ·)) hparts⟩

end

end PromptDesk
