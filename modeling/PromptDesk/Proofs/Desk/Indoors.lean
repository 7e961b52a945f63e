import PromptDesk.Proofs.Desk.Work

/-! What stays indoors. Only the first turn of an execution calls the transport, and it calls it once.
No other turn does, and no step, whichever callbacks make it and whatever it puts into the
background. -/
namespace PromptDesk

namespace Desk

/-- The transport was not called, and its script is the same. -/
structure Indoors (d d' : Desk) : Prop where
  setup : d'.setup = d.setup
  replies : d'.replies = d.replies
  calls : d'.calls = d.calls

variable {d d' d'' : Desk}

namespace Indoors

theorem refl (d : Desk) : Indoors d d := ⟨rfl, rfl, rfl⟩

theorem trans (h : Indoors d d') (h' : Indoors d' d'') : Indoors d d'' :=
  ⟨h'.setup.trans h.setup, h'.replies.trans h.replies, h'.calls.trans h.calls⟩

theorem of_quiet (h : Quiet d d') : Indoors d d' := ⟨h.setup, h.replies, h.calls⟩

theorem withSlot (d : Desk) (s : Slot) : Indoors d (d.withSlot s) := ⟨rfl, rfl, rfl⟩

theorem dispatch (d : Desk) (id : Option String) (t : Task) (owner : Option String) :
    Indoors d (d.dispatch id t owner).1 := ⟨rfl, rfl, rfl⟩

end Indoors

theorem indoors_claim (d : Desk) (source : String) : Indoors d (d.claim source).1 :=
  (Indoors.withSlot d _).trans (.of_quiet (quiet_withGate _ _ _ _ _))

theorem indoors_cancelCurrent (d : Desk) (source : String) :
    Indoors d (d.cancelCurrent source).1 := by
  simp only [cancelCurrent]
  split
  · exact .refl d
  · split
    · exact .refl d
    · rename_i s _
      split
      · split
        · exact (Indoors.withSlot d s).trans (.of_quiet (quiet_withBoard _ _))
        · exact .withSlot d s
      · exact .withSlot d s

theorem indoors_failOwned (d : Desk) (id : String) (f : Failure) : Indoors d (d.failOwned id f) := by
  rw [failOwned]
  split
  · exact .withSlot d _
  · exact .refl d

theorem indoors_giveBack (d : Desk) (id : Option String) (f : Failure) :
    Indoors d (d.giveBack id f) := by
  cases id with
  | some id => exact indoors_failOwned d id f
  | none => exact .withSlot d _

theorem indoors_turnBack (d : Desk) (id : Option String) (m : Mishap) :
    Indoors d (d.turnBack id m) := by
  cases m with
  | failure f => exact indoors_giveBack d id f
  | panic payload => exact .refl d

theorem indoors_cancelHandle (d : Desk) (i : Nat) : Indoors d (d.cancelHandle i).1 := by
  simp only [cancelHandle]
  split
  · exact .refl d
  · split
    · exact .withSlot d _
    · split
      · exact .withSlot d _
      · exact .refl d

theorem indoors_enter (d : Desk) (draft : Draft) : Indoors d (d.enter draft).1 := by
  rw [enter]
  dsimp only
  split <;> exact .withSlot d _

theorem indoors_sendDraft (d : Desk) (draft : Draft) (sequel : Sequel) :
    Indoors d (d.sendDraft draft sequel).1 := by
  have h := indoors_enter d draft
  rw [sendDraft]
  split
  · rename_i he
    rw [he] at h
    exact h.trans (.dispatch _ _ _ _)
  · rename_i d₁ draft' id he
    rw [he] at h
    have hc := h.trans (.of_quiet (quiet_cancelledBeforeStart d₁ id))
    dsimp only
    split
    · exact hc.trans (.of_quiet (quiet_settled _ _))
    all_goals
      exact hc.trans (.of_quiet ((quiet_conclude _ draft'.destination _).trans (quiet_settled _ _)))

theorem indoors_owned (d : Desk) (s? : Option Slot) (yes : PhaseState → Answer) (no : Answer) :
    Indoors d (d.owned s? yes no).1 := by
  cases s? with
  | none => exact .refl d
  | some s => exact .withSlot d s

theorem indoors_obeySlot (d : Desk) (c : SlotCommand) : Indoors d (d.obeySlot c).1 := by
  by_cases hq : (Command.slot c).isQuiet = true
  · exact .of_quiet (quiet_obeySlot d hq)
  cases c with
  | issue | beginSend id | beginStream id | apply e | cancel | retry id | close =>
    exact .withSlot d _
  | beginStreamFor id | completeFor id | failFor id error | cancelFor id =>
    exact indoors_owned d _ _ _
  | trip name =>
    rw [obeySlot]
    split
    · exact .withSlot d _
    · exact .refl d
  | _ => exact absurd rfl hq

theorem indoors_withHandle (d : Desk) (name : String) {f : Nat → Desk × Answer}
    (h : ∀ i, Indoors d (f i).1) : Indoors d (d.withHandle name f).1 := by
  rw [withHandle]
  split
  · exact h _
  · exact .refl d

theorem indoors_withDraft (d : Desk) (name : String) {f : Draft → Desk × Answer}
    (h : ∀ draft, Indoors d (f draft).1) : Indoors d (d.withDraft name f).1 := by
  rw [withDraft]
  split
  · exact h _
  · exact .refl d

/-- No command calls the transport. -/
theorem indoors_obey (d : Desk) (c : Command) : Indoors d (d.obey c).1 := by
  by_cases hq : c.isQuiet = true
  · exact .of_quiet (quiet_obey d hq)
  cases c with
  | slot c => exact indoors_obeySlot d c
  | gate c =>
    cases c with
    | claim source => exact indoors_claim d source
    | _ => exact absurd rfl hq
  | work c =>
    cases c with
    | cancelCurrent source => exact indoors_cancelCurrent d source
    | cancel name => exact indoors_withHandle d name fun i => indoors_cancelHandle d i
    | _ => exact absurd rfl hq
  | draft c =>
    cases c with
    | send name under =>
      refine indoors_withDraft d name fun draft => ?_
      have hs := indoors_sendDraft (d.keep fun n => { n with drafts := n.drafts.erase name }) draft
        .respond
      exact ((Indoors.of_quiet (quiet_names d _)).trans hs).trans (.of_quiet (quiet_pending _ _ _))
    | _ => exact absurd rfl hq
  | board c | attempt name c | conversation c => exact absurd rfl hq

theorem indoors_runInBackground (d : Desk) (r : Request) (parts : Except Mishap (List Part)) :
    Indoors d (d.runInBackground r parts).1 := by
  cases parts with
  | error f => exact .refl d
  | ok parts =>
    have hp := Indoors.of_quiet (quiet_prepare d (d.draftFor r) r.prompt parts)
    exact hp.trans (indoors_sendDraft _ _ _)

theorem indoors_prepareNamed (d : Desk) (name prompt : String)
    (parts : Except Mishap (List Part)) : Indoors d (d.prepareNamed name prompt parts).1 := by
  rw [prepareNamed]
  split
  · exact .refl d
  · rename_i draft _
    dsimp only
    split
    · exact .of_quiet (quiet_keepDraft d _ _)
    · exact .of_quiet ((quiet_prepare d (draft.begin false) prompt _).trans (quiet_keepDraft _ _ _))

theorem indoors_beginLogEntry (d : Desk) (i : Nat) : Indoors d (d.beginLogEntry i).1 :=
  .of_quiet ((quiet_note d i _).trans (quiet_write _ rfl))

theorem indoors_endLogEntry (d : Desk) (i : Nat) (entry : HistoryEntry)
    (result : Except Failure (Option String)) : Indoors d (d.endLogEntry i entry result).1 := by
  cases result <;> exact .of_quiet (quiet_note d i _)

end Desk

open Desk (Indoors)

mutual

/-- No step calls the transport, with all that callbacks do in it. -/
theorem Step.indoors_perform : ∀ (s : Step) (d : Desk), Indoors d (s.perform d).1
  | .command c, d => d.indoors_obey c
  | .submit (.mk prompt sources destination id' axes) source under, d => by
    have hc := d.indoors_claim source
    rw [Step.perform]
    generalize d.claim source = out at hc ⊢
    obtain ⟨d₁, id | _⟩ := out
    · dsimp only at hc ⊢
      split
      · exact (hc.trans (.dispatch d₁ _ _ _)).trans (.of_quiet (Desk.quiet_pending _ _ _))
      · have hg := hc.trans (indoors_gather sources d₁)
        generalize gather sources d₁ = g at hg ⊢
        obtain ⟨d₂, parts⟩ := g
        have hr := hg.trans
          (d₂.indoors_runInBackground (.mk prompt sources destination id axes) parts)
        dsimp only at hr ⊢
        split
        · rename_i he
          rw [he] at hr
          exact hr.trans (.of_quiet (Desk.quiet_pending _ _ _))
        · rename_i he
          rw [he] at hr
          exact hr.trans (Desk.indoors_turnBack _ _ _)
    · exact hc
  | .run (.mk prompt sources destination id axes) under, d => by
    have hg := indoors_gather sources d
    rw [Step.perform]
    generalize gather sources d = g at hg ⊢
    obtain ⟨d₂, parts⟩ := g
    have hr := hg.trans (d₂.indoors_runInBackground (.mk prompt sources destination id axes) parts)
    dsimp only at hr ⊢
    split
    · rename_i he
      rw [he] at hr
      exact hr.trans (.of_quiet (Desk.quiet_pending _ _ _))
    · rename_i he
      rwa [he] at hr
  | .dispatch items id under, d => by
    rw [Step.perform]
    exact (Indoors.dispatch d _ _ _).trans (.of_quiet (Desk.quiet_pending _ _ _))
  | .prepare name prompt sources, d => by
    rw [Step.perform]
    exact (indoors_gather sources d).trans (Desk.indoors_prepareNamed _ _ _ _)
  | .logEntry attempt (.mk calls result), d => by
    rw [Step.perform]
    split
    · exact .refl d
    · exact ((d.indoors_beginLogEntry _).trans (indoors_performAll calls _)).trans
        (Desk.indoors_endLogEntry _ _ _ _)
  | .logEntry attempt (.panic calls payload), d => by
    rw [Step.perform]
    split
    · exact .refl d
    · exact (d.indoors_beginLogEntry _).trans (indoors_performAll calls _)

theorem indoors_performAll : ∀ (cs : List Call) (d : Desk), Indoors d (performAll cs d)
  | [], d => .refl d
  | .mk label step :: cs, d => by
    rw [performAll]
    exact (step.indoors_perform d).trans
      ((Indoors.of_quiet (Desk.quiet_write _ rfl)).trans (indoors_performAll cs _))

theorem indoors_gather : ∀ (ss : List Source) (d : Desk), Indoors d (gather ss d).1
  | [], d => .refl d
  | .mk (.panic calls payload) later :: ss, d => indoors_performAll calls d
  | .mk (.mk calls content) later :: ss, d => by
    have hc := indoors_performAll calls d
    rw [gather_cons]
    cases content with
    | error f => exact hc
    | ok parts => exact hc.trans (indoors_gather ss (performAll calls d))

end

namespace Desk

variable {d : Desk} {e : Execution}

theorem indoors_recordLogEntry (d : Desk) (i : Nat) (w : Writer) :
    Indoors d (d.recordLogEntry i w).1 := by
  have h : ∀ calls, Indoors d (performAll calls (d.beginLogEntry i).1) := fun calls =>
    (indoors_beginLogEntry d i).trans (indoors_performAll calls _)
  cases w with
  | mk calls result => exact (h calls).trans (indoors_endLogEntry _ _ _ _)
  | panic calls payload => exact h calls

theorem indoors_note (d : Desk) (i : Nat) (n : Note) : Indoors d (d.note i n) :=
  .of_quiet (quiet_note d i n)

theorem indoors_collectItems (items : List Item) (text : String) (d : Desk) :
    Indoors d (collectItems items text d).1 := by
  induction items generalizing text d with
  | nil => exact .refl d
  | cons item rest ih =>
    cases item with
    | chunk s => exact ih (text ++ s) d
    | fail f | panic payload => exact .refl d
    | calls calls => exact (indoors_performAll calls d).trans (ih text _)
    | delay ms | wait name | hang =>
      simp only [collectItems]
      split
      · exact .refl d
      · exact ih text d

theorem indoors_collectWithin (d : Desk) (limit : Option Limit) (p : Playback) :
    Indoors d (d.collectWithin limit p).1 := by
  have hc : Indoors d (d.collect p).1 := by
    rw [collect]
    split
    · exact indoors_collectItems ..
    · exact .refl d
  rw [collectWithin]
  split
  · rename_i he
    rw [he] at hc
    split
    · split <;> exact hc
    · exact hc
  · exact hc

theorem indoors_halt {attempt : Nat} {token : Option Nat} {idle : Option Limit} {d' : Desk}
    {outcome : ReadOutcome} (h : d.halt? attempt token idle = some (d', outcome)) :
    Indoors d d' := by
  unfold halt? at h
  split at h
  · cases h
    exact .refl d
  · split at h
    · split at h
      · cases h
        exact indoors_note d _ _
      · cases h
    · cases h

theorem indoors_readItems (attempt : Nat) (token : Option Nat) (items : List Item)
    (idle : Option Limit) (d : Desk) : Indoors d (readItems attempt token items idle d).1 := by
  induction items generalizing idle d with
  | nil => exact indoors_note d _ _
  | cons item rest ih =>
    cases item with
    | chunk s =>
      have hn := indoors_note d attempt (.chunk s)
      rw [readItems]
      split
      · rename_i hh
        exact hn.trans (indoors_halt hh)
      · exact hn.trans (ih _ _)
    | fail f => exact indoors_note d _ _
    | panic payload => exact .refl d
    | calls calls => exact (indoors_performAll calls d).trans (ih idle _)
    | delay ms | wait name | hang =>
      simp only [readItems]
      split
      · exact .refl d
      · exact ih idle d

theorem indoors_read (d : Desk) (r : Reader) : Indoors d (d.read r).1 := by
  rw [read]
  split
  · rename_i hh
    exact indoors_halt hh
  · split
    · exact indoors_readItems ..
    · exact .refl d

theorem indoors_finish (d : Desk) (id : String) (attempt : Nat) (outcome : ReadOutcome) :
    Indoors d (d.finish id attempt outcome).1 := by
  cases outcome with
  | completed text =>
    rw [finish]
    split
    · exact indoors_note d _ _
    · rename_i s _
      have hs : Indoors d { d.withSlot s with
          conversation := { (d.withSlot s).conversation with lastResponse := Text.trim text } } :=
        (Indoors.withSlot d s).trans (.of_quiet (quiet_conversation _ _))
      dsimp only
      split
      · rename_i w _
        have hr := hs.trans (indoors_recordLogEntry _ attempt w)
        split <;> rename_i he <;> exact congrArg Prod.fst he ▸ hr
      · exact hs
  | cancelled text =>
    rw [finish]
    dsimp only
    split
    · exact (Indoors.withSlot d _).trans (indoors_note _ _ _)
    · exact indoors_note d _ _
  | failed f => exact indoors_failOwned d id f

end Desk

/-- A response to a request, which carries a text of the assistant if the request was completed. -/
structure Response.Answers (id : String) (r : Response) : Prop where
  requestId : r.requestId = id
  speaks : r.isCompleted = true → ∃ text now, r.message = .ofText .assistant text now

theorem Response.answers_cancelled (id : String) (now : Timestamp) :
    (Response.empty id .cancelled now).Answers id :=
  ⟨rfl, fun hc => absurd (of_decide_eq_true hc) nofun⟩

theorem Response.answers_failed (id error : String) (now : Timestamp) :
    (Response.empty id (.failed error) now).Answers id :=
  ⟨rfl, fun hc => absurd (of_decide_eq_true hc) nofun⟩

/-- The call that an execution makes for its draft. -/
def Execution.call (e : Execution) : TransportRequest := ⟨e.requestId, e.draft.messages⟩

/-- What waits of an execution after a turn has been sent already, and what comes of it is of the same
request. -/
def Progress.GoesOn (e : Execution) : Progress → Prop
  | .waiting e' => e'.requestId = e.requestId ∧ e'.draft = e.draft ∧ e'.stage ≠ .claimed
  | .ended r => r.Answers e.requestId
  | .panicked _ => True

/-- An execution that finishes answers its own request, or its history writer panics. -/
theorem Desk.goesOn_finish (d : Desk) (e : Execution) (attempt : Nat) (outcome : ReadOutcome) :
    (d.finish e.requestId attempt outcome).2.GoesOn e := by
  cases outcome with
  | completed text =>
    rw [finish]
    split
    · exact Response.answers_cancelled _ _
    · dsimp only
      split
      · split
        · exact ⟨rfl, fun _ => ⟨_, _, rfl⟩⟩
        · trivial
      · exact ⟨rfl, fun _ => ⟨_, _, rfl⟩⟩
  | cancelled text => exact Response.answers_cancelled _ _
  | failed f => exact Response.answers_failed _ _ _

namespace Desk

/-- A turn that calls no transport. -/
structure Replies (d : Desk) (e : Execution) (x : Desk × Progress) : Prop where
  indoors : Indoors d x.1
  goesOn : x.2.GoesOn e

variable {d d' : Desk} {e : Execution}

theorem Replies.after {x : Desk × Progress} (h : Indoors d d') (hx : Replies d' e x) :
    Replies d e x := ⟨h.trans hx.indoors, hx.goesOn⟩

theorem replies_finish (d : Desk) (e : Execution) (attempt : Nat) (outcome : ReadOutcome) :
    Replies d e (d.finish e.requestId attempt outcome) :=
  ⟨indoors_finish .., goesOn_finish ..⟩

theorem replies_transportFailed (d : Desk) (e : Execution) (attempt : Nat) (f : Failure) :
    Replies d e (d.transportFailed e.requestId attempt f) := by
  rw [transportFailed]
  split
  · exact replies_finish ..
  · exact .after (indoors_note d _ _) (replies_finish ..)

theorem replies_continueReading (d : Desk) (e : Execution) (r : Reader) :
    Replies d e (d.continueReading e r) := by
  have h := indoors_read d r
  rw [continueReading]
  generalize d.read r = out at h ⊢
  obtain ⟨d₁, outcome | message | r'⟩ := out
  · exact .after h (replies_finish ..)
  · exact ⟨h, trivial⟩
  · exact ⟨h, rfl, rfl, by rintro ⟨⟩⟩

theorem replies_streamOpened (d : Desk) (e : Execution) (attempt token : Nat) (items : List Item) :
    Replies d e (d.streamOpened e attempt token items) := by
  rw [streamOpened]
  split
  · exact replies_finish ..
  · exact .after (.withSlot d _) (replies_continueReading ..)

theorem replies_continueOpening (d : Desk) (e : Execution) (attempt token : Nat)
    (limit : Option Limit) (p : Playback) (items : List Item) :
    Replies d e (d.continueOpening e attempt token limit p items) := by
  have h := indoors_collectWithin d limit p
  rw [continueOpening]
  generalize d.collectWithin limit p = out at h ⊢
  split
  · exact replies_transportFailed ..
  · obtain ⟨d₁, text | f | message | p'⟩ := out
    · exact .after h (replies_streamOpened ..)
    · exact .after h (replies_transportFailed ..)
    · exact ⟨h, trivial⟩
    · exact ⟨h, rfl, rfl, by rintro ⟨⟩⟩

theorem replies_textArrived (d : Desk) (e : Execution) (attempt : Nat) (text : String) :
    Replies d e (d.textArrived e.requestId attempt text) := by
  rw [textArrived]
  exact .after ((indoors_note d _ _).trans (indoors_note _ _ _)) (replies_finish ..)

theorem replies_continueCollecting (d : Desk) (e : Execution) (attempt token : Nat)
    (limit : Option Limit) (p : Playback) :
    Replies d e (d.continueCollecting e attempt token limit p) := by
  have h := indoors_collectWithin d limit p
  rw [continueCollecting]
  generalize d.collectWithin limit p = out at h ⊢
  split
  · exact replies_transportFailed ..
  · obtain ⟨d₁, text | f | message | p'⟩ := out
    · exact .after h (replies_textArrived ..)
    · exact .after h (replies_transportFailed ..)
    · exact ⟨h, trivial⟩
    · exact ⟨h, rfl, rfl, by rintro ⟨⟩⟩

/-- An execution that was sent calls the transport no more. -/
theorem replies_execute (d : Desk) {e : Execution} (h : e.stage ≠ .claimed) :
    Replies d e (d.execute e) := by
  obtain ⟨id, draft, stage⟩ := e
  cases stage with
  | claimed => exact absurd rfl h
  | opening attempt token limit p items => exact replies_continueOpening ..
  | collecting attempt token limit p => exact replies_continueCollecting ..
  | reading r => exact replies_continueReading ..

/-- A turn that calls the transport once at most, with the draft. -/
structure Sends (d : Desk) (e : Execution) (x : Desk × Progress) : Prop where
  setup : x.1.setup = d.setup
  replies : x.1.replies ⊆ d.replies
  calls : x.1.calls = d.calls ∨ x.1.calls = e.call :: d.calls
  goesOn : x.2.GoesOn e

/-- A request that holds the slot is sent. -/
theorem replies_launch {token : Nat} (ht : d.slot.tokenFor? e.requestId = some token) :
    Replies (d.called e) e (d.launch e) := by
  simp only [launch, ht]
  split
  · exact replies_continueOpening ..
  · exact replies_continueCollecting ..

theorem calls_launch {token : Nat} (ht : d.slot.tokenFor? e.requestId = some token) :
    (d.launch e).1.calls = e.call :: d.calls :=
  (replies_launch ht).indoors.calls.trans (called_eq d e).2.2.2.1

theorem sends_launch (d : Desk) (e : Execution) : Sends d e (d.launch e) := by
  cases ht : d.slot.tokenFor? e.requestId with
  | none =>
    obtain ⟨d', hl, hq⟩ := launch_of_none ht
    rw [hl]
    exact ⟨hq.setup, hq.replies ▸ List.Subset.refl _, .inl hq.calls, Response.answers_cancelled _ _⟩
  | some token =>
    have hr := replies_launch ht
    obtain ⟨_, hsetup, hreplies, _⟩ := called_eq d e
    refine ⟨hr.indoors.setup.trans hsetup, ?_, .inr (calls_launch ht), hr.goesOn⟩
    rw [hr.indoors.replies, hreplies]
    exact List.tail_subset _

/-- A turn of an execution calls the transport once at most, and the first turn only. -/
theorem sends_execute (d : Desk) (e : Execution) : Sends d e (d.execute e) := by
  by_cases h : e.stage = .claimed
  · obtain ⟨id, draft, stage⟩ := e
    obtain rfl := h
    exact sends_launch d _
  · have hr := replies_execute d h
    exact ⟨hr.indoors.setup, hr.indoors.replies ▸ List.Subset.refl _, .inl hr.indoors.calls, hr.goesOn⟩

end Desk

end PromptDesk
