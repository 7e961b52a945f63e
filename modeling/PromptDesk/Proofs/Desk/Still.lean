import PromptDesk.Proofs.Desk.Indoors
import PromptDesk.Scenario

/-! Work that nobody interferes with. Scripts without calls leave the thread, the queue of messages and
the work in the background as they are; of a conversation an execution changes the last response
only. -/
namespace PromptDesk

/-- No step at all. -/
def Step.isMute : Step → Bool := fun _ => false

theorem Call.eq_nil_of_mute {cs : List Call} (h : Call.allIn Step.isMute cs = true) : cs = [] := by
  cases cs with
  | nil => rfl
  | cons c cs =>
    obtain ⟨label, step⟩ := c
    cases step <;> simp [Call.allIn, Call.all, Step.all, Step.isMute] at h

namespace Desk

/-- Nobody else has a turn, and nobody else waits for anything. -/
structure AtRest (d : Desk) : Prop where
  queue : d.queue = []
  waits : d.waits = []

/-- What is said stays as it is, and nothing begins in the background. -/
structure Still (d d' : Desk) : Prop where
  setup : d'.setup = d.setup
  thread : d'.conversation.thread = d.conversation.thread
  queued : d'.conversation.queued = d.conversation.queued
  rest : d.AtRest → d'.AtRest

variable {d d' d'' : Desk}

namespace Still

theorem refl (d : Desk) : Still d d := ⟨rfl, rfl, rfl, id⟩

theorem trans (h : Still d d') (h' : Still d' d'') : Still d d'' where
  setup := h'.setup.trans h.setup
  thread := h'.thread.trans h.thread
  queued := h'.queued.trans h.queued
  rest := h'.rest ∘ h.rest

theorem of_eq (setup : d'.setup = d.setup) (conversation : d'.conversation = d.conversation)
    (queue : d'.queue = d.queue) (waits : d'.waits = d.waits) : Still d d' :=
  ⟨setup, conversation ▸ rfl, conversation ▸ rfl, fun h => ⟨queue ▸ h.queue, waits ▸ h.waits⟩⟩

end Still

/-- Where nobody waits nobody is roused. -/
theorem AtRest.rouse_eq (h : d.AtRest) : d.rouse = d := by
  have hroused : d.roused = [] := by rw [roused, h.waits]; rfl
  rw [Desk.rouse, hroused]
  rfl

theorem AtRest.rouse (h : d.AtRest) : d.rouse.AtRest := h.rouse_eq.symm ▸ h

theorem still_withSlot (d : Desk) (s : Slot) : Still d (d.withSlot s) :=
  ⟨rfl, rfl, rfl, fun h => AtRest.rouse (d := { d with slot := s }) ⟨h.queue, h.waits⟩⟩

theorem still_withBoard (d : Desk) (b : Board) : Still d (d.withBoard b) := .of_eq rfl rfl rfl rfl

theorem still_note (d : Desk) (i : Nat) (n : Note) : Still d (d.note i n) := still_withBoard d _

theorem still_lastResponse (d : Desk) (text : String) :
    Still d { d with conversation := { d.conversation with lastResponse := text } } :=
  ⟨rfl, rfl, rfl, fun h => ⟨h.queue, h.waits⟩⟩

theorem still_failOwned (d : Desk) (id : String) (f : Failure) : Still d (d.failOwned id f) := by
  rw [failOwned]
  split
  · exact still_withSlot d _
  · exact .refl d

theorem still_beginLogEntry (d : Desk) (i : Nat) : Still d (d.beginLogEntry i).1 :=
  (still_note d i (.historyWriteRequested (d.board.attempt i).historyEntry.axes.keys)).trans
    (.of_eq rfl rfl rfl rfl)

theorem still_recordLogEntry (d : Desk) (i : Nat) {w : Writer} (h : w.all Step.isMute = true) :
    Still d (d.recordLogEntry i w).1 := by
  cases w with
  | mk calls result =>
    obtain rfl := Call.eq_nil_of_mute h
    cases result <;> exact (still_beginLogEntry d i).trans (still_note _ i _)
  | panic calls payload =>
    obtain rfl := Call.eq_nil_of_mute h
    exact still_beginLogEntry d i

theorem still_cancelledBeforeStart (d : Desk) (id : String) : Still d (d.cancelledBeforeStart id).1 :=
  (still_withBoard d _).trans (still_note _ _ _)

end Desk

/-- What is still to be played makes no calls. -/
def Collected.IsMute : Collected → Prop
  | .waiting p => Item.allIn Step.isMute p.rest = true
  | .text _ | .failed _ | .panicked _ => True

def Drained.IsMute : Drained → Prop
  | .waiting r => Item.allIn Step.isMute r.playback.rest = true
  | .ended _ | .panicked _ => True

namespace Desk

variable {d d' : Desk}

/-- Collecting leaves the desk alone. -/
theorem collectItems_mute {items : List Item} (h : Item.allIn Step.isMute items = true)
    (text : String) (d : Desk) :
    (collectItems items text d).1 = d ∧ (collectItems items text d).2.IsMute := by
  induction items generalizing text with
  | nil => exact ⟨rfl, trivial⟩
  | cons item rest ih =>
    simp only [Item.allIn, Bool.and_eq_true] at h
    cases item with
    | chunk s => exact ih h.2 (text ++ s)
    | fail f | panic payload => exact ⟨rfl, trivial⟩
    | calls calls =>
      obtain rfl := Call.eq_nil_of_mute h.1
      rw [collectItems, performAll]
      exact ih h.2 text
    | delay ms | wait name | hang =>
      simp only [collectItems]
      split
      · exact ⟨rfl, h.2⟩
      · exact ih h.2 text

theorem collectWithin_mute {p : Playback} (h : Item.allIn Step.isMute p.rest = true)
    (limit : Option Limit) (d : Desk) :
    (d.collectWithin limit p).1 = d ∧ (d.collectWithin limit p).2.IsMute := by
  have hc : (d.collect p).1 = d ∧ (d.collect p).2.IsMute := by
    rw [collect]
    split
    · exact collectItems_mute h _ d
    · exact ⟨rfl, h⟩
  rw [collectWithin]
  generalize d.collect p = out at hc ⊢
  obtain ⟨d₁, text | f | message | p'⟩ := out
  · exact hc
  · exact hc
  · exact hc
  · dsimp only at hc ⊢
    split
    · split
      · exact ⟨hc.1, trivial⟩
      · exact hc
    · exact hc

theorem still_halt {attempt : Nat} {token : Option Nat} {idle : Option Limit}
    {outcome : ReadOutcome} (h : d.halt? attempt token idle = some (d', outcome)) : Still d d' := by
  unfold halt? at h
  split at h
  · cases h
    exact .refl d
  · split at h
    · split at h
      · cases h
        exact still_note d _ _
      · cases h
    · cases h

theorem readItems_mute (attempt : Nat) (token : Option Nat) {items : List Item}
    (h : Item.allIn Step.isMute items = true) (idle : Option Limit) (d : Desk) :
    Still d (readItems attempt token items idle d).1 ∧
      (readItems attempt token items idle d).2.IsMute := by
  induction items generalizing idle d with
  | nil => exact ⟨still_note d _ _, trivial⟩
  | cons item rest ih =>
    simp only [Item.allIn, Bool.and_eq_true] at h
    cases item with
    | chunk s =>
      have hn := still_note d attempt (.chunk s)
      rw [readItems]
      split
      · rename_i hh
        exact ⟨hn.trans (still_halt hh), trivial⟩
      · obtain ⟨hs, hm⟩ := ih h.2 (idle.map (·.restart d.clock)) (d.note attempt (.chunk s))
        exact ⟨hn.trans hs, hm⟩
    | fail f => exact ⟨still_note d _ _, trivial⟩
    | panic payload => exact ⟨.refl d, trivial⟩
    | calls calls =>
      obtain rfl := Call.eq_nil_of_mute h.1
      rw [readItems, performAll]
      exact ih h.2 idle d
    | delay ms | wait name | hang =>
      simp only [readItems]
      split
      · exact ⟨.refl d, h.2⟩
      · exact ih h.2 idle d

theorem read_mute {r : Reader} (h : Item.allIn Step.isMute r.playback.rest = true) (d : Desk) :
    Still d (d.read r).1 ∧ (d.read r).2.IsMute := by
  rw [read]
  split
  · rename_i hh
    exact ⟨still_halt hh, trivial⟩
  · split
    · exact readItems_mute r.attempt r.token h _ d
    · exact ⟨.refl d, h⟩

theorem still_finish (hw : ∀ w, d.setup.history = some w → w.all Step.isMute = true) (id : String)
    (attempt : Nat) (outcome : ReadOutcome) : Still d (d.finish id attempt outcome).1 := by
  cases outcome with
  | completed text =>
    rw [finish]
    split
    · exact still_note d _ _
    · rename_i s _
      have hs := (still_withSlot d s).trans (still_lastResponse (d.withSlot s) (Text.trim text))
      dsimp only
      split
      · rename_i w hhist
        have hr := hs.trans (still_recordLogEntry _ attempt (hw w hhist))
        split <;> rename_i he <;> exact congrArg Prod.fst he ▸ hr
      · exact hs
  | cancelled text =>
    rw [finish]
    dsimp only
    split
    · exact (still_withSlot d _).trans (still_note _ _ _)
    · exact still_note d _ _
  | failed f => exact still_failOwned d id f

end Desk

/-- What is left of an execution makes no calls. -/
def Progress.IsMute : Progress → Prop
  | .waiting e => e.stage.all Step.isMute = true
  | .ended _ | .panicked _ => True

namespace Desk

variable {d d' : Desk}

/-- A turn of an execution that nobody interferes with. -/
structure Works (d : Desk) (x : Desk × Progress) : Prop where
  still : Still d x.1
  mute : x.2.IsMute

theorem Works.after {x : Desk × Progress} (h : Still d d') (hx : Works d' x) : Works d x :=
  ⟨h.trans hx.still, hx.mute⟩

/-- The history writer makes no calls. -/
def MuteHistory (d : Desk) : Prop := ∀ w, d.setup.history = some w → w.all Step.isMute = true

theorem Still.muteHistory (h : Still d d') (hw : d.MuteHistory) : d'.MuteHistory := fun w hhist =>
  hw w (h.setup ▸ hhist)

theorem works_finish (hw : d.MuteHistory) (id : String) (attempt : Nat) (outcome : ReadOutcome) :
    Works d (d.finish id attempt outcome) where
  still := still_finish hw id attempt outcome
  mute := by
    generalize h : d.finish id attempt outcome = x
    obtain ⟨d', e | response | message⟩ := x
    · exact (finish_ne_waiting _ _ _ _ _ _ h).elim
    · trivial
    · trivial

theorem works_transportFailed (hw : d.MuteHistory) (id : String) (attempt : Nat) (f : Failure) :
    Works d (d.transportFailed id attempt f) := by
  have hn := still_note d attempt (.error f.message)
  rw [transportFailed]
  split
  · exact works_finish hw ..
  · exact .after hn (works_finish (hn.muteHistory hw) ..)

theorem works_continueReading (hw : d.MuteHistory) (e : Execution) {r : Reader}
    (h : Item.allIn Step.isMute r.playback.rest = true) : Works d (d.continueReading e r) := by
  obtain ⟨hs, hm⟩ := read_mute h d
  rw [continueReading]
  generalize d.read r = out at hs hm ⊢
  obtain ⟨d₁, outcome | message | r'⟩ := out
  · exact .after hs (works_finish (hs.muteHistory hw) ..)
  · exact ⟨hs, trivial⟩
  · exact ⟨hs, hm⟩

theorem works_streamOpened (hw : d.MuteHistory) (e : Execution) (attempt token : Nat)
    {items : List Item} (h : Item.allIn Step.isMute items = true) :
    Works d (d.streamOpened e attempt token items) := by
  rw [streamOpened]
  split
  · exact works_finish hw ..
  · have hs := still_withSlot d ‹Slot›
    exact .after hs (works_continueReading (hs.muteHistory hw) e h)

theorem works_continueOpening (hw : d.MuteHistory) (e : Execution) (attempt token : Nat)
    (limit : Option Limit) {p : Playback} {items : List Item}
    (hp : Item.allIn Step.isMute p.rest = true) (hi : Item.allIn Step.isMute items = true) :
    Works d (d.continueOpening e attempt token limit p items) := by
  obtain ⟨hs, hm⟩ := collectWithin_mute hp limit d
  rw [continueOpening]
  generalize d.collectWithin limit p = out at hs hm ⊢
  split
  · exact works_transportFailed hw ..
  · obtain ⟨d₁, text | f | message | p'⟩ := out <;> obtain rfl : d₁ = d := hs
    · exact works_streamOpened hw e attempt token hi
    · exact works_transportFailed hw ..
    · exact ⟨.refl _, trivial⟩
    · exact ⟨.refl _, by simpa [Progress.IsMute, Stage.all] using ⟨hm, hi⟩⟩

theorem works_textArrived (hw : d.MuteHistory) (id : String) (attempt : Nat) (text : String) :
    Works d (d.textArrived id attempt text) := by
  have hn := (still_note d attempt (.chunk text)).trans (still_note _ attempt .complete)
  rw [textArrived]
  exact .after hn (works_finish (hn.muteHistory hw) ..)

theorem works_continueCollecting (hw : d.MuteHistory) (e : Execution) (attempt token : Nat)
    (limit : Option Limit) {p : Playback} (hp : Item.allIn Step.isMute p.rest = true) :
    Works d (d.continueCollecting e attempt token limit p) := by
  obtain ⟨hs, hm⟩ := collectWithin_mute hp limit d
  rw [continueCollecting]
  generalize d.collectWithin limit p = out at hs hm ⊢
  split
  · exact works_transportFailed hw ..
  · obtain ⟨d₁, text | f | message | p'⟩ := out <;> obtain rfl : d₁ = d := hs
    · exact works_textArrived hw ..
    · exact works_transportFailed hw ..
    · exact ⟨.refl _, trivial⟩
    · exact ⟨.refl _, hm⟩

theorem still_beginAttempt (d : Desk) (id : String) (axes : Axes) :
    Still d (d.beginAttempt id axes).1 := by
  have hb := still_withBoard d (d.board.beginOwned id d.slot.state).1
  simp only [beginAttempt]
  split
  · split
    · exact hb
    · exact hb.trans (still_withBoard _ _)
  · exact hb

theorem still_called (d : Desk) (e : Execution) : Still d (d.called e) :=
  (still_beginAttempt d e.requestId e.draft.axes).trans (.of_eq rfl rfl rfl rfl)

/-- An execution that was sent works on. -/
theorem works_sent {e : Execution} (hw : d.MuteHistory) (hs : e.stage ≠ .claimed)
    (hm : e.stage.all Step.isMute = true) : Works d (d.execute e) := by
  obtain ⟨id, draft, stage⟩ := e
  cases stage with
  | claimed => exact absurd rfl hs
  | opening attempt token limit p items =>
    simp only [Stage.all, Bool.and_eq_true] at hm
    exact works_continueOpening hw _ attempt token limit hm.1 hm.2
  | collecting attempt token limit p => exact works_continueCollecting hw _ attempt token limit hm
  | reading r => exact works_continueReading hw _ hm

theorem works_launch (hb : d.Behaves Step.isMute) (e : Execution) : Works d (d.launch e) := by
  cases ht : d.slot.tokenFor? e.requestId with
  | none =>
    simp only [launch, ht]
    split
    · exact ⟨still_cancelledBeforeStart d _, trivial⟩
    · exact ⟨.refl d, trivial⟩
  | some token =>
    obtain ⟨stage, hs, hm, hl⟩ := launch_of_token ht hb
    have hc := still_called d e
    rw [hl]
    refine .after hc (works_sent (hc.muteHistory hb.history) ?_ hm)
    rintro rfl
    cases hs

theorem works_execute (hb : d.Behaves Step.isMute) {e : Execution}
    (hm : e.stage.all Step.isMute = true) : Works d (d.execute e) := by
  by_cases h : e.stage = .claimed
  · obtain ⟨id, draft, stage⟩ := e
    obtain rfl := h
    exact works_launch hb _
  · exact works_sent hb.history h hm

/-- Where nobody has a turn, none is waited for. -/
theorem AtRest.settleDown (h : d.AtRest) : d.settleDown = d := by
  have hlimit : turnLimit = (2 ^ 40 - 1) + 1 := rfl
  rw [Desk.settleDown, hlimit, drain, h.queue]

/-- While somebody waits alone, time passes and nothing else happens. -/
theorem AtRest.waitFor (h : d.AtRest) {interests : List Interest} {fuel : Nat}
    (hw : waitFor interests fuel d = some d') : ∃ now, d' = { d with clock := now } := by
  induction fuel generalizing d with
  | zero => cases hw
  | succ fuel ih =>
    rw [Desk.waitFor] at hw
    split at hw
    · exact ⟨d.clock, (Option.some.inj hw).symm⟩
    · rw [h.queue] at hw
      obtain ⟨d₁, ht, hw⟩ := Option.bind_eq_some_iff.1 hw
      obtain ⟨now, _, rfl⟩ := Option.map_eq_some_iff.1 ht
      rw [AtRest.rouse_eq (d := { d with clock := now }) ⟨h.queue, h.waits⟩] at hw
      obtain ⟨now', rfl⟩ := ih (d := { d with clock := now }) ⟨h.queue, h.waits⟩ hw
      exact ⟨now', rfl⟩

end Desk

end PromptDesk
