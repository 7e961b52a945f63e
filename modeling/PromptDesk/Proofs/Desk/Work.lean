import PromptDesk.Proofs.Desk.Conduct

/-! The turns of an execution. Once the transport was called for a request, a turn plays what the
transport does, lets the stream begin, and waits, unless reading comes to an end: then the
execution gives the slot back and is over. -/
namespace PromptDesk

open Slot (Move)

/-- The token that an execution heeds. -/
def Stage.token? : Stage → Option Nat
  | .claimed => none
  | .opening _ token _ _ _ | .collecting _ token _ _ => some token
  | .reading r => r.token

def ReadOutcome.isCancelled : ReadOutcome → Bool
  | cancelled _ => true
  | _ => false

/-- A relation that is respected by what an execution does before it ends. -/
structure Work (R W : Desk → Desk → Prop) (id : String) : Prop where
  conduct : ∀ {d d'}, R d d' → W d d'
  trans : ∀ {d d' d''}, W d d' → W d' d'' → W d d''
  stream : ∀ {d}, (Move.stream id).Allowed d.slot.state → W d (d.moved (.stream id))

theorem Work.and {R R' W W' : Desk → Desk → Prop} {id : String} (h : Work R W id)
    (h' : Work R' W' id) : Work (fun d d' => R d d' ∧ R' d d') (fun d d' => W d d' ∧ W' d d') id where
  conduct a := ⟨h.conduct a.1, h'.conduct a.2⟩
  trans a b := ⟨h.trans a.1 b.1, h'.trans a.2 b.2⟩
  stream ha := ⟨h.stream ha, h'.stream ha⟩

/-- An execution that finishes has nothing left to wait for. -/
theorem Desk.finish_ne_waiting (d : Desk) (id : String) (attempt : Nat) (outcome : ReadOutcome)
    (d' : Desk) (e : Execution) : d.finish id attempt outcome ≠ (d', .waiting e) := by
  intro h
  cases outcome with
  | completed text =>
    simp only [finish] at h
    split at h
    · cases h
    · split at h
      · split at h <;> cases h
      · cases h
  | cancelled text | failed f => cases h

/-- What a turn of an execution comes to, once the transport was called. -/
inductive Turned (p : Step → Bool) (W : Desk → Desk → Prop) (d : Desk) (e : Execution) :
    Desk × Progress → Prop
  | waits {d' : Desk} {e' : Execution} (work : W d d') (id : e'.requestId = e.requestId)
      (draft : e'.draft = e.draft) (token : e'.stage.token? = e.stage.token?)
      (behaves : e'.stage.all p = true) : Turned p W d e (d', .waiting e')
  | panics {d' : Desk} {message : String} (work : W d d') : Turned p W d e (d', .panicked message)
  /-- The turn finds the token tripped and gives up, or reading has come to an end. -/
  | ends {d' : Desk} (attempt : Nat) (outcome : ReadOutcome) (work : W d d')
      (heeds : e.stage.token?.any d.slot.isTripped = true → outcome.isCancelled = true) :
      Turned p W d e (d'.finish e.requestId attempt outcome)

namespace Turned

variable {p : Step → Bool} {R W : Desk → Desk → Prop} {e : Execution} {d d' : Desk}

/-- What comes before a turn may be counted to it, unless the token was tripped before. -/
theorem of_work {x : Desk × Progress} (w : Work R W e.requestId) (hd : W d d')
    (hn : e.stage.token?.any d.slot.isTripped = false) (h : Turned p W d' e x) :
    Turned p W d e x := by
  cases h with
  | waits work id draft token behaves => exact .waits (w.trans hd work) id draft token behaves
  | panics work => exact .panics (w.trans hd work)
  | ends attempt outcome work _ => exact .ends attempt outcome (w.trans hd work) (by simp [hn])

theorem transportFailed (h : Manner p R) (w : Work R W e.requestId) (attempt : Nat) (f : Failure)
    (hd : W d d') (hf : e.stage.token?.any d.slot.isTripped = true → f.isCancellation = true) :
    Turned p W d e (d'.transportFailed e.requestId attempt f) := by
  rw [Desk.transportFailed]
  split
  · exact .ends attempt _ hd fun _ => rfl
  · refine .ends attempt _ (w.trans hd (w.conduct (h.hush (Desk.quiet_note _ _ _) rfl))) fun ht => ?_
    exact absurd (hf ht) ‹_›

theorem continueReading (h : Manner p R) (w : Work R W e.requestId) {r : Reader}
    (hr : Item.allIn p r.playback.rest = true) (ht : r.token = e.stage.token?) :
    Turned p W d e (d.continueReading e r) := by
  obtain ⟨hR, hb⟩ := h.read d r hr
  have hheeds : ∀ {d' outcome}, d.read r = (d', .ended outcome) →
      e.stage.token?.any d.slot.isTripped = true → outcome.isCancelled = true := by
    intro d' outcome he htr
    rw [← ht] at htr
    have hread : d.read r = (d, .ended (.cancelled (d.board.attempt r.attempt).text)) := by
      simp [Desk.read, Desk.halt?, htr]
    rw [hread] at he
    cases he
    rfl
  rw [Desk.continueReading]
  split
  · rename_i d' r' he
    rw [he] at hR hb
    exact .waits (w.conduct hR) rfl rfl (hb.2.2.trans ht) hb.1
  · rename_i d' outcome he
    have hR' := w.conduct hR
    rw [he] at hR'
    exact .ends r.attempt outcome hR' (hheeds he)
  · rename_i d' message he
    rw [he] at hR
    exact .panics (w.conduct hR)

theorem streamOpened (h : Manner p R) (w : Work R W e.requestId) (attempt : Nat) {token : Nat}
    {items : List Item} (hi : Item.allIn p items = true) (ht : e.stage.token? = some token)
    (hd : W d d') (hn : e.stage.token?.any d.slot.isTripped = false) :
    Turned p W d e (d'.streamOpened e attempt token items) := by
  rw [Desk.streamOpened]
  split
  · exact .ends attempt _ hd fun _ => rfl
  · rename_i s hs
    obtain ⟨ha, rfl⟩ := (Slot.move?_eq_some_iff (m := .stream e.requestId)).1 hs
    exact of_work w (w.trans hd (w.stream ha)) hn (continueReading h w hi ht.symm)

theorem continueOpening (h : Manner p R) (w : Work R W e.requestId) (attempt : Nat) {token : Nat}
    (limit : Option Limit) {playback : Playback} {items : List Item}
    (hp : Item.allIn p playback.rest = true) (hi : Item.allIn p items = true)
    (ht : e.stage.token? = some token) :
    Turned p W d e (d.continueOpening e attempt token limit playback items) := by
  rw [Desk.continueOpening]
  split
  · exact transportFailed h w attempt _ (w.conduct (h.refl d)) fun _ => rfl
  · rename_i hn
    have hn' : e.stage.token?.any d.slot.isTripped = false := by simpa [ht] using hn
    obtain ⟨hR, hb⟩ := h.collectWithin d limit playback hp
    split
    · rename_i he
      rw [he] at hR hb
      refine .waits (w.conduct hR) rfl rfl ht.symm ?_
      rw [Stage.all, Bool.and_eq_true]
      exact ⟨hb, hi⟩
    · rename_i he
      rw [he] at hR
      exact streamOpened h w attempt hi ht (w.conduct hR) hn'
    · rename_i he
      rw [he] at hR
      exact transportFailed h w attempt _ (w.conduct hR) (by simp [hn'])
    · rename_i he
      rw [he] at hR
      exact .panics (w.conduct hR)

theorem continueCollecting (h : Manner p R) (w : Work R W e.requestId) (attempt : Nat)
    {token : Nat} (limit : Option Limit) {playback : Playback}
    (hp : Item.allIn p playback.rest = true) (ht : e.stage.token? = some token) :
    Turned p W d e (d.continueCollecting e attempt token limit playback) := by
  rw [Desk.continueCollecting]
  split
  · exact transportFailed h w attempt _ (w.conduct (h.refl d)) fun _ => rfl
  · rename_i hn
    have hn' : e.stage.token?.any d.slot.isTripped = false := by simpa [ht] using hn
    obtain ⟨hR, hb⟩ := h.collectWithin d limit playback hp
    split
    · rename_i he
      rw [he] at hR hb
      exact .waits (w.conduct hR) rfl rfl ht.symm hb
    · rename_i d' text he
      rw [he] at hR
      have hq : R d' ((d'.note attempt (.chunk text)).note attempt .complete) :=
        h.hush ((Desk.quiet_note _ _ _).trans (Desk.quiet_note _ _ _)) rfl
      rw [Desk.textArrived]
      exact .ends attempt _ (w.conduct (h.trans hR hq)) fun htr => absurd htr (by simp [hn'])
    · rename_i he
      rw [he] at hR
      exact transportFailed h w attempt _ (w.conduct hR) (by simp [hn'])
    · rename_i he
      rw [he] at hR
      exact .panics (w.conduct hR)

/-- A turn that leaves something to wait for did some work, and goes on with the same request. -/
theorem waits_cases {e' : Execution} (h : Turned p W d e (d', .waiting e')) :
    W d d' ∧ e'.requestId = e.requestId ∧ e'.stage.token? = e.stage.token? ∧
      e'.stage.all p = true := by
  generalize hx : (d', Progress.waiting e') = x at h
  cases h with
  | waits work id _ token behaves =>
    cases hx
    exact ⟨work, id, token, behaves⟩
  | panics => cases hx
  | ends => exact (Desk.finish_ne_waiting _ _ _ _ _ _ hx.symm).elim

/-- A turn that ends the execution did some work first, and finished then. -/
theorem ends_cases {response : Response} (h : Turned p W d e (d', .ended response)) :
    ∃ d₁ attempt outcome, W d d₁ ∧ d₁.finish e.requestId attempt outcome = (d', .ended response) ∧
      (e.stage.token?.any d.slot.isTripped = true → outcome.isCancelled = true) := by
  generalize hx : (d', Progress.ended response) = x at h
  cases h with
  | waits => cases hx
  | panics => cases hx
  | @ends d₁ attempt outcome work heeds => exact ⟨d₁, attempt, outcome, work, rfl, heeds⟩

theorem execute (h : Manner p R) (w : Work R W e.requestId) {token : Nat}
    (ht : e.stage.token? = some token) (hb : e.stage.all p = true) :
    Turned p W d e (d.execute e) := by
  have hs := ht
  obtain ⟨id, draft, stage⟩ := e
  cases stage with
  | claimed => cases hs
  | opening attempt token' limit playback items =>
    simp only [Stage.all, Bool.and_eq_true] at hb
    exact continueOpening h w attempt limit hb.1 hb.2 rfl
  | collecting attempt token' limit playback => exact continueCollecting h w attempt limit hb rfl
  | reading r => exact continueReading h w hb rfl

end Turned

namespace Desk

variable {d : Desk} {e : Execution} {p : Step → Bool}

theorem quiet_beginAttempt (d : Desk) (id : String) (axes : Axes) :
    Quiet d (d.beginAttempt id axes).1 := by
  have hb := quiet_withBoard d (d.board.beginOwned id d.slot.state).1
  simp only [beginAttempt]
  split
  · split
    · exact hb
    · exact hb.trans (quiet_withBoard _ _)
  · exact hb

/-- The desk when the transport was just called for a request. -/
def called (d : Desk) (e : Execution) : Desk :=
  ((d.beginAttempt e.requestId e.draft.axes).1.callTransport ⟨e.requestId, e.draft.messages⟩).1

/-- Calling the transport takes an answer from the script, and that is all. -/
theorem called_eq (d : Desk) (e : Execution) :
    (d.called e).slot = d.slot ∧ (d.called e).setup = d.setup ∧
      (d.called e).replies = d.replies.tail ∧
      (d.called e).calls = ⟨e.requestId, e.draft.messages⟩ :: d.calls ∧
      (d.Labelled → (d.called e).Labelled) ∧
      ∃ l, (d.called e).jobs = d.jobs ++ l ∧ ∀ j ∈ l, j.isPlain = true := by
  have h := quiet_beginAttempt d e.requestId e.draft.axes
  refine ⟨h.slot, h.setup, ?_, ?_, h.labelled, h.jobs⟩
  · rw [← h.replies]
    rfl
  · rw [← h.calls]
    rfl

/-- A request that holds the slot is sent, and its execution goes on from there. -/
theorem launch_of_token {token : Nat} (ht : d.slot.tokenFor? e.requestId = some token)
    (hb : d.Behaves p) : ∃ stage : Stage, stage.token? = some token ∧ stage.all p = true ∧
      d.launch e = (d.called e).execute { e with stage := stage } := by
  have hr : (d.beginAttempt e.requestId e.draft.axes).1.replies = d.replies :=
    (quiet_beginAttempt d e.requestId e.draft.axes).replies
  have hall := hb.head
  rw [← hr] at hall
  simp only [Reply.all, Bool.and_eq_true] at hall
  simp only [launch, ht]
  generalize hx : d.beginAttempt e.requestId e.draft.axes = x at hall ⊢
  obtain ⟨d₁, attempt⟩ := x
  have hd : d.called e = (d₁.callTransport ⟨e.requestId, e.draft.messages⟩).1 := by
    rw [called, hx]
  rw [hd]
  -- the turn of the call is the first turn of the stage that it leads to
  let limit := Limit.start d₁.setup.settings.requestTimeoutMs.toNat d₁.clock
  let reply := d₁.replies.head?.getD .standard
  split
  · refine ⟨.opening attempt token limit { rest := reply.opening } reply.items, rfl, ?_, rfl⟩
    simpa only [Stage.all, Bool.and_eq_true] using hall
  · refine ⟨.collecting attempt token limit { rest := reply.opening ++ reply.items }, rfl, ?_, rfl⟩
    simpa only [Stage.all, Item.allIn_append, Bool.and_eq_true] using hall

/-- A request that lost the slot is not sent. -/
theorem launch_of_none (ht : d.slot.tokenFor? e.requestId = none) :
    ∃ d', d.launch e = (d', .ended (.empty e.requestId .cancelled d.now)) ∧ Quiet d d' := by
  simp only [launch, ht]
  split
  · exact ⟨_, rfl, quiet_cancelledBeforeStart d _⟩
  · exact ⟨_, rfl, .refl d⟩

end Desk

/-- How an execution ends: with a move of its own if it still holds the slot. -/
inductive Finishes (R : Desk → Desk → Prop) (d : Desk) (id : String) :
    ReadOutcome → Desk × Progress → Prop
  | completes {text : String} {d' : Desk} {r : Response} (holds : d.slot.state.holds id = true)
      (after : R (d.moved (.complete id)) d') (outcome : r.outcome = .completed) :
      Finishes R d id (.completed text) (d', .ended r)
  /-- The history writer panicked, after the completion. -/
  | panics {text message : String} {d' : Desk} (holds : d.slot.state.holds id = true)
      (after : R (d.moved (.complete id)) d') :
      Finishes R d id (.completed text) (d', .panicked message)
  | fails {f : Failure} (holds : d.slot.state.holds id = true) :
      Finishes R d id (.failed f)
        (d.moved (.fail id f.message), .ended (.empty id (.failed f.message) d.now))
  | cancels {text : String} {d' : Desk} {t : Timestamp} (holds : d.slot.state.holds id = true)
      (after : Desk.Quiet (d.moved (.cancel id)) d') :
      Finishes R d id (.cancelled text) (d', .ended (.empty id .cancelled t))
  /-- The slot was lost before. A fault is told all the same. -/
  | faults {f : Failure} (lost : d.slot.state.holds id = false) :
      Finishes R d id (.failed f) (d, .ended (.empty id (.failed f.message) d.now))
  | drops {outcome : ReadOutcome} {d' : Desk} {t : Timestamp} (lost : d.slot.state.holds id = false)
      (after : Desk.Quiet d d') (fine : ∀ f, outcome ≠ .failed f) :
      Finishes R d id outcome (d', .ended (.empty id .cancelled t))

namespace Desk

variable {d : Desk} {p : Step → Bool} {R : Desk → Desk → Prop}

theorem finishes_finish (h : Manner p R) (hb : d.Behaves p) (id : String) (attempt : Nat)
    (outcome : ReadOutcome) : Finishes R d id outcome (d.finish id attempt outcome) := by
  cases outcome with
  | completed text =>
    cases hh : d.slot.state.holds id with
    | true =>
      have hm : d.slot.completeFor? id = some ((Move.complete id).after d.slot) :=
        Slot.move?_of_allowed (m := .complete id) hh
      simp only [finish, hm]
      have hq : R (d.moved (.complete id)) { d.moved (.complete id) with
          conversation := { d.conversation with lastResponse := Text.trim text } } :=
        h.hush (quiet_conversation _ _) rfl
      split
      · rename_i w hw
        have hr := h.trans hq (h.recordLogEntry _ attempt (hb.history w hw))
        split <;> rename_i he <;> replace hr := congrArg Prod.fst he ▸ hr
        · exact .completes hh hr rfl
        · exact .panics hh hr
      · exact .completes hh hq rfl
    | false =>
      have hm : d.slot.completeFor? id = none :=
        Slot.move?_eq_none_iff (m := .complete id).2 (by simp [Move.Allowed, hh])
      simp only [finish, hm]
      exact .drops hh (quiet_note d _ _) (by simp)
  | cancelled text =>
    cases hh : d.slot.state.holds id with
    | true =>
      have hm : d.slot.cancelFor? id = some ((Move.cancel id).after d.slot) :=
        Slot.move?_of_allowed (m := .cancel id) hh
      simp only [finish, hm]
      exact .cancels hh (quiet_note _ _ _)
    | false =>
      have hm : d.slot.cancelFor? id = none :=
        Slot.move?_eq_none_iff (m := .cancel id).2 (by simp [Move.Allowed, hh])
      simp only [finish, hm]
      exact .drops hh (quiet_note d _ _) (by simp)
  | failed f =>
    rw [finish]
    rcases failOwned_cases (d := d) id f with ⟨hh, he⟩ | ⟨hh, he⟩
    · rw [he]
      exact .fails hh
    · rw [he]
      exact .faults hh

end Desk

end PromptDesk
