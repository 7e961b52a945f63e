import PromptDesk.Proofs.Desk.Hop
import PromptDesk.Proofs.Desk.Still

/-! What a request says. Its message goes to the thread when it is prepared, and its reply as soon as it
is completed; nothing else of a request that nobody interferes with is heard in the conversation. -/
namespace PromptDesk

/-- What a result adds to the thread: its reply if the request was completed, and if that is not
blank. -/
def PromptResult.said (r : PromptResult) : List Message :=
  if r.isCompleted && !Text.isBlankText r.text then r.messages else []

def Turn.said : Turn → List Message
  | .ended (.success (.result r)) => r.said
  | _ => []

def Answer.said : Answer → List Message
  | .result r => r.said
  | _ => []

/-- Sources that make no calls give what they have. -/
theorem gather_mute {ss : List Source} (h : Source.allIn Step.isMute ss = true) (d : Desk) :
    gather ss d = (d, Source.answers ss) := by
  induction ss with
  | nil => rfl
  | cons s ss ih =>
    simp only [Source.allIn, Bool.and_eq_true] at h
    have calls := Call.eq_nil_of_mute (Source.allIn_calls h.1)
    rw [gather_cons, calls, performAll, ih h.2, Source.answers]
    cases s.content <;> rfl

namespace Desk

/-- What is said while the thread is in use. -/
def inThread (d : Desk) (ms : List Message) : List Message :=
  if d.setup.settings.threadEnabled then ms else []

/-- Some messages were said, and otherwise nothing has changed that concerns conversations. -/
structure Hears (d d' : Desk) (said : List Message) : Prop where
  setup : d'.setup = d.setup
  thread : d'.conversation.thread = d.conversation.thread ++ said
  queued : d'.conversation.queued = d.conversation.queued
  rest : d.AtRest → d'.AtRest
  replies : d'.replies ⊆ d.replies

variable {d d' d'' : Desk} {ms ms' : List Message} {e : Execution} {id : String}

namespace Hears

theorem trans (h : Hears d d' ms) (h' : Hears d' d'' ms') : Hears d d'' (ms ++ ms') where
  setup := h'.setup.trans h.setup
  thread := by rw [h'.thread, h.thread, List.append_assoc]
  queued := h'.queued.trans h.queued
  rest := h'.rest ∘ h.rest
  replies := List.Subset.trans h'.replies h.replies

theorem of_still (h : Still d d') (hr : d'.replies ⊆ d.replies) : Hears d d' [] where
  setup := h.setup
  thread := by rw [h.thread, List.append_nil]
  queued := h.queued
  rest := h.rest
  replies := hr

theorem refl (d : Desk) : Hears d d [] := .of_still (.refl d) (List.Subset.refl _)

theorem behaves (h : Hears d d' ms) (hb : d.Behaves Step.isMute) : d'.Behaves Step.isMute where
  history w hw := hb.history w (h.setup ▸ hw)
  replies r hr := hb.replies r (h.replies hr)

theorem inThread (h : Hears d d' ms) (ms' : List Message) : d'.inThread ms' = d.inThread ms' := by
  rw [Desk.inThread, h.setup, Desk.inThread]

end Hears

/-- A response is added to the thread if it says something. -/
theorem hears_conclude (d : Desk) (destination : Destination) {r : Response} (hr : r.Answers id) :
    Hears d (d.conclude destination r).1 (d.inThread (d.conclude destination r).2.said) := by
  have hresult : (d.conclude destination r).2 = .ofResponse r destination := rfl
  rw [hresult, conclude, inThread]
  cases hc : r.isCompleted with
  | false =>
    have hsaid : (PromptResult.ofResponse r destination).said = [] := by
      have hnot : (PromptResult.ofResponse r destination).isCompleted = false := hc
      simp [PromptResult.said, hnot]
    rw [hsaid]
    simpa using Hears.refl d
  | true =>
    obtain ⟨text, now, hm⟩ := hr.speaks hc
    have hsaid : (PromptResult.ofResponse r destination).said =
        if Text.isBlankText text then [] else [.ofText .assistant text now] := by
      have hdone : (PromptResult.ofResponse r destination).isCompleted = true := hc
      have htext : (PromptResult.ofResponse r destination).text = text := by
        simp [PromptResult.ofResponse, PromptResult.text, hm, Message.text, Message.ofText,
          Part.text?]
      have hmessages : (PromptResult.ofResponse r destination).messages = [r.message] := rfl
      rw [PromptResult.said, hdone, htext, hmessages, hm]
      cases Text.isBlankText text <;> rfl
    rw [hsaid]
    cases d.setup.settings.threadEnabled with
    | false => exact .refl d
    | true =>
      have hempty : r.message.isEmpty = Text.isBlankText text := by
        simp [hm, Message.isEmpty, Message.ofText, Part.isEmpty]
      simp only [Bool.and_self, if_true, Conversation.pushReply, hempty]
      split
      · exact .refl d
      · refine ⟨rfl, ?_, rfl, fun h => ⟨h.queue, h.waits⟩, List.Subset.refl _⟩
        rw [hm]
        rfl

/-- What is left of a request after a turn: an execution that was sent and makes no calls. -/
def Waits (out : Turn) : Prop := ∀ t, out = .waiting t →
  ∃ e, t = .execution e .conclude ∧ e.stage ≠ .claimed ∧ e.stage.all Step.isMute = true

theorem hears_proceed {p : Progress} (hg : p.GoesOn e) (hm : p.IsMute) (d : Desk)
    (destination : Destination) :
    Hears d (d.proceed destination .conclude p).1
        (d.inThread (d.proceed destination .conclude p).2.said) ∧
      (d.proceed destination .conclude p).1.calls = d.calls ∧
      Waits (d.proceed destination .conclude p).2 := by
  have hsilent : d.inThread [] = [] := by simp [inThread]
  cases p with
  | waiting e' =>
    simp only [proceed, Turn.said, hsilent]
    refine ⟨.refl d, trivial, ?_⟩
    rintro _ ⟨⟩
    exact ⟨e', rfl, hg.2.2, hm⟩
  | panicked message =>
    simp only [proceed, Turn.said, hsilent]
    exact ⟨.refl d, trivial, by rintro _ ⟨⟩⟩
  | ended r =>
    simp only [proceed, proceedToResult, Turn.said]
    exact ⟨hears_conclude d destination hg, (quiet_conclude d destination r).calls,
      by rintro _ ⟨⟩⟩

/-- A turn of an execution that was sent. -/
theorem hears_execution (hb : d.Behaves Step.isMute) (hs : e.stage ≠ .claimed)
    (hm : e.stage.all Step.isMute = true) :
    Hears d (d.turn (.execution e .conclude)).1
        (d.inThread (d.turn (.execution e .conclude)).2.said) ∧
      (d.turn (.execution e .conclude)).1.calls = d.calls ∧
      Waits (d.turn (.execution e .conclude)).2 := by
  have hw := works_sent hb.history hs hm
  have hr := replies_execute d hs
  have hfirst : Hears d (d.execute e).1 [] :=
    .of_still hw.still (hr.indoors.replies ▸ List.Subset.refl _)
  obtain ⟨hp, hcalls, hwaits⟩ :=
    hears_proceed hr.goesOn hw.mute (d.execute e).1 e.draft.destination
  rw [turn]
  refine ⟨?_, hcalls.trans hr.indoors.calls, hwaits⟩
  rw [← hfirst.inThread]
  exact hfirst.trans hp

/-- What an ending adds to the thread, if there is one. -/
def saidAtEnd (e : Option Ending) : List Message := (e.map fun e => (Turn.ended e).said).getD []

theorem inThread_append (d : Desk) (ms ms' : List Message) :
    d.inThread (ms ++ ms') = d.inThread ms ++ d.inThread ms' := by
  rw [inThread, inThread, inThread]
  split <;> simp

@[simp] theorem inThread_nil (d : Desk) : d.inThread [] = [] := by simp [inThread]

/-- Waiting for a task alone, provided that the waiting goes on like this. -/
theorem hears_onwards {fuel : Nat} {t : Task} (hrest : d.AtRest) (hb : d.Behaves Step.isMute)
    (first : Hears d (d.turn t).1 (d.inThread (ms ++ (d.turn t).2.said)))
    (waits : Waits (d.turn t).2)
    (onwards : ∀ {d e}, AtRest d → d.Behaves Step.isMute → e.stage ≠ .claimed →
      e.stage.all Step.isMute = true →
        Hears d (finishTask fuel (.execution e .conclude) d).1
            (d.inThread (saidAtEnd (finishTask fuel (.execution e .conclude) d).2)) ∧
          (finishTask fuel (.execution e .conclude) d).1.calls = d.calls) :
    Hears d (finishTask (fuel + 1) t d).1
        (d.inThread (ms ++ saidAtEnd (finishTask (fuel + 1) t d).2)) ∧
      (finishTask (fuel + 1) t d).1.calls = (d.turn t).1.calls := by
  rw [finishTask]
  generalize d.turn t = x at first waits ⊢
  obtain ⟨d₁, t₁ | ending⟩ := x
  · obtain ⟨e, rfl, hs, hm⟩ := waits t₁ rfl
    have hto : Hears d d₁ (d.inThread ms) := by simpa [Turn.said] using first
    have hrest₁ := hto.rest hrest
    dsimp only
    rw [hrest₁.settleDown]
    split
    · rename_i d₂ hwait
      obtain ⟨now, rfl⟩ := hrest₁.waitFor hwait
      have hclock : Hears d₁ { d₁ with clock := now } [] :=
        .of_still (.of_eq rfl rfl rfl rfl) (List.Subset.refl _)
      have hto₂ : Hears d { d₁ with clock := now } (d.inThread ms) := by simpa using hto.trans hclock
      obtain ⟨hlast, hcalls⟩ := onwards (hto₂.rest hrest) (hto₂.behaves hb) hs hm
      rw [hto₂.inThread] at hlast
      rw [inThread_append]
      exact ⟨hto₂.trans hlast, hcalls⟩
    · simpa [saidAtEnd] using hto
  · exact ⟨first, rfl⟩

/-- Waiting for the rest of a request, alone. -/
theorem hears_rest {fuel : Nat} (hrest : d.AtRest) (hb : d.Behaves Step.isMute)
    (hs : e.stage ≠ .claimed) (hm : e.stage.all Step.isMute = true) :
    Hears d (finishTask fuel (.execution e .conclude) d).1
        (d.inThread (saidAtEnd (finishTask fuel (.execution e .conclude) d).2)) ∧
      (finishTask fuel (.execution e .conclude) d).1.calls = d.calls := by
  induction fuel generalizing d e with
  | zero => simpa [finishTask, saidAtEnd] using Hears.refl d
  | succ fuel ih =>
    obtain ⟨hh, hcalls, hwaits⟩ := hears_execution hb hs hm
    have first : Hears d (d.turn (.execution e .conclude)).1
        (d.inThread ([] ++ (d.turn (.execution e .conclude)).2.said)) := hh
    obtain ⟨hlast, hcalls'⟩ := hears_onwards hrest hb first hwaits ih
    exact ⟨hlast, hcalls'.trans hcalls⟩

/-- Waiting for a request from its first turn on. -/
theorem hears_waitForTask {t : Task} (hrest : d.AtRest) (hb : d.Behaves Step.isMute)
    (first : Hears d (d.turn t).1 (d.inThread (ms ++ (d.turn t).2.said)))
    (waits : Waits (d.turn t).2) :
    Hears d (d.waitForTask t).1 (d.inThread (ms ++ saidAtEnd (d.waitForTask t).2)) ∧
      (d.waitForTask t).1.calls = (d.turn t).1.calls := by
  have hlimit : turnLimit = (2 ^ 40 - 1) + 1 := rfl
  rw [waitForTask, hlimit]
  exact hears_onwards hrest hb first waits hears_rest

/-- A draft that was sent: nothing was said by it, and its messages are all that the transport was
called with. -/
structure Sending (d : Desk) (draft : Draft) (x : Desk × Draft × Progress) : Prop where
  hears : Hears d x.1 []
  calls : x.1.calls = d.calls ∨ ∃ id, x.1.calls = ⟨id, draft.messages⟩ :: d.calls
  goesOn : ∃ e, x.2.2.GoesOn e
  mute : x.2.2.IsMute

theorem begin_of_begun {draft : Draft} (h : draft.begun = true) : draft.begin false = draft := by
  obtain ⟨⟩ := draft
  obtain rfl := h
  rfl

/-- Sending a draft that was begun is taking the slot, and a first turn unless that is refused. -/
theorem send_eq {draft : Draft} (begun : draft.begun = true) (d : Desk) :
    d.send draft =
      match d.slot.enter draft.requestId with
      | (s, .ok id) =>
        let draft := { draft with requestId := some id }
        let (d, p) := (d.withSlot s).execute ⟨id, draft, .claimed⟩
        (d, draft, p)
      | (s, .error id) =>
        let (d, r) := (d.withSlot s).cancelledBeforeStart id
        (d, draft, .ended r) := by
  rw [send, enter, begin_of_begun begun]
  dsimp only
  generalize d.slot.enter draft.requestId = x
  obtain ⟨s, id | id⟩ := x <;> rfl

theorem sending_send (hb : d.Behaves Step.isMute) {draft : Draft} (begun : draft.begun = true) :
    Sending d draft (d.send draft) := by
  rw [send_eq begun]
  generalize d.slot.enter draft.requestId = x
  obtain ⟨s, id | id⟩ := x
  · have hi := Indoors.of_quiet (quiet_cancelledBeforeStart (d.withSlot s) id)
    exact {
      hears := .of_still ((still_withSlot d s).trans (still_cancelledBeforeStart _ id))
        (hi.replies ▸ List.Subset.refl _)
      calls := .inl hi.calls
      goesOn := ⟨⟨id, draft, .claimed⟩, Response.answers_cancelled id _⟩
      mute := trivial }
  · have hslot : Hears d (d.withSlot s) [] := .of_still (still_withSlot d s) (List.Subset.refl _)
    let e : Execution := ⟨id, { draft with requestId := some id }, .claimed⟩
    have hw := works_execute (hslot.behaves hb) (e := e) rfl
    have hs := sends_execute (d.withSlot s) e
    exact {
      hears := hslot.trans (.of_still hw.still hs.replies)
      calls := hs.calls.imp_right fun h => ⟨id, h⟩
      goesOn := ⟨e, hs.goesOn⟩
      mute := hw.mute }

end Desk

/-- A request may take the slot, unless the slot says that it was cancelled or that it is being sent. -/
def Slot.OpenTo (s : Slot) (id? : Option String) : Prop :=
  ∀ id, id? = some id → s.state.isFor id = true →
    s.state.cancelRequested = false ∧ s.state.phase ≠ .sending

theorem Slot.OpenTo.enter {s : Slot} {id? : Option String} (h : s.OpenTo id?) :
    s.enter id? = ((Move.send id?).after s, .ok (id?.getD s.nextId)) := by
  cases id? with
  | none => rfl
  | some id =>
    rcases s.enter_cases id with ⟨hf, hc, _⟩ | ⟨hf, _, hp, _⟩ | ⟨_, he⟩
    · exact absurd hc (by simp [(h id rfl hf).1])
    · exact absurd hp (h id rfl hf).2
    · exact he

namespace Desk

variable {d d' : Desk} {draft : Draft} {r : Request} {parts : List Part}

/-- A draft that may take the slot is sent. -/
theorem called_send (begun : draft.begun = true) (free : d.slot.OpenTo draft.requestId) :
    ∃ c, (d.send draft).1.calls = c :: d.calls := by
  rw [send_eq begun, free.enter]
  exact ⟨_, calls_launch (e := ⟨_, _, .claimed⟩) (Slot.tokenFor?_send d.slot draft.requestId)⟩

/-- Everything that a request sends. -/
def messagesFor (d : Desk) (r : Request) (parts : List Part) : List Message :=
  (Message.system? d.setup.system d.now).toList ++ d.inThread d.conversation.thread ++
    d.conversation.queued ++ [.user r.prompt parts d.now]

theorem hears_prepare (d : Desk) (draft : Draft) (prompt : String) (parts : List Part) :
    Hears d (d.prepare draft prompt parts).1 (d.inThread [.user prompt parts d.now]) := by
  rw [prepare, inThread]
  split
  · exact ⟨rfl, rfl, rfl, fun h => ⟨h.queue, h.waits⟩, List.Subset.refl _⟩
  · exact .refl d

/-- The first turn of a request says its own message, and its reply if it has come already. -/
theorem hears_request (hb : d.Behaves Step.isMute) (hr : r.all Step.isMute = true)
    (hparts : Source.answers r.sources = .ok parts) :
    Hears d (d.turn (.request r .conclude)).1 (d.inThread
        ([.user r.prompt parts d.now] ++ (d.turn (.request r .conclude)).2.said)) ∧
      ((d.turn (.request r .conclude)).1.calls = d.calls ∨
        ∃ id, (d.turn (.request r .conclude)).1.calls = ⟨id, d.messagesFor r parts⟩ :: d.calls) ∧
      (d.slot.OpenTo r.id → (d.turn (.request r .conclude)).1.calls ≠ d.calls) ∧
      Waits (d.turn (.request r .conclude)).2 := by
  have hg : gather r.sources d = (d, .ok parts) := by
    rw [← hparts]
    refine gather_mute ?_ d
    cases r
    exact hr
  have hp := hears_prepare d (d.draftFor r) r.prompt parts
  have hcalls := (quiet_prepare d (d.draftFor r) r.prompt parts).calls
  have hslot := (quiet_prepare d (d.draftFor r) r.prompt parts).slot
  have hmessages : (d.prepare (d.draftFor r) r.prompt parts).2.messages = d.messagesFor r parts := rfl
  have hid : (d.prepare (d.draftFor r) r.prompt parts).2.requestId = r.id := rfl
  have hbegun : (d.prepare (d.draftFor r) r.prompt parts).2.begun = true := rfl
  rw [turn, run, hg]
  dsimp only
  generalize d.prepare (d.draftFor r) r.prompt parts = x at hp hcalls hslot hmessages hid hbegun ⊢
  obtain ⟨d₁, draft⟩ := x
  have hs := sending_send (hp.behaves hb) hbegun
  have hcalled : d.slot.OpenTo r.id → ∃ c, (d₁.send draft).1.calls = c :: d₁.calls := fun free =>
    called_send hbegun (by rwa [hslot, hid])
  generalize d₁.send draft = y at hs hcalled ⊢
  obtain ⟨d₂, draft', p⟩ := y
  obtain ⟨e, hgoes⟩ := hs.goesOn
  obtain ⟨hlast, hsame, hwaits⟩ := hears_proceed hgoes hs.mute d₂ draft'.destination
  refine ⟨?_, ?_, fun free => ?_, hwaits⟩
  · have hto := hp.trans hs.hears
    rw [hto.inThread] at hlast
    rw [inThread_append]
    simpa using hto.trans hlast
  · rw [hsame, ← hmessages, ← hcalls]
    exact hs.calls
  · obtain ⟨c, hc⟩ := hcalled free
    rw [hsame, hc, hcalls]
    exact List.cons_ne_self c _

/-- A request whose source fails or panics leaves no trace. -/
theorem turn_of_error (hr : r.all Step.isMute = true) {mishap : Mishap}
    (hf : Source.answers r.sources = .error mishap) (d : Desk) :
    d.turn (.request r .conclude) = (d, .ended mishap.ending) := by
  have hg : gather r.sources d = (d, .error mishap) := by
    rw [← hf]
    refine gather_mute ?_ d
    cases r
    exact hr
  rw [turn, run, hg]

end Desk

end PromptDesk
