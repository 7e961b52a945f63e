import PromptDesk.Proofs.Desk.Delivery
import PromptDesk.Proofs.Desk.Indifferent

/-! The two modes of a desk: a response is read chunk by chunk as it comes, or it is taken as a whole.
However the transport delivers a response, requests end the same way in both modes, unless the
transport itself cancels a response of which it has opened the stream: a reader takes that for a
fault. -/
namespace PromptDesk

open Slot (Move)

theorem Slot.Sends.of_alike {s t : Slot} {id : String} {token : Nat} (h : s.Sends id token)
    (ha : s.Alike t) : t.Sends id token where
  requestId := by rw [ha.state, h.requestId]
  phase := by rw [ha.state, h.phase]
  cancelRequested := by rw [ha.state, h.cancelRequested]
  untripped := by rw [ha.isTripped, h.untripped]

namespace Desk

/-- A desk in one of the modes, to which the transport delivers its next response so. -/
def answering (d : Desk) (δ : Delivery) (streaming : Bool) : Desk :=
  { d with setup := d.setup.streamed streaming, replies := δ.reply :: d.replies }

/-- A draft that is sent reaches the transport: nobody has cancelled its request by then. -/
def reaches (d : Desk) (draft : Draft) : Bool :=
  match d.enter draft with
  | (d, _, .ok id) => (d.slot.tokenFor? id).isSome
  | (_, _, .error _) => false

/-- A request that is run reaches the transport: none of its sources fails or panics, and its draft does. -/
def sends (d : Desk) (r : Request) : Bool :=
  match gather r.sources d with
  | (_, .error _) => false
  | (d, .ok parts) =>
    let (d, draft) := d.prepare (d.draftFor r) r.prompt parts
    d.reaches draft

/-- A request leaves the same behind: the state of the slot, the statuses of all attempts, the thread
and the last response, and the history. -/
structure SameTraces (d e : Desk) : Prop where
  state : e.slot.state = d.slot.state
  statuses : e.board.statuses = d.board.statuses
  conversation : e.conversation = d.conversation
  entries : e.entries = d.entries

end Desk

/-- The turn in which a request hands back its result, or what came of a mishap: one of its sources
failed or panicked, or its history writer panicked. -/
def Turn.handsBack : Except Mishap PromptResult → Turn
  | .ok result => .ended (.success (.result result))
  | .error m => .ended m.ending

/-- Two runs of a request hand back the same, and leave the same. -/
def SameEnding (x y : Desk × Turn) : Prop :=
  ∃ result, x.2 = .handsBack result ∧ y.2 = .handsBack result ∧ x.1.SameTraces y.1

/-- How an execution ends in the two modes, and whether its stream was cut off in one of them. -/
inductive BothEnd : Bool → Desk × Progress → Desk × Progress → Prop
  | alike {rs : List Reply} {d e : Desk} (h : d.Alike rs e) (r : Response) :
      BothEnd false (d, .ended r) (e, .ended r)
  /-- The history writer has panicked. -/
  | panics {rs : List Reply} {d e : Desk} (h : d.Alike rs e) (message : String) :
      BothEnd false (d, .panicked message) (e, .panicked message)
  | fruitless {d e : Desk} (h : d.SameTraces e) {r : Response} (hr : r.isCompleted = false) :
      BothEnd false (d, .ended r) (e, .ended r)
  /-- To a reader it is a fault that the transport has cancelled the response. -/
  | cutOff (d e : Desk) (id : String) (now : Timestamp) :
      BothEnd true (d, .ended (.empty id (.failed Failure.cancelled.message) now))
        (e, .ended (.empty id .cancelled now))

namespace Desk

theorem alike_noteAll_chunks {d : Desk} {b : Board} (h : d.board.Alike b) {attempt : Nat}
    (hi : attempt < d.board.attempts.length) {chunks : List String}
    (plain : ∀ c ∈ chunks, Text.isBlankText c = false) (now : Timestamp) :
    (d.noteAll attempt (chunks.map .chunk)).board.Alike
      (b.note attempt (.chunk (String.join chunks)) now) := by
  induction chunks generalizing d b with
  | nil =>
    have blank : (b.attempt attempt).transcript.keeps (String.join []) = false := by
      simp [Transcript.keeps, Text.isBlankText]
    rw [Board.Alike.note_chunk_of_dropped blank]
    exact h
  | cons c chunks ih =>
    -- the first chunk and all others come to the same as all chunks in one
    have first : (d.note attempt (.chunk c)).board.Alike (d.board.note attempt (.chunk c) d.now) :=
      { Board.Alike.refl (d.board.note attempt (.chunk c) d.now) with }
    have length : attempt < (d.note attempt (.chunk c)).board.attempts.length := by
      have same := Board.length_note d.board attempt (.chunk c) d.now
      exact same ▸ hi
    have others := ih first length fun c' hc' => plain c' (List.mem_cons_of_mem c hc')
    have rest : String.join chunks = "" ∨ Text.isBlankText (String.join chunks) = false := by
      cases chunks with
      | nil => exact .inl rfl
      | cons c' chunks =>
        have hc' := plain c' (by simp)
        simp only [Text.isBlankText] at hc'
        simp [Text.isBlankText, String.join_cons, String.toList_append, List.all_append, hc']
    rw [String.join_cons]
    exact others.trans (h.chunk_append hi (plain c List.mem_cons_self) rest d.now now now)

namespace Alike

variable {rs : List Reply} {d e : Desk} {x : Execution} {attempt token : Nat}

theorem sameTraces (h : Alike rs d e) : d.SameTraces e where
  state := h.slot.state
  statuses := by
    refine List.ext_getElem (by simp [Board.statuses, h.board.length]) fun j hj hj' => ?_
    rw [Board.getElem_statuses, Board.getElem_statuses, Attempt.status, Attempt.status,
      (h.board.attempt j).snapshot]
  conversation := h.conversation
  entries := h.entries

theorem beginAttempt (h : Alike rs d e) (id : String) (axes : Axes) :
    Alike rs (d.beginAttempt id axes).1 (e.beginAttempt id axes).1 ∧
      (e.beginAttempt id axes).2 = (d.beginAttempt id axes).2 := by
  obtain ⟨hb, hi⟩ := h.board.beginOwned id d.slot.state
  have hd := h.withBoard hb
  have catalog : (e.withBoard (e.board.beginOwned id d.slot.state).1).setup.catalog =
      (d.withBoard (d.board.beginOwned id d.slot.state).1).setup.catalog := by
    rw [hd.setup]
    rfl
  simp only [Desk.beginAttempt, h.slot.state, catalog, hi]
  split
  · split
    · exact ⟨hd, rfl⟩
    · exact ⟨hd.withBoard (hd.board.setAxes ..), rfl⟩
  · exact ⟨hd, rfl⟩

theorem callTransport {reply : Reply} (h : Alike (reply :: rs) d e) (r : TransportRequest) :
    Alike rs (d.callTransport r).1 (e.callTransport r).1 ∧
      (d.callTransport r).2 = reply ∧ (e.callTransport r).2 = reply := by
  have hd : d.replies = reply :: rs := h.expected
  have he : e.replies = reply :: rs := h.replies
  have hw := h.write (x := .transport d.setup.settings.streaming r)
    (y := .transport e.setup.settings.streaming r) rfl
  refine ⟨{ hw with expected := ?_, replies := ?_ }, ?_, ?_⟩
  · exact congrArg List.tail hd
  · exact congrArg List.tail he
  · simp [Desk.callTransport, hd]
  · simp [Desk.callTransport, he]

theorem recordLogEntry (h : Alike rs d e) (i : Nat) (w : Writer) :
    Alike rs (d.recordLogEntry i w).1 (e.recordLogEntry i w).1 ∧
      (e.recordLogEntry i w).2 = (d.recordLogEntry i w).2 := by
  obtain ⟨hb, hentry⟩ := h.beginLogEntry i
  cases w with
  | mk calls result =>
    rw [Desk.recordLogEntry, Desk.recordLogEntry]
    dsimp only
    rw [hentry]
    refine ⟨(alike_performAll calls hb).endLogEntry i _ result, ?_⟩
    cases result <;> rfl
  | panic calls payload => exact ⟨alike_performAll calls hb, rfl⟩

/-- A completion does the same to desks that are alike once the slot is given back. -/
theorem finish_completed {s t : Slot} {id : String} (hs : d.slot.completeFor? id = some s)
    (ht : e.slot.completeFor? id = some t) (h : Alike rs (d.withSlot s) (e.withSlot t)) (i : Nat)
    (text : String) :
    BothEnd false (d.finish id i (.completed text)) (e.finish id i (.completed text)) := by
  have ended : ∀ {d' e' : Desk} {text : String}, Alike rs d' e' →
      BothEnd false (d', .ended ⟨id, .ofText .assistant text d'.now, .completed⟩)
        (e', .ended ⟨id, .ofText .assistant text e'.now, .completed⟩) :=
    fun h' => h'.now ▸ .alike h' _
  have hc : Alike rs
      { d.withSlot s with
        conversation := { (d.withSlot s).conversation with lastResponse := Text.trim text } }
      { e.withSlot t with
        conversation := { (e.withSlot t).conversation with lastResponse := Text.trim text } } :=
    { h with conversation := by simp only [h.conversation] }
  have history : (e.withSlot t).setup.history = (d.withSlot s).setup.history := by
    rw [h.setup]
    rfl
  simp only [finish, hs, ht, history]
  cases (d.withSlot s).setup.history with
  | none => exact ended hc
  | some w =>
    obtain ⟨hrec, same⟩ := hc.recordLogEntry i w
    dsimp only at hrec same ⊢
    generalize Desk.recordLogEntry _ i w = x at hrec same ⊢
    generalize Desk.recordLogEntry _ i w = y at hrec same ⊢
    obtain ⟨d', stored⟩ := x
    obtain ⟨e', stored'⟩ := y
    obtain rfl : stored' = stored := same
    cases stored' with
    | ok stored => exact ended hrec
    | error payload => exact .panics hrec payload.message

/-- A response that does not even begin comes to the same in both modes. -/
theorem transportFailed (h : Alike rs d e) (id : String) (i : Nat) (f : Failure) :
    BothEnd false (d.transportFailed id i f) (e.transportFailed id i f) := by
  have ended : ∀ {d' e' : Desk} {outcome : Outcome}, Alike rs d' e' →
      BothEnd false (d', .ended (.empty id outcome d.now)) (e', .ended (.empty id outcome e.now)) :=
    fun h' => h.now ▸ .alike h' _
  rw [Desk.transportFailed, Desk.transportFailed]
  split
  · have hc := h.slot.cancelFor? id
    simp only [finish]
    generalize d.slot.cancelFor? id = x at hc ⊢
    generalize e.slot.cancelFor? id = y at hc ⊢
    cases hc with
    | none => exact ended (h.note i _)
    | some hs => exact ended ((h.withSlot hs).note i _)
  · exact ended ((h.note i _).failOwned id f)

/-- A response is noted chunk by chunk, or as one chunk. -/
theorem chunks (h : Alike rs d e) (hi : attempt < d.board.attempts.length) {chunks : List String}
    (plain : ∀ c ∈ chunks, Text.isBlankText c = false) :
    Alike rs (d.noteAll attempt (chunks.map .chunk)) (e.note attempt (.chunk (String.join chunks))) := by
  have board : (d.noteAll attempt (chunks.map .chunk)).board.Alike
      (e.note attempt (.chunk (String.join chunks))).board :=
    { alike_noteAll_chunks h.board hi plain e.now with }
  have entries : (e.note attempt (.chunk (String.join chunks))).entries =
      (d.noteAll attempt (chunks.map .chunk)).entries := by
    rw [(inert_note e attempt _).entries, (inert_noteAll d attempt _).entries, h.entries]
  obtain ⟨b, journal, hd⟩ := noteAll_eq d attempt (chunks.map .chunk)
  rw [hd] at board entries ⊢
  exact { h with board := board, entries := entries }

/-- A response of which all chunks come is taken up in the same way, read or as a whole. -/
theorem ends (h : Alike rs d e) (hs : d.slot.Sends x.requestId token)
    (hi : attempt < d.board.attempts.length) {chunks : List String}
    (plain : ∀ c ∈ chunks, Text.isBlankText c = false) (limit limit' : Option Limit) :
    BothEnd false
      (d.continueOpening x attempt token limit { rest := [] } (chunks.map .chunk))
      (e.continueCollecting x attempt token limit' { rest := chunks.map .chunk }) := by
  let id := x.requestId
  have hs' : e.slot.Sends id token := hs.of_alike h.slot
  let s := (Move.stream id).after d.slot
  let d₁ := ((d.withSlot s).noteAll attempt (chunks.map .chunk)).note attempt .complete
  let e₁ := (e.note attempt (.chunk (String.join chunks))).note attempt .complete
  -- the desks would be alike if the one that takes responses whole had begun a stream, too
  have streamed : Alike rs d₁
      (((e.withSlot s).note attempt (.chunk (String.join chunks))).note attempt .complete) :=
    ((h.withSlot (.refl s)).chunks hi plain).note attempt .complete
  have text : (e₁.board.attempt attempt).text = (d₁.board.attempt attempt).text :=
    (streamed.board.attempt attempt).text
  have slot : d₁.slot = s := noteAll_slot (d.withSlot s) attempt (chunks.map .chunk)
  have completes : d₁.slot.completeFor? id = some ((Move.complete id).after s) := by
    rw [slot]
    exact Slot.move?_of_allowed (m := .complete id) hs.holds_stream
  have completes' : e₁.slot.completeFor? id = some ((Move.complete id).after e.slot) :=
    Slot.move?_of_allowed (m := .complete id) hs'.holds
  -- and they are when the slot is given back
  have after : ((Move.complete id).after s).Alike ((Move.complete id).after e.slot) :=
    { h.slot with state := rfl }
  have released : Alike rs (d₁.withSlot ((Move.complete id).after s))
      (e₁.withSlot ((Move.complete id).after e.slot)) :=
    { streamed.withSlot after with }
  rw [continueOpening_ends hs, continueCollecting_ends hs']
  change BothEnd false (d₁.finish id attempt (.completed (d₁.board.attempt attempt).text))
    (e₁.finish id attempt (.completed (e₁.board.attempt attempt).text))
  rw [text]
  exact finish_completed completes completes' released attempt _

/-- A response that breaks with a fault leaves the same, although only a reader keeps what had come. -/
theorem breaks (h : Alike rs d e) (hs : d.slot.Sends x.requestId token) (limit limit' : Option Limit)
    (chunks : List String) {f : Failure} (hf : f.isCancellation = false) :
    BothEnd false
      (d.continueOpening x attempt token limit { rest := [] } (chunks.map .chunk ++ [.fail f]))
      (e.continueCollecting x attempt token limit' { rest := chunks.map .chunk ++ [.fail f] }) := by
  rw [continueOpening_fail hs, continueCollecting_fail (hs.of_alike h.slot) attempt limit' chunks hf,
    h.now]
  let d₁ := (d.moved (.stream x.requestId)).noteAll attempt (chunks.map .chunk)
  have inert := (inert_noteAll (d.moved (.stream x.requestId)) attempt (chunks.map .chunk)).trans
    (inert_note d₁ attempt (.error f.message))
  have inert' := inert_note e attempt (.error f.message)
  refine .fruitless ⟨?state, ?statuses, ?conversation, ?entries⟩ rfl
  case state =>
    have named : f.message.isEmpty = false := by simp [f.message_ne_empty]
    simp only [moved_slot, Slot.Move.after_state, Slot.Move.result, named]
    rfl
  case statuses =>
    have noted : (d₁.note attempt (.error f.message)).board.statuses =
        d.board.statuses.modify attempt (Note.statusAfter (.error f.message)) := by
      rw [statuses_note, statuses_noteAll_chunks]
      rfl
    exact (statuses_note e attempt _).trans (h.sameTraces.statuses ▸ noted.symm)
  case conversation => exact inert'.conversation.trans (h.conversation.trans inert.conversation.symm)
  case entries => exact inert'.entries.trans (h.entries.trans inert.entries.symm)

/-- A response that the transport cancels in the middle. -/
theorem cutOff (h : Alike rs d e) (hs : d.slot.Sends x.requestId token) (limit limit' : Option Limit)
    (chunks : List String) :
    BothEnd true
      (d.continueOpening x attempt token limit { rest := [] } (chunks.map .chunk ++ [.fail .cancelled]))
      (e.continueCollecting x attempt token limit'
        { rest := chunks.map .chunk ++ [.fail .cancelled] }) := by
  have whole := continueCollecting_cancelled (hs.of_alike h.slot) attempt limit' chunks
  rw [h.now] at whole
  rw [continueOpening_fail hs]
  generalize e.continueCollecting x attempt token limit' _ = y at whole ⊢
  obtain ⟨e', p⟩ := y
  obtain rfl : p = _ := whole
  exact .cutOff _ e' _ _

section

variable {δ : Delivery} (plain : ∀ c ∈ δ.chunks, Text.isBlankText c = false)
include plain

/-- Whatever the transport does when it is called. -/
theorem delivered (h : Alike rs d e) (hs : d.slot.Sends x.requestId token)
    (hi : attempt < d.board.attempts.length) (limit limit' : Option Limit) :
    BothEnd δ.isCutOff
      (d.continueOpening x attempt token limit { rest := δ.reply.opening } δ.reply.items)
      (e.continueCollecting x attempt token limit'
        { rest := δ.reply.opening ++ δ.reply.items }) := by
  have hs' : e.slot.Sends x.requestId token := hs.of_alike h.slot
  cases δ with
  | ends chunks => exact h.ends hs hi plain limit limit'
  | refuses f =>
    rw [continueOpening, continueCollecting, if_neg (by simp [hs.untripped]),
      if_neg (by simp [hs'.untripped])]
    exact h.transportFailed x.requestId attempt f
  | breaks chunks f =>
    cases hf : f.isCancellation with
    | true =>
      obtain rfl : f = .cancelled := of_decide_eq_true hf
      exact h.cutOff hs limit limit' chunks
    | false =>
      rw [Delivery.isCutOff, hf]
      exact h.breaks hs limit limit' chunks hf

/-- A request that is sent. -/
theorem launch (h : Alike (δ.reply :: rs) d e) (hs : d.slot.Sends x.requestId token)
    (ht : d.slot.tokenFor? x.requestId = some token) :
    BothEnd δ.isCutOff (d.launch x) (e.launch x) := by
  have ht' : e.slot.tokenFor? x.requestId = some token := by rw [h.slot.tokenFor?, ht]
  have bound := (fresh_beginAttempt d x.requestId x.draft.axes).bound
  have slot : (d.beginAttempt x.requestId x.draft.axes).1.slot = d.slot :=
    beginAttempt_slot d x.requestId x.draft.axes
  have hb := With.of (h.beginAttempt x.requestId x.draft.axes)
  simp only [Desk.launch, ht, ht']
  generalize d.beginAttempt x.requestId x.draft.axes = y at bound slot hb ⊢
  generalize e.beginAttempt x.requestId x.draft.axes = z at hb ⊢
  cases hb with
  | @mk d₁ e₁ hb attempt =>
    obtain ⟨hc, answer, answer'⟩ := hb.callTransport ⟨x.requestId, x.draft.messages⟩
    have slot' : (d₁.callTransport ⟨x.requestId, x.draft.messages⟩).1.slot = d.slot := slot
    have whole : (e₁.callTransport ⟨x.requestId, x.draft.messages⟩).1.setup.settings.streaming =
        false := by
      rw [hc.setup]
      rfl
    simp only [hc.streams, whole, if_true, answer, answer']
    exact hc.delivered plain (slot' ▸ hs) bound _ _

/-- A draft is sent, unless its request was cancelled before or has lost the slot. -/
theorem send (h : Alike (δ.reply :: rs) d e) (draft : Draft) :
    (e.send draft).2.1 = (d.send draft).2.1 ∧
      BothEnd (δ.isCutOff && d.reaches draft)
        ((d.send draft).1, (d.send draft).2.2) ((e.send draft).1, (e.send draft).2.2) := by
  have entered := With.of (h.enter draft)
  have sending := @phase_of_enter d draft
  rw [Desk.send, Desk.send, reaches]
  generalize d.enter draft = y at entered sending ⊢
  generalize e.enter draft = z at entered ⊢
  cases entered with
  | @mk d₁ e₁ he out =>
    obtain ⟨draft', id | id⟩ := out
    · obtain ⟨hc, response⟩ := he.cancelledBeforeStart id
      simp only [response, Bool.and_false]
      exact ⟨trivial, .alike hc _⟩
    · refine ⟨rfl, ?_⟩
      change BothEnd _ (d₁.launch ⟨id, draft', .claimed⟩) (e₁.launch ⟨id, draft', .claimed⟩)
      cases ht : d₁.slot.tokenFor? id with
      | some token =>
        simp only [ht, Option.isSome_some, Bool.and_true]
        exact he.launch plain (.of_tokenFor? (sending rfl) ht) ht
      | none =>
        have ht' : e₁.slot.tokenFor? id = none := by rw [he.slot.tokenFor?, ht]
        simp only [Desk.launch, ht, ht', Option.isSome_none, Bool.and_false, he.slot.state]
        split
        · obtain ⟨hc, response⟩ := he.cancelledBeforeStart id
          rw [response]
          exact .alike hc _
        · rw [he.now]
          exact .alike he _

end

end Alike

end Desk

/-- How the request has ended whose result is handed back. -/
def Turn.outcome? : Turn → Option Outcome
  | .ended (.success (.result result)) => some result.outcome
  | _ => none

/-- A request has failed in one run, and it was cancelled in the other one. -/
structure CutApart (x y : Desk × Turn) : Prop where
  failed : x.2.outcome? = some (.failed Failure.cancelled.message)
  cancelled : y.2.outcome? = some .cancelled

theorem CutApart.not_sameEnding {x y : Desk × Turn} (h : CutApart x y) : ¬ SameEnding x y := by
  rintro ⟨result, hx, hy, _⟩
  have same : x.2.outcome? = y.2.outcome? := by rw [hx, hy]
  rw [h.failed, h.cancelled] at same
  cases same

/-- What executions come to is handed back, with the reply on the thread. -/
theorem BothEnd.proceedToResult {cut : Bool} {x y : Desk × Progress} (h : BothEnd cut x y)
    (destination : Destination) :
    (cut = false → SameEnding (x.1.proceedToResult destination x.2)
      (y.1.proceedToResult destination y.2)) ∧
    (cut = true → CutApart (x.1.proceedToResult destination x.2)
      (y.1.proceedToResult destination y.2)) := by
  cases h with
  | alike h r =>
    exact ⟨fun _ => ⟨.ok (.ofResponse r destination), rfl, rfl, (h.conclude destination r).sameTraces⟩,
      fun cut => by cases cut⟩
  | panics h message =>
    exact ⟨fun _ => ⟨.error (.panic (.text message)), rfl, rfl, h.sameTraces⟩, fun cut => by cases cut⟩
  | @fruitless d e h r hr =>
    have stays : ∀ d : Desk, (d.conclude destination r).1 = d := fun d => by
      simp [Desk.conclude, hr]
    refine ⟨fun _ => ⟨.ok (.ofResponse r destination), rfl, rfl, ?_⟩, fun cut => by cases cut⟩
    change (d.conclude destination r).1.SameTraces (e.conclude destination r).1
    rw [stays, stays]
    exact h
  | cutOff d e id now => exact ⟨(fun whole => by cases whole), fun _ => ⟨rfl, rfl⟩⟩

namespace Desk

/-- The same desk in the two modes. -/
theorem alike_answering (d : Desk) (δ : Delivery) :
    Alike (δ.reply :: d.replies) (d.answering δ true) (d.answering δ false) where
  streams := rfl
  setup := rfl
  slot := .refl d.slot
  gate := rfl
  observed := rfl
  board := .refl d.board
  conversation := rfl
  expected := rfl
  replies := rfl
  clock := rfl
  released := rfl
  stopped := rfl
  handles := rfl
  jobs := rfl
  names := ⟨rfl, rfl, rfl, rfl⟩
  entries := rfl

/-- Both modes come to the same for a request whose response has no blank chunks, whether it comes as
a whole, fails to begin or breaks, unless the transport cancels it when it has opened the stream: then
the request has failed in one mode, and it was cancelled in the other. -/
theorem modes_agree_iff (d : Desk) (r : Request) {δ : Delivery}
    (plain : ∀ c ∈ δ.chunks, Text.isBlankText c = false) :
    let streamed := (d.answering δ true).runLast r
    let whole := (d.answering δ false).runLast r
    let cut := δ.isCutOff && (d.answering δ true).sends r
    (SameEnding streamed whole ↔ cut = false) ∧ (cut = true → CutApart streamed whole) := by
  intro streamed whole cut
  have h : (cut = false → SameEnding streamed whole) ∧ (cut = true → CutApart streamed whole) := by
    have gathered := Alike.With.of (alike_gather r.sources (d.alike_answering δ))
    simp only [streamed, whole, cut, runLast, run, sends]
    generalize gather r.sources (d.answering δ true) = x at gathered ⊢
    generalize gather r.sources (d.answering δ false) = y at gathered ⊢
    cases gathered with
    | @mk d e hg result =>
      cases result with
      | error m =>
        simp only [Bool.and_false]
        exact ⟨fun _ => ⟨.error m, rfl, rfl, hg.sameTraces⟩, fun cut => by cases cut⟩
      | ok parts =>
        simp only [hg.draftFor]
        have prepared := Alike.With.of (hg.prepare (d.draftFor r) r.prompt parts)
        generalize d.prepare (d.draftFor r) r.prompt parts = x at prepared ⊢
        generalize e.prepare (d.draftFor r) r.prompt parts = y at prepared ⊢
        cases prepared with
        | @mk d e hp draft =>
          obtain ⟨draft_eq, both⟩ := hp.send plain draft
          simp only [draft_eq]
          exact both.proceedToResult _
  refine ⟨⟨fun same => ?_, h.1⟩, h.2⟩
  by_contra apart
  exact (h.2 (by simpa using apart)).not_sameEnding same

/-- A stream is read to its end in two chunks, and another one breaks after its first chunk. -/
theorem modes_agree_at_end_and_fault :
    let r : Request := .mk "hi" [] none none ∅
    let plain (δ : Delivery) := ∀ c ∈ δ.chunks, Text.isBlankText c = false
    let same (δ : Delivery) := SameEnding ((({} : Desk).answering δ true).runLast r)
      ((({} : Desk).answering δ false).runLast r)
    let ends : Delivery := .ends ["Hello ", "world"]
    let breaks : Delivery := .breaks ["Hello "] (.transport "reset")
    plain ends ∧ same ends ∧ (({} : Desk).answering ends true).sends r = true ∧
      plain breaks ∧ same breaks ∧ (({} : Desk).answering breaks true).sends r = true := by
  intro r plain same ends breaks
  have plainEnds : plain ends := by decide +kernel
  have plainBreaks : plain breaks := by decide +kernel
  exact ⟨plainEnds, (modes_agree_iff {} r plainEnds).1.2 rfl, by decide +kernel,
    plainBreaks, (modes_agree_iff {} r plainBreaks).1.2 rfl, by decide +kernel⟩

/-- After its first chunk the transport cancels a response. Where it is read, the request fails. -/
theorem modes_apart_at_cancellation :
    let r : Request := .mk "p" [] none none ∅
    let δ : Delivery := .breaks ["a"] .cancelled
    let streamed := (({} : Desk).answering δ true).runLast r
    let whole := (({} : Desk).answering δ false).runLast r
    (∀ c ∈ δ.chunks, Text.isBlankText c = false) ∧ CutApart streamed whole ∧
      ¬ SameEnding streamed whole ∧
      streamed.1.slot.state.phase = .error ∧ whole.1.slot.state.phase = .cancelled ∧
      streamed.1.board.statuses = [.errored] ∧ whole.1.board.statuses = [.inflight] := by
  intro r δ streamed whole
  have apart : CutApart streamed whole := ⟨by decide +kernel, by decide +kernel⟩
  exact ⟨by decide +kernel, apart, apart.not_sameEnding, by decide +kernel, by decide +kernel,
    by decide +kernel, by decide +kernel⟩

end Desk

end PromptDesk
