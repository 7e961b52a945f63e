import PromptDesk.Proofs.Desk.Execution
import PromptDesk.Proofs.Desk.Statuses

/-! How the transport delivers a response, and what becomes of it. A response ends, it breaks after some
chunks, or it does not even begin. What is there of it is there at once, so that reading it and
collecting it take a single turn, in which no limit is reached. -/
namespace PromptDesk

open Slot (Move)

/-- How the transport delivers a response. -/
inductive Delivery where
  | ends (chunks : List String)
  /-- The response does not even begin. -/
  | refuses (failure : Failure)
  /-- The response fails, of which some chunks have come. -/
  | breaks (chunks : List String) (failure : Failure)
  deriving DecidableEq, Repr

namespace Delivery

def chunks : Delivery → List String
  | ends cs | breaks cs _ => cs
  | refuses _ => []

/-- What the transport does when it is called. -/
def reply : Delivery → Reply
  | ends cs => ⟨[], cs.map .chunk⟩
  | refuses f => ⟨[.fail f], []⟩
  | breaks cs f => ⟨[], cs.map .chunk ++ [.fail f]⟩

/-- The transport cancels a response of which it has opened the stream. -/
def isCutOff : Delivery → Bool
  | breaks _ f => f.isCancellation
  | ends _ | refuses _ => false

end Delivery

namespace Slot

/-- A request that holds the slot, was neither cancelled nor streamed so far, and its token. -/
structure Sends (s : Slot) (id : String) (token : Nat) : Prop where
  requestId : s.state.requestId = some id
  phase : s.state.phase = .sending
  cancelRequested : s.state.cancelRequested = false
  untripped : s.isTripped token = false

namespace Sends

variable {s : Slot} {id : String} {token : Nat}

theorem of_tokenFor? (sending : s.state.phase = .sending) (ht : s.tokenFor? id = some token) :
    Sends s id token := by
  simp only [tokenFor?, Option.ite_none_right_eq_some, Bool.and_eq_true, Bool.not_eq_true',
    Option.some.injEq] at ht
  obtain ⟨⟨⟨⟨named, _⟩, wanted⟩, untripped⟩, rfl⟩ := ht
  exact ⟨PhaseState.isFor_iff.1 named, sending, wanted, untripped⟩

theorem holds (h : Sends s id token) : s.state.holds id = true :=
  PhaseState.holds_iff.2 ⟨h.requestId, by simp [PhaseState.isInFlight, h.phase, Phase.isInFlight]⟩

theorem beginStreamFor? (h : Sends s id token) :
    s.beginStreamFor? id = some ((Move.stream id).after s) :=
  move?_of_allowed (m := .stream id) ⟨h.holds, h.phase, h.cancelRequested⟩

theorem holds_stream (_ : Sends s id token) : ((Move.stream id).after s).state.holds id = true := by
  simp [PhaseState.holds, Move.result, PhaseState.isFor, PhaseState.isInFlight, Phase.isInFlight]

end Sends

end Slot

namespace Desk

/-- Notes go to the board and to the journal. -/
theorem noteAll_eq (d : Desk) (attempt : Nat) (notes : List Note) :
    ∃ board journal, d.noteAll attempt notes = { d with board := board, journal := journal } := by
  induction notes generalizing d with
  | nil => exact ⟨d.board, d.journal, rfl⟩
  | cons n notes ih =>
    obtain ⟨board, journal, h⟩ := ih (d.note attempt n)
    exact ⟨board, journal, h⟩

theorem statuses_note (d : Desk) (attempt : Nat) (n : Note) :
    (d.note attempt n).board.statuses = d.board.statuses.modify attempt n.statusAfter :=
  Board.statuses_note d.board attempt n d.now

/-- Chunks change no status. -/
theorem statuses_noteAll_chunks (d : Desk) (attempt : Nat) (chunks : List String) :
    (d.noteAll attempt (chunks.map .chunk)).board.statuses = d.board.statuses := by
  induction chunks generalizing d with
  | nil => rfl
  | cons c chunks ih =>
    refine (ih (d.note attempt (.chunk c))).trans ((statuses_note d attempt (.chunk c)).trans ?_)
    exact List.modify_id attempt d.board.statuses

/-- Before a limit that has not come nothing ends reading. -/
theorem halt?_eq_none {d : Desk} {token : Option Nat} {idle : Option Limit} (attempt : Nat)
    (untripped : token.any d.slot.isTripped = false) (ahead : ∀ l ∈ idle, d.clock < l.due) :
    d.halt? attempt token idle = none := by
  unfold halt?
  rw [untripped, if_neg Bool.false_ne_true]
  cases idle with
  | none => rfl
  | some l => exact if_neg (Nat.not_le.2 (ahead l rfl))

/-- Chunks that are there are read one after the other. -/
theorem readItems_chunks (attempt : Nat) {token : Nat} (rest : List Item) (chunks : List String)
    {d : Desk} {idle : Option Limit} (untripped : d.slot.isTripped token = false)
    (lasting : ∀ l ∈ idle, 0 < l.ms) :
    ∃ idle', readItems attempt (some token) (chunks.map .chunk ++ rest) idle d =
      readItems attempt (some token) rest idle' (d.noteAll attempt (chunks.map .chunk)) := by
  induction chunks generalizing d idle with
  | nil => exact ⟨idle, rfl⟩
  | cons c chunks ih =>
    let idle₁ := idle.map (·.restart d.clock)
    have lasting₁ : ∀ l ∈ idle₁, 0 < l.ms ∧ d.clock < l.due := by
      intro l hl
      obtain ⟨l', hl', rfl⟩ := Option.map_eq_some_iff.1 hl
      exact ⟨lasting l' hl', Nat.lt_add_of_pos_right (lasting l' hl')⟩
    have goesOn : (d.note attempt (.chunk c)).halt? attempt (some token) idle₁ = none :=
      halt?_eq_none attempt untripped fun l hl => (lasting₁ l hl).2
    have untripped₁ : (d.note attempt (.chunk c)).slot.isTripped token = false := untripped
    obtain ⟨idle', h⟩ := ih untripped₁ fun l (hl : l ∈ idle₁) => (lasting₁ l hl).1
    refine ⟨idle', ?_⟩
    rw [List.map_cons, List.cons_append, readItems]
    simp only [idle₁] at goesOn h
    simp only [goesOn, h]
    rfl

theorem collectItems_chunks (rest : List Item) (chunks : List String) (text : String) (d : Desk) :
    collectItems (chunks.map .chunk ++ rest) text d =
      collectItems rest (text ++ String.join chunks) d := by
  induction chunks generalizing text with
  | nil => simp
  | cons c chunks ih => simp [collectItems, ih, String.append_assoc]

variable {d : Desk} {x : Execution} {token : Nat}

/-- Reading starts before its limit, and chunks that are there take no time. -/
theorem read_chunks (untripped : d.slot.isTripped token = false) (attempt ms : Nat)
    (chunks : List String) (rest : List Item) :
    ∃ idle, d.read ⟨attempt, some token, Limit.start ms d.clock, { rest := chunks.map .chunk ++ rest }⟩ =
      readItems attempt (some token) rest idle (d.noteAll attempt (chunks.map .chunk)) := by
  have start : ∀ l ∈ Limit.start ms d.clock, 0 < l.ms ∧ d.clock < l.due := by
    intro l hl
    rw [Limit.start] at hl
    split at hl
    · cases hl
    · rename_i positive
      cases hl
      exact ⟨Nat.pos_of_ne_zero positive, Nat.lt_add_of_pos_right (Nat.pos_of_ne_zero positive)⟩
  obtain ⟨idle, h⟩ := readItems_chunks attempt rest chunks untripped fun l hl => (start l hl).1
  have goesOn : d.halt? attempt (some token) (Limit.start ms d.clock) = none :=
    halt?_eq_none attempt untripped fun l hl => (start l hl).2
  refine ⟨idle, ?_⟩
  rw [read, goesOn]
  exact h

/-- A stream that was opened is read at once, as far as it is there. -/
theorem continueOpening_chunks (hs : d.slot.Sends x.requestId token) (attempt : Nat)
    (limit : Option Limit) (chunks : List String) (rest : List Item) :
    ∃ idle, d.continueOpening x attempt token limit { rest := [] } (chunks.map .chunk ++ rest) =
      match readItems attempt (some token) rest idle
        ((d.moved (.stream x.requestId)).noteAll attempt (chunks.map .chunk)) with
      | (d, .waiting r) => (d, .waiting { x with stage := .reading r })
      | (d, .ended outcome) => d.finish x.requestId attempt outcome
      | (d, .panicked message) => (d, .panicked message) := by
  let d' := d.moved (.stream x.requestId)
  have untripped : d'.slot.isTripped token = false := hs.untripped
  obtain ⟨idle, h⟩ := read_chunks untripped attempt d'.setup.settings.streamIdleTimeoutMs.toNat
    chunks rest
  have opened : d.collectWithin limit { rest := [] } = (d, .text "") := rfl
  refine ⟨idle, ?_⟩
  rw [continueOpening, if_neg (by simp [hs.untripped]), opened, ← h]
  simp only [streamOpened, hs.beginStreamFor?]
  rfl

theorem collectWithin_chunks (d : Desk) (limit : Option Limit) (chunks : List String) :
    d.collectWithin limit { rest := chunks.map .chunk } = (d, .text (String.join chunks)) := by
  have h := collectItems_chunks [] chunks "" d
  rw [List.append_nil, String.empty_append] at h
  have hc : d.collect { rest := chunks.map .chunk } = (d, .text (String.join chunks)) := h
  rw [collectWithin, hc]

theorem collectWithin_fail (d : Desk) (limit : Option Limit) (chunks : List String) (f : Failure) :
    d.collectWithin limit { rest := chunks.map .chunk ++ [.fail f] } = (d, .failed f) := by
  have hc : d.collect { rest := chunks.map .chunk ++ [.fail f] } = (d, .failed f) :=
    collectItems_chunks [.fail f] chunks "" d
  rw [collectWithin, hc]

theorem failOwned_of_holds {id : String} (h : d.slot.state.holds id = true) (f : Failure) :
    d.failOwned id f = d.moved (.fail id f.message) := by
  rcases failOwned_cases (d := d) id f with ⟨_, he⟩ | ⟨hn, _⟩
  · exact he
  · rw [h] at hn
    cases hn

/-- A stream that ends is complete. -/
theorem continueOpening_ends (hs : d.slot.Sends x.requestId token) (attempt : Nat)
    (limit : Option Limit) (chunks : List String) :
    d.continueOpening x attempt token limit { rest := [] } (chunks.map .chunk) =
      let d₁ := ((d.moved (.stream x.requestId)).noteAll attempt (chunks.map .chunk)).note attempt
        .complete
      d₁.finish x.requestId attempt (.completed (d₁.board.attempt attempt).text) := by
  obtain ⟨_, read⟩ := continueOpening_chunks hs attempt limit chunks []
  rw [List.append_nil] at read
  exact read

theorem continueCollecting_ends (hs : d.slot.Sends x.requestId token) (attempt : Nat)
    (limit : Option Limit) (chunks : List String) :
    d.continueCollecting x attempt token limit { rest := chunks.map .chunk } =
      d.textArrived x.requestId attempt (String.join chunks) := by
  rw [continueCollecting, if_neg (by simp [hs.untripped]), collectWithin_chunks]

/-- A stream that breaks is a fault, whatever it breaks with. -/
theorem continueOpening_fail (hs : d.slot.Sends x.requestId token) (attempt : Nat)
    (limit : Option Limit) (chunks : List String) (f : Failure) :
    d.continueOpening x attempt token limit { rest := [] } (chunks.map .chunk ++ [.fail f]) =
      ((((d.moved (.stream x.requestId)).noteAll attempt (chunks.map .chunk)).note attempt
          (.error f.message)).moved (.fail x.requestId f.message),
        .ended (.empty x.requestId (.failed f.message) d.now)) := by
  let d₁ := (d.moved (.stream x.requestId)).noteAll attempt (chunks.map .chunk)
  have slot : d₁.slot = (d.moved (.stream x.requestId)).slot := noteAll_slot _ attempt _
  have holds : (d₁.note attempt (.error f.message)).slot.state.holds x.requestId = true := by
    change d₁.slot.state.holds x.requestId = true
    rw [slot]
    exact hs.holds_stream
  have now : d₁.now = d.now := by
    obtain ⟨b, journal, hd⟩ := noteAll_eq (d.moved (.stream x.requestId)) attempt (chunks.map .chunk)
    simp only [d₁, hd]
    rfl
  obtain ⟨_, read⟩ := continueOpening_chunks hs attempt limit chunks [.fail f]
  rw [read, readItems]
  change ((d₁.note attempt (.error f.message)).failOwned x.requestId f,
    Progress.ended (.empty x.requestId (.failed f.message) d₁.now)) = _
  rw [failOwned_of_holds holds, now]

/-- Of a response that fails nothing is taken up as a whole; a fault is given back. -/
theorem continueCollecting_fail (hs : d.slot.Sends x.requestId token) (attempt : Nat)
    (limit : Option Limit) (chunks : List String) {f : Failure} (hf : f.isCancellation = false) :
    d.continueCollecting x attempt token limit { rest := chunks.map .chunk ++ [.fail f] } =
      ((d.note attempt (.error f.message)).moved (.fail x.requestId f.message),
        .ended (.empty x.requestId (.failed f.message) d.now)) := by
  have holds : (d.note attempt (.error f.message)).slot.state.holds x.requestId = true := hs.holds
  rw [continueCollecting, if_neg (by simp [hs.untripped]), collectWithin_fail]
  dsimp only
  rw [transportFailed, if_neg (by simp [hf]), finish, failOwned_of_holds holds]
  rfl

/-- Taken as a whole, a response that the transport cancels is a cancellation. -/
theorem continueCollecting_cancelled (hs : d.slot.Sends x.requestId token) (attempt : Nat)
    (limit : Option Limit) (chunks : List String) :
    (d.continueCollecting x attempt token limit { rest := chunks.map .chunk ++ [.fail .cancelled] }).2 =
      .ended (.empty x.requestId .cancelled d.now) := by
  have cancels : d.slot.cancelFor? x.requestId = some ((Move.cancel x.requestId).after d.slot) :=
    Slot.move?_of_allowed (m := .cancel x.requestId) hs.holds
  rw [continueCollecting, if_neg (by simp [hs.untripped]), collectWithin_fail]
  simp only [transportFailed, finish, cancels]
  rfl

/-- A request that enters its execution is being sent. -/
theorem phase_of_enter {draft draft' : Draft} {d' : Desk} {id : String}
    (h : d.enter draft = (d', draft', .ok id)) : d'.slot.state.phase = .sending := by
  cases hr : draft.requestId with
  | none =>
    have hb : (draft.begin false).requestId = none := by
      rw [← hr, Draft.begin]
      split <;> rfl
    rw [enter, hb] at h
    cases h
    rfl
  | some id =>
    rcases enter_cases (d := d) hr with ⟨_, _, he⟩ | ⟨_, _, sending, he⟩ | ⟨_, he⟩
    all_goals
      rw [he] at h
      cases h
    · exact sending
    · rfl

end Desk

end PromptDesk
