import Mathlib
import PromptDesk.Request.Draft

/-! The moves of the slot: a request is sent, streamed, completed, failed or cancelled, each under
its id. A move publishes one state, and every move but sending is refused unless its request is the
one in flight. Courses of moves keep the slot sound: a request in flight is named and was not
cancelled, and its token is untripped. -/
namespace PromptDesk

namespace PhaseState

/-- The state names this request, and it is in flight. -/
def holds (s : PhaseState) (id : String) : Bool := s.isFor id && s.isInFlight

theorem isFor_iff {s : PhaseState} {id : String} : s.isFor id = true ↔ s.requestId = some id := by
  simp [isFor]

theorem holds_iff {s : PhaseState} {id : String} :
    s.holds id = true ↔ s.requestId = some id ∧ s.isInFlight = true := by
  simp [holds, isFor_iff]

/-- At most one request is in flight. -/
theorem holds_unique {s : PhaseState} {a b : String} (ha : s.holds a = true)
    (hb : s.holds b = true) : a = b := by
  rw [holds_iff] at ha hb
  exact Option.some.inj (ha.1.symm.trans hb.1)

end PhaseState

namespace Slot

/-- What happens to the slot on behalf of a request. -/
inductive Move where
  /-- A request is sent, under a fresh id if none is given. -/
  | send (id : Option String)
  | stream (id : String)
  | complete (id : String)
  | fail (id error : String)
  | cancel (id : String)
  deriving DecidableEq, Repr

/-- The slot after a move, unless the move is refused. -/
def move? (s : Slot) : Move → Option Slot
  | .send id => some (s.beginSend id).1
  | .stream id => s.beginStreamFor? id
  | .complete id => s.completeFor? id
  | .fail id error => s.failFor? id error
  | .cancel id => s.cancelFor? id

/-- The id that the next request gets. -/
def nextId (s : Slot) : String := idText (s.issued + 1)

namespace Move

/-- When a move is not refused. -/
def Allowed (s : PhaseState) : Move → Prop
  | send _ => True
  | stream id => s.holds id = true ∧ s.phase = .sending ∧ s.cancelRequested = false
  | complete id | fail id _ | cancel id => s.holds id = true

/-- The state that a move publishes. -/
def result (s : Slot) : Move → PhaseState
  | send id => { phase := .sending, requestId := some (id.getD s.nextId) }
  | stream id => { phase := .streaming, requestId := some id }
  | complete id => { phase := .done, requestId := some id }
  | fail id error =>
    { phase := .error, requestId := some id,
      lastError := if error.isEmpty then s.state.lastError else error }
  | cancel id => { phase := .cancelled, requestId := some id, cancelRequested := true }

/-- The request that a move is for. -/
def target (s : Slot) : Move → String
  | send id => id.getD s.nextId
  | stream id | complete id | fail id _ | cancel id => id

@[simp] theorem isFor_result (m : Move) (s : Slot) (id : String) :
    (m.result s).isFor id = (m.target s == id) := by
  cases m <;> simp [PhaseState.isFor, result, target]

/-- Every move but sending is for the request in flight. -/
theorem Allowed.holds_target {m : Move} {s : Slot} (h : m.Allowed s.state)
    (hm : ∀ id, m ≠ send id) : s.state.holds (m.target s) = true := by
  cases m with
  | send id => exact absurd rfl (hm id)
  | stream id => exact h.1
  | complete id | fail id error | cancel id => exact h

def tokens (s : Slot) : Move → List Bool
  | send _ => s.tokens ++ [false]
  | cancel _ => s.tokens.set s.armed true
  | stream _ | complete _ | fail _ _ => s.tokens

def armed (s : Slot) : Move → Nat
  | send _ => s.tokens.length
  | _ => s.armed

def issued (s : Slot) : Move → UInt64
  | send none => s.issued + 1
  | _ => s.issued

/-- The slot after a move that is allowed. -/
def after (m : Move) (s : Slot) : Slot where
  state := m.result s
  earlier := s.state :: s.earlier
  issued := m.issued s
  tokens := m.tokens s
  armed := m.armed s
  closed := s.closed

@[simp] theorem after_state (m : Move) (s : Slot) : (m.after s).state = m.result s := rfl

end Move

theorem applyFor?_eq_some_iff {s t : Slot} {id : String} {allowed : PhaseState → Bool}
    {e : PhaseEvent} : s.applyFor? id allowed e = some t ↔
      s.state.isFor id = true ∧ allowed s.state = true ∧ s.publish (s.state.next e) = t := by
  simp only [applyFor?, Option.ite_none_right_eq_some, Bool.and_eq_true, Option.some.injEq, apply,
    and_assoc]

/-- An event that ends a request takes effect exactly while the request holds the slot. -/
theorem applyFor?_inFlight {s t : Slot} {id : String} {e : PhaseEvent} :
    s.applyFor? id PhaseState.isInFlight e = some t ↔
      s.state.holds id = true ∧ s.publish (s.state.next e) = t := by
  rw [applyFor?_eq_some_iff, ← and_assoc, PhaseState.holds, Bool.and_eq_true]

/-- A move is refused, or the slot moves as it says. -/
theorem move?_eq_some_iff {s t : Slot} {m : Move} :
    s.move? m = some t ↔ m.Allowed s.state ∧ m.after s = t := by
  cases m with
  | send id =>
    have h : (s.beginSend id).1 = (Move.send id).after s := by cases id <;> rfl
    simp [move?, Move.Allowed, h]
  | stream id =>
    rw [move?, beginStreamFor?, applyFor?_eq_some_iff, Move.Allowed, PhaseState.holds_iff,
      ← PhaseState.isFor_iff]
    have hf : s.state.phase = .sending → s.state.isInFlight = true := fun h => by
      simp [PhaseState.isInFlight, Phase.isInFlight, h]
    simp only [Bool.and_eq_true, decide_eq_true_eq, Bool.not_eq_true']
    exact ⟨fun ⟨hid, hp, ht⟩ => ⟨⟨⟨hid, hf hp.1⟩, hp⟩, ht⟩, fun ⟨⟨⟨hid, _⟩, hp⟩, ht⟩ => ⟨hid, hp, ht⟩⟩
  | complete id =>
    rw [move?, completeFor?, applyFor?_inFlight, Move.Allowed]
    refine and_congr_right fun h => ?_
    rw [show s.state.next .complete = (Move.complete id).result s by
      simp [PhaseState.next, Move.result, (PhaseState.holds_iff.1 h).1]]
    rfl
  | fail id error =>
    rw [move?, failFor?, applyFor?_inFlight, Move.Allowed]
    refine and_congr_right fun h => ?_
    rw [show s.state.next (.fail error) = (Move.fail id error).result s by
      simp [PhaseState.next, Move.result, (PhaseState.holds_iff.1 h).1]]
    rfl
  | cancel id =>
    simp only [move?, cancelFor?, Option.map_eq_some_iff, applyFor?_inFlight, Move.Allowed,
      and_assoc, exists_and_left, exists_eq_left']
    refine and_congr_right fun h => ?_
    rw [show s.state.next .cancel = (Move.cancel id).result s by
      simp [PhaseState.next, Move.result, (PhaseState.holds_iff.1 h).1]]
    rfl

theorem move?_of_allowed {s : Slot} {m : Move} (h : m.Allowed s.state) :
    s.move? m = some (m.after s) := move?_eq_some_iff.2 ⟨h, rfl⟩

theorem move?_eq_none_iff {s : Slot} {m : Move} : s.move? m = none ↔ ¬ m.Allowed s.state := by
  refine ⟨fun h ha => ?_, fun h => ?_⟩
  · rw [move?_of_allowed ha] at h
    cases h
  · cases hm : s.move? m with
    | none => rfl
    | some t => exact absurd (move?_eq_some_iff.1 hm).1 h

/-- A request that was claimed enters its execution: it is refused, it keeps its claim, or it is
sent again. -/
theorem enter_cases (s : Slot) (id : String) :
    (s.state.isFor id = true ∧ s.state.cancelRequested = true ∧
        s.enter (some id) = (s, .error id)) ∨
      (s.state.isFor id = true ∧ s.state.cancelRequested = false ∧ s.state.phase = .sending ∧
        s.enter (some id) = (s, .ok id)) ∨
      ((s.state.isFor id = true → s.state.cancelRequested = false ∧ s.state.phase ≠ .sending) ∧
        s.enter (some id) = ((Move.send (some id)).after s, .ok id)) := by
  by_cases hf : s.state.isFor id = true
  · by_cases hc : s.state.cancelRequested = true
    · exact .inl ⟨hf, hc, by simp [enter, hf, hc]⟩
    · have hc' : s.state.cancelRequested = false := by simpa using hc
      by_cases hp : s.state.phase = .sending
      · exact .inr (.inl ⟨hf, hc', hp, by simp [enter, hf, hc', hp]⟩)
      · refine .inr (.inr ⟨fun _ => ⟨hc', hp⟩, ?_⟩)
        simp only [enter, hf, hc', hp]
        rfl
  · refine .inr (.inr ⟨fun h => absurd h hf, ?_⟩)
    simp only [enter, hf]
    rfl

/-- One move that a rule permits. -/
def Moves (rule : Slot → Move → Prop) (s t : Slot) : Prop := ∃ m, rule s m ∧ s.move? m = some t

/-- Any number of moves that a rule permits, one after the other. -/
abbrev Path (rule : Slot → Move → Prop) : Slot → Slot → Prop := Relation.ReflTransGen (Moves rule)

theorem Path.single {rule : Slot → Move → Prop} {s t : Slot} {m : Move} (hr : rule s m)
    (hm : s.move? m = some t) : Path rule s t := Relation.ReflTransGen.single ⟨m, hr, hm⟩

theorem Path.trans {rule : Slot → Move → Prop} {s t u : Slot} (h : Path rule s t)
    (h' : Path rule t u) : Path rule s u := Relation.ReflTransGen.trans h h'

theorem Path.invariant {rule : Slot → Move → Prop} {s t : Slot} (h : Path rule s t)
    (good : Slot → Prop) (hs : good s)
    (step : ∀ s m, good s → rule s m → m.Allowed s.state → good (m.after s)) : good t := by
  induction h with
  | refl => exact hs
  | tail _ hm ih =>
    obtain ⟨m, hr, hm⟩ := hm
    obtain ⟨ha, rfl⟩ := move?_eq_some_iff.1 hm
    exact step _ _ ih hr ha

/-- A slot that is in use: a request in flight is named, was not cancelled, and has a token that
nobody tripped. -/
structure Sound (s : Slot) : Prop where
  closed : s.closed = false
  named : s.state.isInFlight = true → ∃ id, s.state.requestId = some id
  wanted : s.state.isInFlight = true → s.state.cancelRequested = false
  untripped : s.state.isInFlight = true → s.isTripped s.armed = false
  inRange : s.armed < s.tokens.length

theorem sound_new : Sound {} where
  closed := rfl
  named h := absurd h (by decide)
  wanted h := absurd h (by decide)
  untripped h := absurd h (by decide)
  inRange := by decide

theorem Sound.after {s : Slot} {m : Move} (h : s.Sound) (ha : m.Allowed s.state) :
    (m.after s).Sound where
  closed := h.closed
  named _ := by cases m <;> exact ⟨_, rfl⟩
  wanted hf := by
    cases m with
    | send id | stream id | complete id | fail id error => rfl
    | cancel id => simp [Move.after, Move.result, PhaseState.isInFlight, Phase.isInFlight] at hf
  untripped hf := by
    cases m with
    | send id => simp [isTripped, Move.after, Move.tokens, Move.armed]
    | stream id => exact h.untripped (PhaseState.holds_iff.1 ha.1).2
    | complete id | fail id error | cancel id =>
      simp [Move.after, Move.result, PhaseState.isInFlight, Phase.isInFlight] at hf
  inRange := by
    have := h.inRange
    cases m <;> simp [Move.after, Move.tokens, Move.armed, this]

theorem Path.sound {rule : Slot → Move → Prop} {s t : Slot} (h : Path rule s t) (hs : s.Sound) :
    t.Sound := h.invariant Sound hs fun _ _ h _ ha => h.after ha

/-- The token of a request that was just sent. -/
theorem tokenFor?_send (s : Slot) (id? : Option String) :
    ((Move.send id?).after s).tokenFor? (id?.getD s.nextId) = some s.tokens.length := by
  simp [tokenFor?, Move.after, Move.result, Move.tokens, Move.armed, isTripped, PhaseState.isFor,
    PhaseState.isInFlight, Phase.isInFlight]

/-- The token of a request is exactly the current one while the request holds a sound slot. -/
theorem Sound.tokenFor?_eq {s : Slot} (h : s.Sound) (id : String) :
    s.tokenFor? id = if s.state.holds id then some s.armed else none := by
  by_cases hh : s.state.holds id = true
  · have hf := (PhaseState.holds_iff.1 hh).2
    have hid := PhaseState.isFor_iff.2 (PhaseState.holds_iff.1 hh).1
    simp [tokenFor?, hh, hid, hf, h.wanted hf, h.untripped hf]
  · simp only [PhaseState.holds, Bool.and_eq_true] at hh
    have hh' : (s.state.isFor id && s.state.isInFlight) = false := by simpa using hh
    simp [tokenFor?, PhaseState.holds, hh']

end Slot

end PromptDesk
