import PromptDesk.Proofs.Desk.Frame
import PromptDesk.Proofs.Slot.Moves

/-! What a desk does to its slot. A claim sends a request exactly when none is in flight; a
cancellation takes effect exactly on the request that it is meant for, and everything else about
the desk stays as it is. -/
namespace PromptDesk.Desk

open Slot (Move)

def moved (d : Desk) (m : Move) : Desk := d.withSlot (m.after d.slot)

@[simp] theorem moved_slot (d : Desk) (m : Move) : (d.moved m).slot = m.after d.slot := rfl

@[simp] theorem withSlot_slot (d : Desk) (s : Slot) : (d.withSlot s).slot = s := rfl

variable {d d' : Desk}

theorem claim_of_inFlight (hc : d.slot.closed = false) (hf : d.slot.state.isInFlight = true)
    (source : String) :
    ∃ d' reason message, d.claim source = (d', .rejected reason message) ∧ Quiet d d' := by
  have h : d.gate.tryClaim d.slot source =
      ((d.gate.reject .inFlight source).1, d.slot, .rejected .inFlight DropReason.inFlight.message) := by
    simp [Gate.tryClaim, Gate.tryBeginCurrent, Slot.read, hc, Gate.tryBegin, hf, Gate.reject]
  refine ⟨(d.claim source).1, .inFlight, DropReason.inFlight.message, ?_, ?_⟩
  · simp only [claim, h]
  · simp only [claim, h]
    exact (quiet_withSlot_self d).trans (quiet_withGate _ _ _ _ _)

/-- A claim sends a request under a fresh id while none is in flight. -/
theorem claim_of_free (hc : d.slot.closed = false) (hf : d.slot.state.isInFlight = false)
    (source : String) :
    ∃ d', d.claim source = (d', .allowed (some d.slot.nextId)) ∧ Quiet (d.moved (.send none)) d' := by
  have h : d.gate.tryClaim d.slot source =
      ({ d.gate with lastDrop := none }, (Move.send none).after d.slot,
        .allowed (some d.slot.nextId)) := by
    simp only [Gate.tryClaim, Gate.tryBeginCurrent, Slot.read, hc, Gate.tryBegin, hf,
      Bool.false_eq_true, if_false]
    rfl
  refine ⟨(d.claim source).1, ?_, ?_⟩
  · simp only [claim, h]
  · simp only [claim, h]
    exact quiet_withGate _ _ _ _ _

theorem claim_allowed {source : String} {id : Option String} (hc : d.slot.closed = false)
    (h : d.claim source = (d', .allowed id)) :
    d.slot.state.isInFlight = false ∧ id = some d.slot.nextId ∧ Quiet (d.moved (.send none)) d' := by
  cases hf : d.slot.state.isInFlight with
  | true =>
    obtain ⟨d₁, reason, message, h₁, _⟩ := claim_of_inFlight hc hf source
    rw [h₁] at h
    cases h
  | false =>
    obtain ⟨d₁, h₁, hq⟩ := claim_of_free hc hf source
    rw [h₁] at h
    cases h
    exact ⟨rfl, rfl, hq⟩

theorem claim_rejected {source message : String} {reason : DropReason}
    (h : d.claim source = (d', .rejected reason message)) : Quiet d d' := by
  have hc : d.slot.closed = false := by
    cases hc : d.slot.closed with
    | false => rfl
    | true =>
      have ha := congrArg Prod.snd h
      simp [claim, Gate.tryClaim, Gate.tryBeginCurrent, Slot.read, hc] at ha
  cases hf : d.slot.state.isInFlight with
  | true =>
    obtain ⟨d₁, reason', message', h₁, hq⟩ := claim_of_inFlight hc hf source
    rw [h₁] at h
    cases h
    exact hq
  | false =>
    obtain ⟨d₁, h₁, _⟩ := claim_of_free hc hf source
    rw [h₁] at h
    cases h

/-- A claim is let through while no request is in flight, or nobody can tell. -/
theorem claim_cases (d : Desk) (source : String) :
    ((d.slot.closed = true ∨ d.slot.state.isInFlight = false) ∧
        (d.claim source).2 = .allowed (some d.slot.nextId) ∧
          (d.claim source).1.slot = (Move.send none).after d.slot) ∨
      ((d.slot.closed = false ∧ d.slot.state.isInFlight = true) ∧
        ∃ reason message, (d.claim source).2 = .rejected reason message) := by
  cases hc : d.slot.closed with
  | true =>
    have h : d.gate.tryClaim d.slot source =
        (d.gate, (Move.send none).after d.slot, .allowed (some d.slot.nextId)) := by
      simp only [Gate.tryClaim, Gate.tryBeginCurrent, Slot.read, hc, if_true]
      rfl
    refine .inl ⟨.inl rfl, by simp only [claim, h], ?_⟩
    simp only [claim, h]
    exact (quiet_withGate _ _ _ _ _).slot
  | false =>
    cases hf : d.slot.state.isInFlight with
    | true =>
      obtain ⟨d', reason, message, h, _⟩ := claim_of_inFlight hc hf source
      exact .inr ⟨⟨rfl, rfl⟩, reason, message, by rw [h]⟩
    | false =>
      obtain ⟨d', h, hq⟩ := claim_of_free hc hf source
      exact .inl ⟨.inr rfl, by rw [h], by rw [h]; exact hq.slot⟩

theorem exists_claim_iff (d : Desk) (source : String) :
    (∃ d' id, d.claim source = (d', .allowed id)) ↔
      d.slot.closed = true ∨ d.slot.state.isInFlight = false := by
  rcases claim_cases d source with ⟨h, ha, _⟩ | ⟨⟨hc, hf⟩, reason, message, ha⟩
  · exact iff_of_true ⟨_, _, Prod.ext rfl ha⟩ h
  · refine iff_of_false (fun ⟨d', id, h⟩ => ?_) (by simp [hc, hf])
    rw [h] at ha
    cases ha

/-- A claim that is let through holds the slot. -/
theorem claim_holds {source : String} {id : Option String}
    (h : d.claim source = (d', .allowed id)) :
    ∃ r, id = some r ∧ d'.slot.state.holds r = true := by
  rcases claim_cases d source with ⟨_, ha, hs⟩ | ⟨_, _, _, ha⟩
  · rw [h] at ha hs
    refine ⟨_, Admission.allowed.inj ha, ?_⟩
    rw [show d'.slot = _ from hs]
    simp [PhaseState.holds, PhaseState.isFor, Move.result, PhaseState.isInFlight,
      Phase.isInFlight]
  · rw [h] at ha
    cases ha

theorem cancelCurrent_cases (hs : d.slot.Sound) (source : String) :
    (d.slot.state.isInFlight = false ∧ d.cancelCurrent source = (d, false)) ∨
      ∃ id, d.slot.state.holds id = true ∧ (d.cancelCurrent source).2 = true ∧
        Quiet (d.moved (.cancel id)) (d.cancelCurrent source).1 := by
  cases hf : d.slot.state.isInFlight with
  | false => exact .inl ⟨rfl, by simp [cancelCurrent, hf]⟩
  | true =>
    obtain ⟨id, hid⟩ := hs.named hf
    have hh := PhaseState.holds_iff.2 ⟨hid, hf⟩
    have hm : d.slot.cancelFor? id = some ((Move.cancel id).after d.slot) :=
      Slot.move?_of_allowed (m := .cancel id) hh
    refine .inr ⟨id, hh, ?_⟩
    simp only [cancelCurrent, hf, hid, hm, Bool.not_true, Bool.false_eq_true, if_false]
    split
    · split
      · exact ⟨rfl, quiet_withBoard _ _⟩
      · exact ⟨rfl, .refl _⟩
    · exact ⟨rfl, .refl _⟩

theorem cancelHandle_cases (hl : d.Labelled) (i : Nat) :
    (∃ id, (d.handle i).requestId = some id ∧ d.slot.state.holds id = true ∧
        d.cancelHandle i = (d.moved (.cancel id), true)) ∨
      ((∀ id, (d.handle i).cancels = true → (d.handle i).requestId = some id →
        d.slot.state.holds id = false) ∧ d.cancelHandle i = (d, false)) := by
  cases hc : (d.handle i).cancels with
  | false => exact .inr ⟨by simp, by simp [cancelHandle, hc]⟩
  | true =>
    have hi : i < d.handles.length := by
      by_contra hi
      simp [handle, List.getElem?_eq_none (Nat.le_of_not_lt hi), default] at hc
    have hmem : d.handle i ∈ d.handles := by simp [handle, List.getElem?_eq_getElem hi]
    obtain ⟨id, hid⟩ := Option.isSome_iff_exists.1 (hl _ hmem hc)
    cases hh : d.slot.state.holds id with
    | true =>
      have hm : d.slot.cancelFor? id = some ((Move.cancel id).after d.slot) :=
        Slot.move?_of_allowed (m := .cancel id) hh
      exact .inl ⟨id, hid, hh, by simp [cancelHandle, hc, hid, hm, moved]⟩
    | false =>
      have hm : d.slot.cancelFor? id = none :=
        Slot.move?_eq_none_iff (m := .cancel id).2 (by simp [Move.Allowed, hh])
      refine .inr ⟨fun id' _ h => ?_, by simp [cancelHandle, hc, hid, hm]⟩
      rw [hid] at h
      cases h
      exact hh

/-- An owned event takes effect exactly as the move that it stands for. -/
theorem owned_cases (m : Move) (yes : PhaseState → Answer) (no : Answer) :
    (m.Allowed d.slot.state ∧
        d.owned (d.slot.move? m) yes no = (d.moved m, yes (m.result d.slot))) ∨
      (¬ m.Allowed d.slot.state ∧ d.owned (d.slot.move? m) yes no = (d, no)) := by
  by_cases h : m.Allowed d.slot.state
  · exact .inl ⟨h, by rw [Slot.move?_of_allowed h]; rfl⟩
  · exact .inr ⟨h, by rw [Slot.move?_eq_none_iff.2 h]; rfl⟩

/-- Giving a slot back is a failure under the id, unless the request lost the slot before. -/
theorem failOwned_cases (id : String) (f : Failure) :
    (d.slot.state.holds id = true ∧ d.failOwned id f = d.moved (.fail id f.message)) ∨
      (d.slot.state.holds id = false ∧ d.failOwned id f = d) := by
  cases hh : d.slot.state.holds id with
  | true =>
    have hm : d.slot.failFor? id f.message = some ((Move.fail id f.message).after d.slot) :=
      Slot.move?_of_allowed (m := .fail id f.message) hh
    exact .inl ⟨rfl, by simp [failOwned, hm, moved]⟩
  | false =>
    have hm : d.slot.failFor? id f.message = none :=
      Slot.move?_eq_none_iff (m := .fail id f.message).2 (by simp [Move.Allowed, hh])
    exact .inr ⟨rfl, by simp [failOwned, hm]⟩

/-- Only the slot of the request itself is given back. -/
theorem holds_failOwned (d : Desk) (r : String) (f : Failure) (id : String) :
    (d.failOwned r f).slot.state.holds id = true ↔ id ≠ r ∧ d.slot.state.holds id = true := by
  rcases failOwned_cases (d := d) r f with ⟨hh, he⟩ | ⟨hn, he⟩
  · have hgone : (d.moved (.fail r f.message)).slot.state.holds id = false := by
      simp [PhaseState.holds, Move.result, PhaseState.isInFlight, Phase.isInFlight]
    rw [he, hgone]
    refine iff_of_false Bool.false_ne_true ?_
    rintro ⟨hne, hid⟩
    exact hne (PhaseState.holds_unique hid hh)
  · rw [he, iff_and_self]
    rintro hid rfl
    rw [hn] at hid
    cases hid

/-- A request enters its execution under the id that it was claimed with. -/
theorem enter_cases {draft : Draft} {id : String} (hd : draft.requestId = some id) :
    (d.slot.state.isFor id = true ∧ d.slot.state.cancelRequested = true ∧
        d.enter draft = (d.withSlot d.slot, draft.begin false, .error id)) ∨
      (d.slot.state.isFor id = true ∧ d.slot.state.cancelRequested = false ∧
        d.slot.state.phase = .sending ∧
        d.enter draft = (d.withSlot d.slot, { draft.begin false with requestId := some id }, .ok id)) ∨
      ((d.slot.state.isFor id = true →
          d.slot.state.cancelRequested = false ∧ d.slot.state.phase ≠ .sending) ∧
        d.enter draft =
          (d.moved (.send (some id)), { draft.begin false with requestId := some id }, .ok id)) := by
  have hb : (draft.begin false).requestId = some id := by
    rw [← hd, Draft.begin]
    split <;> rfl
  rcases d.slot.enter_cases id with ⟨hf, hc, h⟩ | ⟨hf, hc, hp, h⟩ | ⟨hn, h⟩
  · exact .inl ⟨hf, hc, by simp [enter, hb, h]⟩
  · exact .inr (.inl ⟨hf, hc, hp, by simp [enter, hb, h]⟩)
  · exact .inr (.inr ⟨hn, by simp [enter, hb, h, moved]⟩)

end PromptDesk.Desk
