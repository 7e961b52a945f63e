import PromptDesk.Proofs.Slot.History

/-! Who takes the slot from whom. A request that was claimed waits until its execution begins: it is
being sent, or it was cancelled. As long as that is so, the slot changes hands under way only when a
cancelled request takes it back. -/
namespace PromptDesk

/-- The slot goes to another request while one is in flight. -/
def Change.isHandover (c : Change) : Bool :=
  c.before.isInFlight && c.before.requestId != c.after.requestId

namespace Slot

/-- A request took the slot from another one in flight, although it had been cancelled before. -/
def TookBack (s : Slot) : Prop :=
  ∃ l c l' r, s.changes = l ++ c :: l' ∧ c.isHandover = true ∧ c.after.isFor r = true ∧
    ∃ c' ∈ l', c'.cancels r = true

/-- The slot never changed hands while a request was in flight. -/
def SingleFlight (s : Slot) : Prop := ∀ c ∈ s.changes, c.isHandover = false

/-- A claimed request is being sent, or it was cancelled. -/
def Waiting (s : Slot) (p : String) : Prop :=
  s.state.holds p = true ∧ s.state.phase = .sending ∨ ∃ c ∈ s.changes, c.cancels p = true

/-- What requests that wait for their executions, and those in execution, know of the slot. -/
structure Fair (waiting executing : List String) (s : Slot) : Prop where
  sound : s.Sound
  counted : s.Counted
  issued : ∀ p, p ∈ waiting ∨ p ∈ executing → s.Issued p
  distinct : s.Unwrapped → waiting.Nodup ∧ ∀ p ∈ waiting, p ∉ executing
  single : s.Unwrapped → (s.SingleFlight ∧ ∀ p ∈ waiting, s.Waiting p) ∨ s.TookBack

variable {P P' E E' : List String} {s : Slot} {m : Move} {p q : String}

theorem fair_new : Fair [] [] {} where
  sound := sound_new
  counted := counted_new
  issued _ h := by simp at h
  distinct _ := by simp
  single _ := .inl ⟨by simp [SingleFlight, changes], by simp⟩

theorem TookBack.after (h : s.TookBack) (m : Move) : (m.after s).TookBack := by
  obtain ⟨l, c, l', r, hs, h⟩ := h
  exact ⟨⟨s.state, m.result s⟩ :: l, c, l', r, by rw [changes_after, hs, List.cons_append], h⟩

theorem not_singleFlight_of_tookBack (h : s.TookBack) : ¬ s.SingleFlight := by
  obtain ⟨l, c, l', _, hs, hc, _⟩ := h
  intro hf
  rw [hf c (by simp [hs])] at hc
  cases hc

theorem SingleFlight.after (h : s.SingleFlight)
    (hm : (Change.mk s.state (m.result s)).isHandover = false) : (m.after s).SingleFlight := by
  intro c hc
  rcases List.mem_cons.1 hc with rfl | hc
  · exact hm
  · exact h c hc

theorem waiting_after_of_cancelled (h : ∃ c ∈ s.changes, c.cancels p = true) (m : Move) :
    (m.after s).Waiting p :=
  .inr (h.imp fun _ hc => ⟨List.mem_cons_of_mem _ hc.1, hc.2⟩)

theorem Waiting.cancelled (h : s.Waiting p) (hs : s.state.holds p = false) :
    ∃ c ∈ s.changes, c.cancels p = true := by
  rcases h with ⟨hh, _⟩ | h
  · rw [hs] at hh
    cases hh
  · exact h

namespace Fair

theorem of_subperm (h : Fair P E s) (hp : P'.Subperm P) : Fair P' E s where
  sound := h.sound
  counted := h.counted
  issued p hm := h.issued p (hm.imp_left fun hm => hp.subset hm)
  distinct hb := by
    obtain ⟨hn, hd⟩ := h.distinct hb
    obtain ⟨l, hl, hs⟩ := hp
    exact ⟨hl.nodup_iff.1 (hn.sublist hs), fun p hm => hd p (hs.subset (hl.mem_iff.2 hm))⟩
  single hb := (h.single hb).imp_left fun ⟨hf, hw⟩ => ⟨hf, fun p hm => hw p (hp.subset hm)⟩

theorem retire (h : Fair (p :: P) E s) : Fair P (p :: E) s where
  sound := h.sound
  counted := h.counted
  issued q hm := h.issued q <| hm.elim (fun hq => .inl (List.mem_cons_of_mem _ hq)) fun hq =>
    (List.mem_cons.1 hq).imp (fun he => by simp [he]) id
  distinct hb := by
    obtain ⟨hn, hd⟩ := h.distinct hb
    obtain ⟨hp, hn⟩ := List.nodup_cons.1 hn
    refine ⟨hn, fun q hq he => ?_⟩
    rcases List.mem_cons.1 he with rfl | he
    · exact hp hq
    · exact hd q (List.mem_cons_of_mem _ hq) he
  single hb := (h.single hb).imp_left fun ⟨hf, hw⟩ => ⟨hf, fun q hq => hw q (List.mem_cons_of_mem _ hq)⟩

/-- What holds of everybody after a move if it holds of those who wait. -/
theorem after (h : Fair P E s) (ha : m.Allowed s.state)
    (issued : ∀ p, p ∈ P' ∨ p ∈ E' → (m.after s).Issued p)
    (distinct : (m.after s).Unwrapped → P'.Nodup ∧ ∀ p ∈ P', p ∉ E')
    (single : s.Unwrapped → s.SingleFlight → (∀ p ∈ P, s.Waiting p) →
      ((m.after s).SingleFlight ∧ ∀ p ∈ P', (m.after s).Waiting p) ∨ (m.after s).TookBack) :
    Fair P' E' (m.after s) where
  sound := h.sound.after ha
  counted := h.counted.after m
  issued := issued
  distinct := distinct
  single hb := by
    have hs : s.Unwrapped := Nat.le_trans (tokens_le_after s m) hb
    rcases h.single hs with ⟨hf, hw⟩ | ht
    · exact single hs hf hw
    · exact .inr (ht.after m)

theorem claim (h : Fair P E s) (hf : s.state.isInFlight = false) :
    Fair (s.nextId :: P) E ((Move.send none).after s) := by
  refine h.after trivial ?_ ?_ ?_
  · rintro p (hp | hp)
    · rcases List.mem_cons.1 hp with rfl | hp
      · exact h.counted.issued_nextId
      · exact (h.issued p (.inl hp)).after _
    · exact (h.issued p (.inr hp)).after _
  · intro hb
    have hl := Unwrapped.lt_of_send hb
    obtain ⟨hn, hd⟩ := h.distinct (Nat.le_of_lt hl)
    have hnew : ∀ p, p ∈ P ∨ p ∈ E → s.nextId ≠ p := fun p hp => (h.issued p hp).nextId_ne hl
    refine ⟨List.nodup_cons.2 ⟨fun hp => hnew _ (.inl hp) rfl, hn⟩, fun p hp he => ?_⟩
    rcases List.mem_cons.1 hp with rfl | hp
    · exact hnew _ (.inr he) rfl
    · exact hd p hp he
  · intro _ hsf hw
    refine .inl ⟨hsf.after (by simp [Change.isHandover, hf]), fun p hp => ?_⟩
    rcases List.mem_cons.1 hp with rfl | hp
    · refine .inl ⟨?_, rfl⟩
      simp [PhaseState.holds, PhaseState.isFor, Move.result, PhaseState.isInFlight,
        Phase.isInFlight]
    · exact waiting_after_of_cancelled ((hw p hp).cancelled (by simp [PhaseState.holds, hf])) _

/-- A waiting request that lost the slot is sent again. That takes the slot back if another request
is in flight. -/
theorem resend (h : Fair (p :: P) E s)
    (hp : s.state.isFor p = true → s.state.phase ≠ .sending) :
    Fair P (p :: E) ((Move.send (some p)).after s) := by
  refine h.after trivial (fun q hq => (h.retire.issued q hq).after _) (fun hb => ?_) ?_
  · exact h.retire.distinct (Nat.le_trans (tokens_le_after s _) hb)
  · intro hs hsf hw
    have hcan : ∃ c ∈ s.changes, c.cancels p = true := by
      rcases hw p List.mem_cons_self with ⟨hh, hphase⟩ | hc
      · exact absurd hphase (hp (PhaseState.isFor_iff.2 (PhaseState.holds_iff.1 hh).1))
      · exact hc
    cases hc : (Change.mk s.state ((Move.send (some p)).result s)).isHandover with
    | true =>
      refine .inr ⟨[], _, s.changes, p, rfl, hc, ?_, hcan⟩
      simp [Move.target]
    | false =>
      refine .inl ⟨hsf.after hc, fun q hq => ?_⟩
      refine waiting_after_of_cancelled ((hw q (List.mem_cons_of_mem _ hq)).cancelled ?_) _
      -- another request that holds the slot would have been handed over
      by_contra hh
      rw [Bool.not_eq_false] at hh
      obtain ⟨hid, hf⟩ := PhaseState.holds_iff.1 hh
      have hqp : q ≠ p := fun he => (List.nodup_cons.1 (h.distinct hs).1).1 (he ▸ hq)
      simp [Change.isHandover, hf, hid, Move.result, hqp] at hc

/-- A request in execution makes a move of its own, or any request is cancelled. -/
theorem serve (h : Fair P E s) (ha : m.Allowed s.state)
    (hm : (∃ r, m = .cancel r) ∨ (∀ id, m ≠ .send id) ∧ m.target s ∈ E) :
    Fair P E (m.after s) := by
  have hsend : ∀ id, m ≠ .send id := by
    rcases hm with ⟨r, rfl⟩ | hm
    · exact fun _ => nofun
    · exact hm.1
  have hh := ha.holds_target hsend
  have hid := (PhaseState.holds_iff.1 hh).1
  refine h.after ha (fun p hp => (h.issued p hp).after m) (fun hb => ?_) ?_
  · exact h.distinct (Nat.le_trans (tokens_le_after s m) hb)
  · intro hs hsf hw
    have hc : (Change.mk s.state (m.result s)).isHandover = false := by
      have hr : (m.result s).requestId = some (m.target s) := by
        cases m <;> rfl
      simp [Change.isHandover, hid, hr]
    refine .inl ⟨hsf.after hc, fun p hp => ?_⟩
    by_cases hpt : s.state.holds p = true
    · obtain rfl := PhaseState.holds_unique hpt hh
      rcases hm with ⟨r, rfl⟩ | ⟨_, he⟩
      · refine .inr ⟨⟨s.state, _⟩, List.mem_cons_self, ?_⟩
        simp [Change.cancels, Move.result, Move.target, PhaseState.isFor]
      · exact absurd he ((h.distinct hs).2 _ hp)
    · exact waiting_after_of_cancelled ((hw p hp).cancelled (by simpa using hpt)) m

end Fair

end Slot

end PromptDesk
