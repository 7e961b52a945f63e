import PromptDesk.Proofs.Slot.History

/-! The slot of one request. Others may cancel it or send requests of their own, and a request that
lost the slot never enters a state again unless it is sent anew; hence it ends at most once. -/
namespace PromptDesk.Slot

/-- A move that does not send a request under this id. -/
def Unsent (r : String) (s : Slot) : Move → Prop
  | .send id => id.getD s.nextId ≠ r
  | .stream _ | .complete _ | .fail _ _ | .cancel _ => True

/-- A move of others: all that may happen to a request is that it is cancelled. -/
def Others (r : String) (_ : Slot) : Move → Prop
  | .send (some id) | .stream id | .complete id | .fail id _ => id ≠ r
  | .send none | .cancel _ => True

/-- A move of others, or the request begins to stream. -/
def Working (r : String) (s : Slot) (m : Move) : Prop := Others r s m ∨ m = .stream r

variable {rule : Slot → Move → Prop} {s t : Slot} {r : String} {m : Move}

theorem Path.working (h : Path (Others r) s t) : Path (Working r) s t := h.mono fun _ _ => .inl

theorem Working.unsent (h : Working r s m) (hi : s.Issued r) (hb : (m.after s).Unwrapped) :
    Unsent r s m := by
  cases m with
  | send id =>
    cases id with
    | none => exact hi.nextId_ne hb.lt_of_send
    | some id => exact h.elim (fun h => h) fun h => nomatch h
  | stream id | complete id | fail id error | cancel id => trivial

/-- As long as no id is issued twice, a request at work is not sent anew. -/
theorem Path.unsent (h : Path (Working r) s t) (hi : s.Issued r) (hb : t.Unwrapped) :
    Path (fun a m => Working r a m ∧ Unsent r a m) s t := by
  induction h with
  | refl => exact .refl
  | tail hp hm ih =>
    obtain ⟨m, hr, hm⟩ := hm
    obtain ⟨ha, rfl⟩ := move?_eq_some_iff.1 hm
    exact (ih (Nat.le_trans (tokens_le_after _ m) hb)).tail
      ⟨m, ⟨hr, hr.unsent (Path.issued hp hi) hb⟩, hm⟩

theorem Path.sentOnce (h : Path (Working r) s t) (hi : s.Issued r) (hb : t.Unwrapped) :
    Path (Unsent r) s t := (h.unsent hi hb).mono fun _ _ hr => hr.2

/-- A request at work that makes a move of its own other than to be sent, and is left alone then. -/
theorem Path.through {v : Slot} (h : Path (Working r) s t) (hi : s.Issued r) (hb : v.Unwrapped)
    (hm : Unsent r t m) (ha : m.Allowed t.state) (hv : Path (Others r) (m.after t) v) :
    Path (Unsent r) s t ∧ Path (Unsent r) (m.after t) v ∧ Path (Unsent r) s v ∧
      v.changesSince s =
        v.changesSince (m.after t) ++ ⟨t.state, m.result t⟩ :: t.changesSince s := by
  have hstep : Path (Unsent r) t (m.after t) := .single hm (move?_of_allowed ha)
  have hbt : t.Unwrapped := Nat.le_trans (tokens_le_after t m) (Nat.le_trans hv.tokens_le hb)
  have hst := h.sentOnce hi hbt
  have htv := hv.working.sentOnce (hstep.issued (h.issued hi)) hb
  refine ⟨hst, htv, (hst.trans hstep).trans htv, ?_⟩
  rw [← h.changesSince_after m]
  exact Path.changesSince_trans (hst.trans hstep) htv

theorem target_ne (hu : Unsent r s m) (ha : m.Allowed s.state) (hs : s.state.holds r = false) :
    m.target s ≠ r := by
  cases m with
  | send id => exact hu
  | stream id | complete id | fail id error | cancel id =>
    rintro rfl
    have hh := ha.holds_target (fun _ h => nomatch h)
    rw [hs] at hh
    cases hh

theorem not_isFor_result (hu : Unsent r s m) (ha : m.Allowed s.state)
    (hs : s.state.holds r = false) : (m.result s).isFor r = false := by
  simpa using target_ne hu ha hs

theorem not_holds_of_not_isFor {a : PhaseState} (h : a.isFor r = false) : a.holds r = false := by
  simp [PhaseState.holds, h]

/-- A request that lost the slot never enters a state again. -/
theorem Path.lost (h : Path (Unsent r) s t) (hs : s.state.holds r = false) :
    t.state.holds r = false ∧ ∀ c ∈ t.changesSince s, c.after.isFor r = false := by
  refine h.since_invariant
    (fun l a => a.state.holds r = false ∧ ∀ c ∈ l, c.after.isFor r = false)
    ⟨hs, by simp⟩ fun l a m hl _ hu ha => ?_
  have hf := not_isFor_result hu ha hl.1
  refine ⟨not_holds_of_not_isFor hf, fun c hc => ?_⟩
  rcases List.mem_cons.1 hc with rfl | hc
  · exact hf
  · exact hl.2 c hc

theorem not_ends_of_not_isFor {c : Change} (h : c.after.isFor r = false) : c.ends r = false := by
  simp [Change.ends, h]

/-- A request ends at most once, and from then on it does not hold the slot. -/
theorem Path.ends_once (h : Path (Unsent r) s t) :
    (t.changesSince s).countP (·.ends r) ≤ 1 ∧
      (0 < (t.changesSince s).countP (·.ends r) → t.state.holds r = false) := by
  refine h.since_invariant (fun l a => l.countP (·.ends r) ≤ 1 ∧
    (0 < l.countP (·.ends r) → a.state.holds r = false)) (by simp) fun l a m hl _ hu ha => ?_
  rw [List.countP_cons]
  by_cases hh : a.state.holds r = true
  · have h0 : l.countP (·.ends r) = 0 := by
      refine Nat.eq_zero_of_not_pos fun hp => ?_
      rw [hl.2 hp] at hh
      cases hh
    refine ⟨by rw [h0]; split <;> omega, fun hp => ?_⟩
    split at hp
    · exact Change.not_holds_of_ends ‹_› r
    · omega
  · have hf := not_isFor_result hu ha (by simpa using hh)
    have he : (Change.mk a.state (m.result a)).ends r = false := not_ends_of_not_isFor hf
    rw [he]
    exact ⟨hl.1, fun _ => not_holds_of_not_isFor hf⟩

/-- Once a request was cancelled it never holds the slot again, and as long as the slot names it, the
cancellation is on record. -/
theorem Path.cancelled (h : Path (Unsent r) s t) :
    (t.changesSince s).Pairwise
        (fun later earlier => earlier.cancels r = true → later.after.holds r = false) ∧
      ((∃ c ∈ t.changesSince s, c.cancels r = true) → t.state.holds r = false ∧
        (t.state.isFor r = true → t.state.cancelRequested = true)) := by
  refine h.since_invariant (fun l a => l.Pairwise
      (fun later earlier => earlier.cancels r = true → later.after.holds r = false) ∧
    ((∃ c ∈ l, c.cancels r = true) → a.state.holds r = false ∧
      (a.state.isFor r = true → a.state.cancelRequested = true))) (by simp) fun l a m hl _ hu ha => ?_
  have hgone : (∃ c ∈ l, c.cancels r = true) → (m.result a).isFor r = false := fun hc =>
    not_isFor_result hu ha (hl.2 hc).1
  refine ⟨List.pairwise_cons.2 ⟨fun c hc hcr => ?_, hl.1⟩, ?_⟩
  · exact not_holds_of_not_isFor (hgone ⟨c, hc, hcr⟩)
  · rintro ⟨c, hc, hcr⟩
    rcases List.mem_cons.1 hc with rfl | hc
    · refine ⟨Change.not_holds_of_ends (Change.ends_of_cancels hcr) r, fun _ => ?_⟩
      cases m with
      | cancel id => rfl
      | send id | stream id | complete id | fail id error =>
        simp [Change.cancels, Move.result] at hcr
    · have hf := hgone ⟨c, hc, hcr⟩
      exact ⟨not_holds_of_not_isFor hf, fun hf' => absurd hf' (by simp [hf])⟩

/-- While a request is at work, nobody completes it or makes it fail. -/
theorem Path.unfinished (h : Path (Working r) s t) :
    ∀ c ∈ t.changesSince s, c.completes r = false ∧ ∀ error, c.fails r error = false := by
  refine h.since_invariant (fun l _ => ∀ c ∈ l, c.completes r = false ∧ ∀ e, c.fails r e = false)
    (by simp) fun l a m hl _ hr _ c hc => ?_
  rcases List.mem_cons.1 hc with rfl | hc
  · cases m with
    | send id | stream id | cancel id => simp [Change.completes, Change.fails, Move.result]
    | complete id | fail id error =>
      have hne : id ≠ r := hr.resolve_right (by simp)
      simp [Change.completes, Change.fails, Move.result, PhaseState.isFor, hne]
  · exact hl c hc

theorem loses_of_not_holds (hr : Working r s m) (hs : s.state.holds r = true)
    (ht : (m.result s).holds r = false) : (Change.mk s.state (m.result s)).loses r = true := by
  by_cases hm : m.target s = r
  · cases m with
    | send id | stream id =>
      rw [PhaseState.holds, Move.isFor_result, hm] at ht
      simp [Move.result, PhaseState.isInFlight, Phase.isInFlight] at ht
    | complete id | fail id error => exact absurd hm (hr.resolve_right (by simp))
    | cancel id =>
      have hc : id = r := hm
      simp [Change.loses, Change.cancels, hs, Move.result, hc, PhaseState.isFor]
  · simp [Change.loses, hs, hm]

theorem Path.loss (h : Path (Working r) s t) (hs : s.state.holds r = true)
    (ht : t.state.holds r = false) : ∃ c ∈ t.changesSince s, c.loses r = true := by
  have hl : t.state.holds r = true ∨ ∃ c ∈ t.changesSince s, c.loses r = true := by
    refine h.since_invariant (fun l a => a.state.holds r = true ∨ ∃ c ∈ l, c.loses r = true)
      (.inl hs) fun l a m hl _ hr ha => ?_
    rcases hl with hh | ⟨c, hc, hl⟩
    · by_cases hf : (m.after a).state.holds r = true
      · exact .inl hf
      · refine .inr ⟨_, List.mem_cons_self, ?_⟩
        exact loses_of_not_holds hr hh (by simpa using hf)
    · exact .inr ⟨c, List.mem_cons_of_mem _ hc, hl⟩
  exact hl.resolve_left (by simp [ht])

theorem isTripped_after {k : Nat} (h : s.isTripped k = true) (m : Move) :
    (m.after s).isTripped k = true := by
  have hk : k < s.tokens.length := by
    by_contra hk
    simp [isTripped, List.getElem?_eq_none (Nat.le_of_not_lt hk)] at h
  cases m with
  | send id => simpa [isTripped, Move.after, Move.tokens, List.getElem?_append_left hk] using h
  | cancel id =>
    by_cases he : s.armed = k
    · simp [isTripped, Move.after, Move.tokens, he, hk]
    · simpa [isTripped, Move.after, Move.tokens, he] using h
  | stream id | complete id | fail id error => exact h

/-- The token of a request stays the current one while the request holds the slot, and it is
tripped when the request is cancelled. -/
theorem Path.token (h : Path (fun a m => Working r a m ∧ Unsent r a m) s t) (hs : s.Sound)
    (hh : s.state.holds r = true) :
    (t.state.holds r = true → t.armed = s.armed) ∧
      ((∃ c ∈ t.changesSince s, c.cancels r = true) → t.isTripped s.armed = true) := by
  refine h.since_invariant (fun l a => (a.state.holds r = true → a.armed = s.armed) ∧
    ((∃ c ∈ l, c.cancels r = true) → a.isTripped s.armed = true))
    ⟨fun _ => rfl, by simp⟩ fun l a m hl hp hr ha => ?_
  have hkeep : (m.after a).state.holds r = true → a.state.holds r = true := fun hf => by
    by_contra hb
    have := not_holds_of_not_isFor (not_isFor_result hr.2 ha (by simpa using hb))
    rw [Move.after_state, this] at hf
    cases hf
  refine ⟨fun hf => ?_, ?_⟩
  · rw [← hl.1 (hkeep hf)]
    cases m with
    | send id =>
      have hne : id.getD a.nextId ≠ r := hr.2
      simp [Move.after, PhaseState.holds, hne, Move.target] at hf
    | stream id | complete id | fail id error | cancel id => rfl
  · rintro ⟨c, hc, hcr⟩
    rcases List.mem_cons.1 hc with rfl | hc
    · cases m with
      | cancel id =>
        obtain rfl : id = r := by
          simpa [Change.cancels, Move.result, PhaseState.isFor] using hcr
        have hk : s.armed < a.tokens.length := hl.1 ha ▸ (Path.sound hp hs).inRange
        simp [isTripped, Move.after, Move.tokens, hl.1 ha, hk]
      | send id | stream id | complete id | fail id error =>
        simp [Change.cancels, Move.result] at hcr
    · exact isTripped_after (hl.2 ⟨c, hc, hcr⟩) m

end PromptDesk.Slot
