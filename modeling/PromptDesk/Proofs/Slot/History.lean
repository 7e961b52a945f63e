import PromptDesk.Proofs.Slot.Moves

/-! The history of a slot: every published state took the place of another, and nothing of this is
ever forgotten. As long as the slot sent fewer than 2^64 requests, no id is issued a second time. -/
namespace PromptDesk

/-- One published state takes the place of another. -/
structure Change where
  before : PhaseState
  after : PhaseState
  deriving DecidableEq, Repr

namespace Change

/-- A request enters a state that ends it. -/
def ends (c : Change) (id : String) : Bool := c.after.isFor id && c.after.isTerminal

/-- A request enters the state of a cancelled one. -/
def cancels (c : Change) (id : String) : Bool := c.after.isFor id && c.after.phase = .cancelled

def completes (c : Change) (id : String) : Bool :=
  c.before.holds id && c.after.isFor id && c.after.phase = .done

/-- The request in flight fails with an error. -/
def fails (c : Change) (id error : String) : Bool :=
  c.before.holds id && c.after.isFor id && c.after.phase = .error && c.after.lastError = error

/-- A request loses the slot: it is cancelled, or another request takes its place. -/
def loses (c : Change) (id : String) : Bool :=
  c.before.holds id && (c.cancels id || !c.after.isFor id)

theorem cancels_iff {c : Change} {id : String} :
    c.cancels id = true ↔ c.after.requestId = some id ∧ c.after.phase = .cancelled := by
  simp [cancels, PhaseState.isFor_iff]

theorem ends_of_cancels {c : Change} {id : String} (h : c.cancels id = true) :
    c.ends id = true := by
  obtain ⟨hid, hp⟩ := cancels_iff.1 h
  simp [ends, PhaseState.isFor, PhaseState.isTerminal, Phase.isTerminal, hid, hp]

theorem ends_of_completes {c : Change} {id : String} (h : c.completes id = true) :
    c.ends id = true := by
  simp only [completes, Bool.and_eq_true, decide_eq_true_eq] at h
  simp [ends, PhaseState.isTerminal, Phase.isTerminal, h.1.2, h.2]

theorem not_holds_of_ends {c : Change} {id : String} (h : c.ends id = true) (other : String) :
    c.after.holds other = false := by
  have ht : c.after.phase.isTerminal = true := (Bool.and_eq_true _ _ ▸ h).2
  have hf : c.after.phase.isInFlight = false := by
    revert ht
    cases c.after.phase <;> simp [Phase.isTerminal, Phase.isInFlight]
  simp [PhaseState.holds, PhaseState.isInFlight, hf]

end Change

namespace Slot

/-- All changes so far, the latest first. -/
def changes (s : Slot) : List Change := s.earlier.zipWith (fun b a => ⟨b, a⟩) (s.state :: s.earlier)

/-- The changes since a slot was as it is given, the latest first. -/
def changesSince (s base : Slot) : List Change := s.changes.take (s.version - base.version)

@[simp] theorem length_changes (s : Slot) : s.changes.length = s.version := by
  simp [changes, version]

@[simp] theorem changes_after (s : Slot) (m : Move) :
    (m.after s).changes = ⟨s.state, m.result s⟩ :: s.changes := rfl

@[simp] theorem changesSince_self (s : Slot) : s.changesSince s = [] := by simp [changesSince]

theorem changesSince_eq {s t : Slot} {l : List Change} (h : t.changes = l ++ s.changes) :
    t.changesSince s = l := by
  have hl : t.version = l.length + s.version := by
    rw [← length_changes t, h, List.length_append, length_changes]
  rw [changesSince, h, hl, Nat.add_sub_cancel]
  exact List.take_left

@[simp] theorem changesSince_after (s : Slot) (m : Move) :
    (m.after s).changesSince s = [⟨s.state, m.result s⟩] := changesSince_eq (changes_after s m)

variable {rule : Slot → Move → Prop} {s t u : Slot} {r : String}

theorem Path.changes_eq (h : Path rule s t) : t.changes = t.changesSince s ++ s.changes := by
  have hl : ∃ l, t.changes = l ++ s.changes := by
    refine h.invariant (fun a => ∃ l, a.changes = l ++ s.changes) ⟨[], rfl⟩ ?_
    rintro a m ⟨l, hl⟩ _ _
    exact ⟨⟨a.state, m.result a⟩ :: l, by rw [changes_after, hl, List.cons_append]⟩
  obtain ⟨l, hl⟩ := hl
  rw [changesSince_eq hl, hl]

theorem Path.changesSince_trans {rule' : Slot → Move → Prop} (h : Path rule s t)
    (h' : Path rule' t u) : u.changesSince s = u.changesSince t ++ t.changesSince s := by
  apply changesSince_eq
  rw [List.append_assoc, ← h.changes_eq, ← h'.changes_eq]

theorem Path.changesSince_after (h : Path rule s t) (m : Move) :
    (m.after t).changesSince s = ⟨t.state, m.result t⟩ :: t.changesSince s := by
  apply changesSince_eq
  rw [changes_after, h.changes_eq, List.cons_append]

/-- What holds of a start and is kept by every move, with the changes so far in view, holds at the
end of a path. -/
theorem Path.since_invariant (h : Path rule s t) (good : List Change → Slot → Prop) (hs : good [] s)
    (step : ∀ l a m, good l a → Path rule s a → rule a m → m.Allowed a.state →
      good (⟨a.state, m.result a⟩ :: l) (m.after a)) : good (t.changesSince s) t := by
  induction h with
  | refl => rwa [changesSince_self]
  | tail hp hm ih =>
    obtain ⟨m, hr, hm⟩ := hm
    obtain ⟨ha, rfl⟩ := move?_eq_some_iff.1 hm
    rw [Path.changesSince_after hp]
    exact step _ _ m ih hp hr ha

theorem Path.mono {rule' : Slot → Move → Prop} (h : Path rule s t)
    (hr : ∀ a m, rule a m → rule' a m) : Path rule' s t := by
  induction h with
  | refl => exact .refl
  | tail _ hm ih =>
    obtain ⟨m, hm, he⟩ := hm
    exact ih.tail ⟨m, hr _ _ hm, he⟩

theorem tokens_le_after (s : Slot) (m : Move) : s.tokens.length ≤ (m.after s).tokens.length := by
  cases m <;> simp [Move.after, Move.tokens]

theorem Path.tokens_le (h : Path rule s t) : s.tokens.length ≤ t.tokens.length :=
  h.invariant (fun a => s.tokens.length ≤ a.tokens.length) (Nat.le_refl _)
    fun a m ha _ _ => Nat.le_trans ha (tokens_le_after a m)

/-- Different numbers have different ids. -/
theorem idText_injective {m n : UInt64} (h : idText m = idText n) : m = n := by
  have h' : Text.decimalText m.toNat = Text.decimalText n.toNat := by
    simpa [idText, String.ext_iff] using h
  exact UInt64.toNat_inj.1 (Text.decimalText_injective h')

/-- Every issued id belongs to a request that was sent. -/
def Counted (s : Slot) : Prop := ∃ k < s.tokens.length, s.issued = UInt64.ofNat k

/-- An id that was issued. -/
def Issued (s : Slot) (id : String) : Prop :=
  ∃ n k, 0 < n ∧ n ≤ k ∧ k < s.tokens.length ∧ s.issued = UInt64.ofNat k ∧
    id = idText (UInt64.ofNat n)

/-- Fewer than 2^64 requests were sent. -/
def Unwrapped (s : Slot) : Prop := s.tokens.length ≤ 2 ^ 64

theorem Unwrapped.lt_of_send {id : Option String} (h : ((Move.send id).after s).Unwrapped) :
    s.tokens.length < 2 ^ 64 := by
  have hl : (s.tokens ++ [false]).length ≤ 2 ^ 64 := h
  rwa [List.length_append] at hl

theorem counted_new : Counted {} := ⟨0, by decide, rfl⟩

theorem Counted.after (h : s.Counted) (m : Move) : (m.after s).Counted := by
  obtain ⟨k, hk, hi⟩ := h
  cases m with
  | send id =>
    cases id with
    | none => exact ⟨k + 1, by simpa [Move.after, Move.tokens] using hk, by
        simp [Move.after, Move.issued, hi, UInt64.ofNat_add]⟩
    | some id => exact ⟨k, by simp [Move.after, Move.tokens]; omega, hi⟩
  | stream id | complete id | fail id error | cancel id =>
    exact ⟨k, by simpa [Move.after, Move.tokens] using hk, hi⟩

theorem Issued.after {id : String} (h : s.Issued id) (m : Move) : (m.after s).Issued id := by
  obtain ⟨n, k, hn, hnk, hk, hi, rfl⟩ := h
  cases m with
  | send id =>
    cases id with
    | none => exact ⟨n, k + 1, hn, by omega, by simpa [Move.after, Move.tokens] using hk, by
        simp [Move.after, Move.issued, hi, UInt64.ofNat_add], rfl⟩
    | some id => exact ⟨n, k, hn, hnk, by simp [Move.after, Move.tokens]; omega, hi, rfl⟩
  | stream id | complete id | fail id error | cancel id =>
    exact ⟨n, k, hn, hnk, by simpa [Move.after, Move.tokens] using hk, hi, rfl⟩

theorem Counted.issued_nextId (h : s.Counted) : ((Move.send none).after s).Issued s.nextId := by
  obtain ⟨k, hk, hi⟩ := h
  refine ⟨k + 1, k + 1, by omega, Nat.le_refl _, by simpa [Move.after, Move.tokens] using hk, ?_, ?_⟩
  · simp [Move.after, Move.issued, hi, UInt64.ofNat_add]
  · simp [nextId, hi, UInt64.ofNat_add]

theorem Path.counted (h : Path rule s t) (hs : s.Counted) : t.Counted :=
  h.invariant Counted hs fun _ m ha _ _ => ha.after m

theorem Path.issued {id : String} (h : Path rule s t) (hs : s.Issued id) : t.Issued id :=
  h.invariant (fun a => a.Issued id) hs fun _ m ha _ _ => ha.after m

/-- Where no id was issued since, no id counts as issued that did not before. -/
theorem Issued.before {id : String} (h : t.Issued id) (hs : s.Counted)
    (hle : s.tokens.length ≤ t.tokens.length) (ht : t.Unwrapped) (he : t.issued = s.issued) :
    s.Issued id := by
  obtain ⟨n, k, hn, hnk, hk, hi, rfl⟩ := h
  obtain ⟨k', hk', hi'⟩ := hs
  have hb : t.tokens.length ≤ 2 ^ 64 := ht
  have hkk : k = k' := by
    have hc := congrArg UInt64.toNat (hi.symm.trans (he.trans hi'))
    rwa [UInt64.toNat_ofNat_of_lt' (by rw [UInt64.size]; omega),
      UInt64.toNat_ofNat_of_lt' (by rw [UInt64.size]; omega)] at hc
  exact ⟨n, k, hn, hnk, hkk ▸ hk', he ▸ hi, rfl⟩

/-- An id that was issued is not issued again. -/
theorem Issued.nextId_ne {id : String} (h : s.Issued id) (hb : s.tokens.length < 2 ^ 64) :
    s.nextId ≠ id := by
  obtain ⟨n, k, hn, hnk, hk, hi, rfl⟩ := h
  intro he
  have he' := congrArg UInt64.toNat (idText_injective he)
  rw [hi, ← UInt64.ofNat_one, ← UInt64.ofNat_add, UInt64.toNat_ofNat_of_lt' (by
    rw [UInt64.size]; omega), UInt64.toNat_ofNat_of_lt' (by rw [UInt64.size]; omega)] at he'
  omega

end Slot

end PromptDesk
