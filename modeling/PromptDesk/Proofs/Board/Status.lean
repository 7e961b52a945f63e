import PromptDesk.Proofs.Board.Changes

/-! The status of an attempt. Only an end and an error change it, an error for good, and nothing that
is done with a board changes the status of an attempt that it does not concern. -/
namespace PromptDesk

namespace Note

/-- The note says that an attempt is over. -/
def isEnding : Note → Bool
  | complete | error _ => true
  | _ => false

/-- The status of an attempt after a note. An error stays an error. -/
def statusAfter : Note → StreamStatus → StreamStatus
  | complete, .errored => .errored
  | complete, _ => .completed
  | error _, _ => .errored
  | _, s => s

theorem statusAfter_of_not_isEnding {n : Note} (h : n.isEnding = false) (s : StreamStatus) :
    n.statusAfter s = s := by
  cases n <;> first | rfl | cases h

end Note

namespace Attempt

def status (a : Attempt) : StreamStatus := a.snapshot.status

theorem status_eq (a : Attempt) : a.status =
    if a.transcript.errored then .errored else if a.transcript.completed then .completed
      else .inflight := rfl

/-- A note that is logged has its effect on the status. -/
theorem status_of_record? {a a' : Attempt} {n : Note} {now : Timestamp} {e : StreamEvent}
    (h : a.record? n now = some (a', e)) : a'.status = n.statusAfter a.status := by
  unfold record? at h
  split at h
  · rename_i t ht
    cases h
    rw [status_eq, status_eq]
    cases n with
    | chunk text =>
      simp only [Transcript.note?, Transcript.chunk?] at ht
      split at ht <;> cases ht
      rfl
    | complete =>
      simp only [Transcript.note?, Transcript.complete?] at ht
      split at ht <;> cases ht
      rename_i he
      simp only [Bool.not_eq_true] at he
      cases a.transcript.completed <;> simp [he, Note.statusAfter]
    | _ =>
      cases ht
      rfl
  · cases h

/-- A note that is not logged would have had no effect. -/
theorem statusAfter_of_record? {a : Attempt} {n : Note} {now : Timestamp}
    (h : a.record? n now = none) : n.statusAfter a.status = a.status := by
  unfold record? at h
  split at h
  · cases h
  · rename_i ht
    cases n with
    | complete =>
      simp only [Transcript.note?, Transcript.complete?] at ht
      split at ht
      · rw [status_eq, if_pos ‹_›]
        rfl
      · cases ht
    | chunk text => rfl
    | _ => cases ht

end Attempt

namespace Board

variable {b b' b'' : Board} {i j : Nat}

/-- The status of an attempt is changed by a note on it as the note says. -/
theorem status_note (hi : i < b.attempts.length) (n : Note) (now : Timestamp) :
    ((b.note i n now).attempt i).status = n.statusAfter (b.attempt i).status := by
  rw [attempt_note hi, Attempt.noted]
  cases h : (b.attempt i).record? n now with
  | none => exact (Attempt.statusAfter_of_record? h).symm
  | some x => exact Attempt.status_of_record? h

/-- What the canvas says of each attempt. -/
def statuses (b : Board) : List StreamStatus := b.attempts.map Attempt.status

theorem length_note (b : Board) (i : Nat) (n : Note) (now : Timestamp) :
    (b.note i n now).attempts.length = b.attempts.length := by
  rw [note, record]
  dsimp only
  split
  · rfl
  · split <;> simp [setAttempt, attempts_publish]

theorem getElem_statuses (b : Board) (hj : j < b.statuses.length) :
    b.statuses[j] = (b.attempt j).status := by
  have hj' : j < b.attempts.length := by simpa [statuses] using hj
  simp [statuses, attempt, hj']

/-- A note changes the status of its attempt, and no other one. -/
theorem statuses_note (b : Board) (i : Nat) (n : Note) (now : Timestamp) :
    (b.note i n now).statuses = b.statuses.modify i n.statusAfter := by
  refine List.ext_getElem (by simp [statuses, length_note]) fun j hj hj' => ?_
  have hb : j < b.statuses.length := by simpa using hj'
  rw [getElem_statuses, List.getElem_modify, getElem_statuses b hb]
  split
  · rename_i hij
    subst hij
    exact status_note (by simpa [statuses] using hb) n now
  · rename_i hij
    rw [attempt_note_ne n now (Ne.symm hij)]

/-- An attempt stays, and so does its status. -/
structure KeepsStatus (i : Nat) (b b' : Board) : Prop where
  grows : b.attempts.length ≤ b'.attempts.length
  status : i < b.attempts.length → (b'.attempt i).status = (b.attempt i).status

theorem KeepsStatus.of_eq (h : b'.attempts = b.attempts) : KeepsStatus i b b' where
  grows := (congrArg List.length h).ge
  status _ := by rw [attempt, h, attempt]

/-- A use that does not say of an attempt that it is over. -/
def Use.Spares (i : Nat) : Use → Prop
  | note j n _ => j = i → n.isEnding = false
  | begin _ | beginOwned _ _ | gatingDrop _ _ _ _ _ | setAxes _ _ _ | cancelRequested _ _ _ _
  | report _ => True

theorem status_of_change {a a' : Attempt} (h : Attempt.Change (Use.Spares i) i a a') :
    a'.status = a.status := by
  cases h with
  | retires | sets => rfl
  | @logs _ n _ _ allowed logged =>
    refine (Attempt.status_of_record? logged).trans (Note.statusAfter_of_not_isEnding ?_ _)
    rcases allowed with hn | hn
    · cases n <;> first | rfl | cases hn
    · exact hn rfl

theorem KeepsStatus.of_changes (h : b.Changes (Use.Spares i) i b') : KeepsStatus i b b' where
  grows := h.grows
  status hi := by
    have hc := h.changes hi
    generalize b'.attempt i = a at hc
    induction hc with
    | refl => rfl
    | tail _ hc ih => exact (status_of_change hc).trans ih

/-- An attempt that was just added is in flight. -/
structure Fresh (b : Board) (b' : Board × Nat) : Prop where
  index : b'.2 = b.attempts.length
  bound : b'.2 < b'.1.attempts.length
  status : (b'.1.attempt b'.2).status = .inflight

theorem Fresh.of_keeps (h : b.Fresh (b', i)) (hk : b'.KeepsStatus i b'') : b.Fresh (b'', i) :=
  ⟨h.index, h.bound.trans_le hk.grows, (hk.status h.bound).trans h.status⟩

theorem Blank.fresh {requestId : String} (h : b.Blank requestId (b', i)) : b.Fresh (b', i) :=
  ⟨h.index, h.bound, by rw [Attempt.status_eq, h.transcript]; rfl⟩

end Board

end PromptDesk
