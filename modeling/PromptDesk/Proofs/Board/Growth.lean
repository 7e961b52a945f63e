import Mathlib
import PromptDesk.Board.Basic

/-! How boards grow. Attempts are only added, they keep their requests, and one that was retired stays
so; whatever becomes the current attempt retires the one before it. An attempt that was retired
writes its log and reaches no display. -/
namespace PromptDesk

namespace Attempt

/-- A note changes neither the request of an attempt nor where and whether it publishes. -/
theorem record?_eq {a a' : Attempt} {n : Note} {now : Timestamp} {e : StreamEvent}
    (h : a.record? n now = some (a', e)) :
    a'.requestId = a.requestId ∧ a'.display = a.display ∧ a'.retired = a.retired := by
  unfold record? at h
  split at h
  · cases h
    exact ⟨rfl, rfl, rfl⟩
  · cases h

end Attempt

namespace Board

/-- What may have become of a board. -/
structure Follows (b b' : Board) : Prop where
  grows : b.attempts.length ≤ b'.attempts.length
  requestId : ∀ i < b.attempts.length, (b'.attempt i).requestId = (b.attempt i).requestId
  retired : ∀ i < b.attempts.length, (b.attempt i).retired = true → (b'.attempt i).retired = true
  /-- Only by being retired does an attempt cease to be the current one. -/
  current : ∀ i < b.attempts.length, b.current = some i →
    b'.current = some i ∨ (b'.attempt i).retired = true

variable {b b' b'' : Board} {i : Nat}

namespace Follows

theorem refl (b : Board) : Follows b b := ⟨Nat.le_refl _, fun _ _ => rfl, fun _ _ => id, fun _ _ => .inl⟩

theorem trans (h : Follows b b') (h' : Follows b' b'') : Follows b b'' where
  grows := Nat.le_trans h.grows h'.grows
  requestId i hi := (h'.requestId i (Nat.lt_of_lt_of_le hi h.grows)).trans (h.requestId i hi)
  retired i hi hr := h'.retired i (Nat.lt_of_lt_of_le hi h.grows) (h.retired i hi hr)
  current i hi hc := by
    have hi' := Nat.lt_of_lt_of_le hi h.grows
    exact (h.current i hi hc).elim (h'.current i hi') fun hr => .inr (h'.retired i hi' hr)

/-- Displays and what is reported are of no concern to attempts. -/
theorem of_eq (ha : b'.attempts = b.attempts) (hc : b'.current = b.current) : Follows b b' := by
  have hat : ∀ i, b'.attempt i = b.attempt i := fun i => by rw [attempt, ha, attempt]
  refine ⟨by rw [ha], fun i _ => by rw [hat], fun i _ h => by rwa [hat], fun i _ h => .inl ?_⟩
  rw [hc, h]

end Follows

theorem attempt_setAttempt (b : Board) (a : Attempt) (i j : Nat) :
    (b.setAttempt i a).attempt j = if i = j ∧ j < b.attempts.length then a else b.attempt j := by
  simp only [attempt, setAttempt, List.getD_eq_getElem?_getD, List.getElem?_set]
  by_cases hij : i = j
  · subst hij
    by_cases hi : i < b.attempts.length <;> simp [hi]
  · simp [hij]

theorem follows_setAttempt (b : Board) {a : Attempt}
    (hid : i < b.attempts.length → a.requestId = (b.attempt i).requestId)
    (hr : i < b.attempts.length → (b.attempt i).retired = true → a.retired = true) :
    Follows b (b.setAttempt i a) where
  grows := by simp [setAttempt]
  requestId j hj := by
    rw [attempt_setAttempt]
    split
    · obtain ⟨rfl, _⟩ := ‹i = j ∧ _›
      exact hid hj
    · rfl
  retired j hj h := by
    rw [attempt_setAttempt]
    split
    · obtain ⟨rfl, _⟩ := ‹i = j ∧ _›
      exact hr hj h
    · exact h
  current _ _ := .inl

theorem follows_publish (b : Board) (i : Nat) : Follows b (b.publish i) := by
  rw [publish]
  split
  · exact .refl b
  · exact .of_eq rfl rfl

theorem follows_record (b : Board) (i : Nat) (n : Note) (now : Timestamp) :
    Follows b (b.record i n now).1 := by
  rw [record]
  dsimp only
  split
  · exact .refl b
  · rename_i a' e h
    obtain ⟨hid, _, hr⟩ := Attempt.record?_eq h
    have hset := follows_setAttempt b (i := i) (fun _ => hid) fun _ h => hr.trans h
    refine (hset.trans (follows_publish _ i)).trans ?_
    split <;> exact .of_eq rfl rfl

theorem follows_note (b : Board) (i : Nat) (n : Note) (now : Timestamp) :
    Follows b (b.note i n now) := follows_record b i n now

theorem attempt_append (b : Board) (as : List Attempt) (hi : i < b.attempts.length) :
    attempt { b with attempts := b.attempts ++ as } i = b.attempt i := by
  simp [attempt, List.getElem?_append_left hi]

theorem follows_add (b : Board) (requestId : String) (display : Nat) (reports retired : Bool) :
    Follows b (b.add requestId display reports retired).1 := by
  refine Follows.trans ?_ (follows_publish { b with attempts := b.attempts ++ _ } _)
  refine ⟨by simp, fun i hi => ?_, fun i hi h => ?_, fun _ _ => .inl⟩
  · rw [attempt_append b _ hi]
  · rwa [attempt_append b _ hi]

theorem follows_retireCurrent (b : Board) : Follows b b.retireCurrent := by
  rw [retireCurrent]
  split
  · rename_i i hc
    have h := follows_setAttempt b (a := { b.attempt i with retired := true }) (i := i)
      (fun _ => rfl) fun _ _ => rfl
    refine ⟨h.grows, h.requestId, h.retired, fun j hj hcj => .inr ?_⟩
    obtain rfl : i = j := Option.some.inj (hc.symm.trans hcj)
    have hget := attempt_setAttempt b { b.attempt i with retired := true } i i
    rw [if_pos ⟨rfl, hj⟩] at hget
    exact congrArg Attempt.retired hget
  · exact .refl b

theorem current_retireCurrent (b : Board) : b.retireCurrent.current = none := by
  rw [retireCurrent]
  split <;> simp_all

theorem follows_begin (b : Board) (requestId : String) : Follows b (b.begin requestId).1 := by
  have h := (follows_retireCurrent b).trans
    (follows_add b.retireCurrent requestId 0 b.reporting false)
  refine ⟨h.grows, h.requestId, h.retired, fun i hi hc => .inr ?_⟩
  -- nothing is current when the new attempt is added
  have h' := follows_add b.retireCurrent requestId 0 b.reporting false
  have hr := (follows_retireCurrent b).current i hi hc
  rw [current_retireCurrent] at hr
  exact h'.retired i (Nat.lt_of_lt_of_le hi (follows_retireCurrent b).grows)
    (hr.resolve_left nofun)

theorem follows_beginOwned (b : Board) (requestId : String) (state : PhaseState) :
    Follows b (b.beginOwned requestId state).1 := by
  rw [beginOwned]
  split
  · exact follows_begin b requestId
  · exact follows_add b requestId 0 b.reporting true

theorem follows_gatingDrop (b : Board) (state : PhaseState) (reason : DropReason)
    (source message : String) (now : Timestamp) :
    Follows b (b.gatingDrop state reason source message now) := by
  rw [gatingDrop]
  split
  · exact .refl b
  · split
    · exact follows_note b _ _ now
    · exact .refl b

theorem follows_setAxes (b : Board) (i : Nat) (requested : Axes) (catalog : Catalog) :
    Follows b (b.setAxes i requested catalog).1 := by
  refine Follows.trans ?_ (follows_publish _ i)
  exact follows_setAttempt b (fun _ => rfl) fun _ h => h

theorem follows_cancelRequested (b : Board) (i : Nat) (state : PhaseState) (source : String)
    (now : Timestamp) : Follows b (b.cancelRequested i state source now).1 := by
  rw [cancelRequested]
  split
  · exact follows_note b i _ now
  · exact .refl b

/-- An attempt that was begun for a request is there, and it is the current one or retired. -/
structure Tracks (b : Board) (i : Nat) (requestId : String) : Prop where
  bound : i < b.attempts.length
  requestId : (b.attempt i).requestId = requestId
  live : b.current = some i ∨ (b.attempt i).retired = true

theorem Tracks.of_follows {requestId : String} (h : b.Tracks i requestId) (hf : b.Follows b') :
    b'.Tracks i requestId where
  bound := Nat.lt_of_lt_of_le h.bound hf.grows
  requestId := (hf.requestId i h.bound).trans h.requestId
  live := h.live.elim (hf.current i h.bound) fun hr => .inr (hf.retired i h.bound hr)

/-- An attempt is retired as soon as that of another request is the current one. -/
theorem Tracks.retired {requestId : String} {j : Nat} (h : b.Tracks i requestId)
    (hj : b.current = some j) (hne : (b.attempt j).requestId ≠ requestId) :
    (b.attempt i).retired = true := by
  refine h.live.resolve_left fun hi => hne ?_
  obtain rfl : j = i := Option.some.inj (hj.symm.trans hi)
  exact h.requestId

@[simp] theorem attempts_publish (b : Board) (i : Nat) : (b.publish i).attempts = b.attempts := by
  rw [publish]
  split <;> rfl

/-- What was added last is the last attempt. -/
theorem attempt_add (b : Board) (requestId : String) (display : Nat) (reports retired : Bool) :
    (b.add requestId display reports retired).2 <
        (b.add requestId display reports retired).1.attempts.length ∧
      ((b.add requestId display reports retired).1.attempt b.attempts.length).requestId = requestId ∧
      ((b.add requestId display reports retired).1.attempt b.attempts.length).retired = retired := by
  refine ⟨by simp [add], ?_, ?_⟩ <;> simp [add, attempt]

theorem tracks_beginOwned (b : Board) (requestId : String) (state : PhaseState) :
    (b.beginOwned requestId state).1.Tracks (b.beginOwned requestId state).2 requestId := by
  rw [beginOwned]
  split
  · obtain ⟨hi, hid, _⟩ := attempt_add b.retireCurrent requestId 0 b.reporting false
    exact ⟨hi, hid, .inl rfl⟩
  · obtain ⟨hi, hid, hr⟩ := attempt_add b requestId 0 b.reporting true
    exact ⟨hi, hid, .inr hr⟩

/-- The same is shown, and the same attempt is the current one. -/
def ShowsSame (b b' : Board) : Prop := b'.displays = b.displays ∧ b'.current = b.current

/-- The notes of a retired attempt reach no display. -/
theorem showsSame_note (hr : (b.attempt i).retired = true) (n : Note) (now : Timestamp) :
    b.ShowsSame (b.note i n now) := by
  rw [note, record]
  dsimp only
  split
  · exact ⟨rfl, rfl⟩
  · rename_i a' e h
    obtain ⟨_, _, hr'⟩ := Attempt.record?_eq h
    have hpub : (b.setAttempt i a').publish i = b.setAttempt i a' := by
      rw [publish]
      refine if_pos ?_
      rw [attempt_setAttempt]
      split
      · exact hr'.trans hr
      · exact hr
    rw [hpub]
    split <;> exact ⟨rfl, rfl⟩

end Board

end PromptDesk
