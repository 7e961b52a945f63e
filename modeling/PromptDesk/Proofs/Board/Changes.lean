import PromptDesk.Proofs.Board.Published

/-! What becomes of an attempt while its board is used. It may be retired, notes are logged on it, and
its axes are set; everything else that is done with a board is no change of an attempt that is there
already. -/
namespace PromptDesk

namespace EventKind

/-- It happened beside the request: another one was refused, or somebody wanted this one cancelled. -/
def isMarginal : EventKind → Bool
  | gatingDrop | cancelRequested => true
  | chunk | complete | error | cancelExecuted | historySaved | historyWriteRequested | logEntry
  | uiRefreshRequested | uiRefreshExecuted => false

end EventKind

namespace Attempt

/-- An attempt after a note on it, logged or not. -/
def noted (a : Attempt) (n : Note) (now : Timestamp) : Attempt :=
  ((a.record? n now).map Prod.fst).getD a

/-- One thing that becomes of an attempt whose board is used in some ways. What happens beside its
request is logged in any case. -/
inductive Change (ok : Board.Use → Prop) (i : Nat) : Attempt → Attempt → Prop
  | retires (a : Attempt) : Change ok i a { a with retired := true }
  | logs {a a' : Attempt} {n : Note} {now : Timestamp} {e : StreamEvent}
      (allowed : n.kind.isMarginal = true ∨ ok (.note i n now))
      (logged : a.record? n now = some (a', e)) : Change ok i a a'
  | sets (a : Attempt) {requested : Axes} {catalog : Catalog}
      (allowed : ok (.setAxes i requested catalog)) :
      Change ok i a { a with transcript := { a.transcript with axes := requested.filter catalog } }

end Attempt

namespace Board

/-- An attempt stays, with some changes. -/
structure Changes (ok : Use → Prop) (i : Nat) (b b' : Board) : Prop where
  grows : b.attempts.length ≤ b'.attempts.length
  changes : i < b.attempts.length →
    Relation.ReflTransGen (Attempt.Change ok i) (b.attempt i) (b'.attempt i)

variable {ok : Use → Prop} {b b' b'' : Board} {i j : Nat}

theorem attempt_note (hi : i < b.attempts.length) (n : Note) (now : Timestamp) :
    (b.note i n now).attempt i = (b.attempt i).noted n now := by
  rw [note, record, Attempt.noted]
  dsimp only
  cases (b.attempt i).record? n now with
  | none => rfl
  | some x =>
    have ha : ((b.setAttempt i x.1).publish i).attempt i = x.1 := by
      rw [attempt_publish, attempt_setAttempt_self x.1 hi]
    dsimp only
    split <;> exact ha

namespace Changes

theorem refl (b : Board) : Changes ok i b b := ⟨Nat.le_refl _, fun _ => .refl⟩

theorem trans (h : Changes ok i b b') (h' : Changes ok i b' b'') : Changes ok i b b'' where
  grows := h.grows.trans h'.grows
  changes hi := (h.changes hi).trans (h'.changes (hi.trans_le h.grows))

theorem of_eq (h : b'.attempts = b.attempts) : Changes ok i b b' where
  grows := (congrArg List.length h).ge
  changes _ := by rw [attempt, attempt, h]

/-- What happens to a board that does not have the attempt yet is no change of it. -/
theorem of_lt (grows : b.attempts.length ≤ b'.attempts.length)
    (h : i < b.attempts.length → Changes ok i b b') : Changes ok i b b' :=
  ⟨grows, fun hi => (h hi).changes hi⟩

theorem setAttempt {a : Attempt} (h : j = i → Attempt.Change ok i (b.attempt i) a) :
    Changes ok i b (b.setAttempt j a) where
  grows := (List.length_set ..).ge
  changes _ := by
    rw [attempt_setAttempt]
    split
    · exact .single (h (by tauto))
    · exact .refl

theorem publish (b : Board) (j : Nat) : Changes ok i b (b.publish j) := .of_eq (attempts_publish b j)

theorem note {n : Note} {now : Timestamp}
    (h : j = i → n.kind.isMarginal = true ∨ ok (.note i n now)) : Changes ok i b (b.note j n now) where
  grows := (follows_note b j n now).grows
  changes hi := by
    by_cases hij : j = i
    · subst hij
      rw [attempt_note hi, Attempt.noted]
      cases hr : (b.attempt j).record? n now with
      | none => exact .refl
      | some x => exact .single (.logs (h rfl) hr)
    · rw [attempt_note_ne n now (Ne.symm hij)]

theorem add (b : Board) (requestId : String) (display : Nat) (reports retired : Bool) :
    Changes ok i b (b.add requestId display reports retired).1 where
  grows := (follows_add b requestId display reports retired).grows
  changes hi := by rw [attempt_add_of_lt hi]

theorem retireCurrent (b : Board) : Changes ok i b b.retireCurrent := by
  rw [Board.retireCurrent]
  split
  · rename_i j _
    have h : Changes ok i b (b.retire j) := .setAttempt fun hj => hj ▸ .retires _
    exact h.trans (.of_eq rfl)
  · exact .refl b

theorem begin (b : Board) (requestId : String) : Changes ok i b (b.begin requestId).1 :=
  ((retireCurrent b).trans (.add ..)).trans (.of_eq rfl)

theorem beginOwned (b : Board) (requestId : String) (state : PhaseState) :
    Changes ok i b (b.beginOwned requestId state).1 := by
  rw [Board.beginOwned]
  split
  · exact .begin b requestId
  · exact .add ..

theorem setAxes {requested : Axes} {catalog : Catalog} (h : j = i → ok (.setAxes i requested catalog)) :
    Changes ok i b (b.setAxes j requested catalog).1 := by
  refine .trans (.setAttempt fun hj => ?_) (.publish _ j)
  subst hj
  exact .sets _ (h rfl)

theorem use {u : Use} (h : ok u) : Changes ok i b (b.use u) := by
  cases u with
  | begin id => exact .begin b id
  | beginOwned id state => exact .beginOwned b id state
  | gatingDrop state reason source message now =>
    change Changes ok i b (b.gatingDrop state reason source message now)
    rw [gatingDrop]
    split
    · exact .refl b
    · split
      · exact .note fun _ => .inl rfl
      · exact .refl b
  | note j n now => exact .note fun hj => .inr (hj ▸ h)
  | setAxes j requested catalog => exact .setAxes fun hj => hj ▸ h
  | cancelRequested j state source now =>
    change Changes ok i b (b.cancelRequested j state source now).1
    rw [cancelRequested]
    split
    · exact .note fun _ => .inl rfl
    · exact .refl b
  | report on => exact .of_eq rfl

end Changes

/-- An attempt after its axes were set. -/
theorem attempt_setAxes (hi : i < b.attempts.length) (requested : Axes) (catalog : Catalog) :
    (b.setAxes i requested catalog).1.attempt i = { b.attempt i with
      transcript := { (b.attempt i).transcript with axes := requested.filter catalog } } := by
  rw [setAxes, attempt_publish, attempt_setAttempt_self _ hi]

/-- A blank attempt for a request was just added. -/
structure Blank (b : Board) (id : String) (b' : Board × Nat) : Prop where
  index : b'.2 = b.attempts.length
  bound : b'.2 < b'.1.attempts.length
  requestId : (b'.1.attempt b'.2).requestId = id
  events : (b'.1.attempt b'.2).events = []
  transcript : (b'.1.attempt b'.2).transcript = { requestId := id }

theorem blank_add (b : Board) (id : String) (display : Nat) (reports retired : Bool) :
    b.Blank id (b.add id display reports retired) where
  index := rfl
  bound := (attempt_add b id display reports retired).1
  requestId := (attempt_add b id display reports retired).2.1
  events := by simp [add, attempt]
  transcript := by simp [add, attempt]

theorem blank_begin (b : Board) (id : String) : b.Blank id (b.begin id) := by
  have h := blank_add b.retireCurrent id 0 b.reporting false
  exact ⟨h.index.trans (length_retireCurrent b), h.bound, h.requestId, h.events, h.transcript⟩

theorem blank_beginOwned (b : Board) (id : String) (state : PhaseState) :
    b.Blank id (b.beginOwned id state) := by
  rw [beginOwned]
  split
  · exact blank_begin b id
  · exact blank_add b id 0 b.reporting true

end Board

end PromptDesk
