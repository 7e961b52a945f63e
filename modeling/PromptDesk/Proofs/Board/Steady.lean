import PromptDesk.Proofs.Board.Published

/-! The current attempt of a board publishes to the board's own display, whatever attempts stand beside
it. Only beginning another attempt changes which one is current. -/
namespace PromptDesk.Board

/-- The current attempt is there, it was not retired, and it publishes to the board's own display. -/
structure Steady (b : Board) : Prop where
  displays : 0 < b.displays.length
  bound : ∀ i, b.current = some i → i < b.attempts.length
  home : ∀ i, b.current = some i → (b.attempt i).display = 0
  live : ∀ i, b.current = some i → (b.attempt i).retired = false

/-- The same attempt is current, and all attempts publish as before. -/
structure Lasts (b b' : Board) : Prop where
  displays : b.displays.length ≤ b'.displays.length
  grows : b.attempts.length ≤ b'.attempts.length
  current : b'.current = b.current
  home : ∀ i < b.attempts.length, (b'.attempt i).display = (b.attempt i).display
  live : ∀ i < b.attempts.length, (b'.attempt i).retired = (b.attempt i).retired

variable {b b' b'' : Board} {i : Nat}

namespace Lasts

theorem refl (b : Board) : Lasts b b :=
  ⟨Nat.le_refl _, Nat.le_refl _, rfl, fun _ _ => rfl, fun _ _ => rfl⟩

theorem trans (h : Lasts b b') (h' : Lasts b' b'') : Lasts b b'' where
  displays := h.displays.trans h'.displays
  grows := h.grows.trans h'.grows
  current := h'.current.trans h.current
  home i hi := (h'.home i (hi.trans_le h.grows)).trans (h.home i hi)
  live i hi := (h'.live i (hi.trans_le h.grows)).trans (h.live i hi)

theorem of_eq (displays : b.displays.length ≤ b'.displays.length)
    (attempts : b'.attempts = b.attempts) (current : b'.current = b.current) : Lasts b b' where
  displays := displays
  grows := by rw [attempts]
  current := current
  home i _ := by rw [attempt, attempts, attempt]
  live i _ := by rw [attempt, attempts, attempt]

theorem setAttempt {a : Attempt} (hd : a.display = (b.attempt i).display)
    (hr : a.retired = (b.attempt i).retired) : Lasts b (b.setAttempt i a) where
  displays := Nat.le_refl _
  grows := (List.length_set ..).ge
  current := rfl
  home j hj := by
    rw [attempt_setAttempt]
    split
    · obtain ⟨rfl, _⟩ := ‹i = j ∧ _›
      exact hd
    · rfl
  live j hj := by
    rw [attempt_setAttempt]
    split
    · obtain ⟨rfl, _⟩ := ‹i = j ∧ _›
      exact hr
    · rfl

theorem publish (b : Board) (i : Nat) : Lasts b (b.publish i) :=
  of_eq (length_displays_publish b i).ge (attempts_publish b i) (current_publish b i)

theorem note (b : Board) (i : Nat) (n : Note) (now : Timestamp) : Lasts b (b.note i n now) := by
  rw [Board.note, record]
  dsimp only
  split
  · exact .refl b
  · rename_i a e h
    obtain ⟨_, hd, hr⟩ := Attempt.record?_eq h
    refine ((setAttempt hd hr).trans (publish _ i)).trans ?_
    split
    · exact .of_eq (Nat.le_refl _) rfl rfl
    · exact .refl _

theorem append (b : Board) (as : List Attempt) :
    Lasts b { b with attempts := b.attempts ++ as } where
  displays := Nat.le_refl _
  grows := by simp
  current := rfl
  home i hi := by rw [attempt_append b as hi]
  live i hi := by rw [attempt_append b as hi]

theorem add (b : Board) (requestId : String) (display : Nat) (reports retired : Bool) :
    Lasts b (b.add requestId display reports retired).1 :=
  (append b _).trans (publish _ _)

theorem gatingDrop (b : Board) (state : PhaseState) (reason : DropReason) (source message : String)
    (now : Timestamp) : Lasts b (b.gatingDrop state reason source message now) := by
  rw [Board.gatingDrop]
  split
  · exact .refl b
  · split
    · exact .note ..
    · exact .refl b

theorem cancelRequested (b : Board) (i : Nat) (state : PhaseState) (source : String)
    (now : Timestamp) : Lasts b (b.cancelRequested i state source now).1 := by
  rw [Board.cancelRequested]
  split
  · exact .note ..
  · exact .refl b

theorem setAxes (b : Board) (i : Nat) (requested : Axes) (catalog : Catalog) :
    Lasts b (b.setAxes i requested catalog).1 := by
  refine Lasts.trans (setAttempt ?_ ?_) (publish _ i)
  · rfl
  · rfl

end Lasts

theorem display_add (b : Board) (requestId : String) (display : Nat) (reports retired : Bool) :
    ((b.add requestId display reports retired).1.attempt b.attempts.length).display = display := by
  simp [add, attempt]

namespace Steady

theorem fresh (reporting : Bool) : Steady { reporting := reporting } := by
  constructor <;> simp

theorem of_lasts (h : b.Steady) (hl : b.Lasts b') : b'.Steady where
  displays := h.displays.trans_le hl.displays
  bound i hc := (h.bound i (hl.current ▸ hc)).trans_le hl.grows
  home i hc := by
    rw [hl.current] at hc
    rw [hl.home i (h.bound i hc), h.home i hc]
  live i hc := by
    rw [hl.current] at hc
    rw [hl.live i (h.bound i hc), h.live i hc]

theorem begin (h : b.Steady) (requestId : String) : (b.begin requestId).1.Steady := by
  have hl := Lasts.add b.retireCurrent requestId 0 b.reporting false
  have hd : 0 < b.retireCurrent.displays.length := by
    rw [displays_retireCurrent]
    exact h.displays
  -- the attempt that is begun is the last one
  obtain ⟨hlt, _, hr⟩ := attempt_add b.retireCurrent requestId 0 b.reporting false
  refine ⟨hd.trans_le hl.displays, fun i hi => ?_, fun i hi => ?_, fun i hi => ?_⟩
  · obtain rfl := Option.some.inj hi
    exact hlt
  · obtain rfl := Option.some.inj hi
    exact display_add b.retireCurrent requestId 0 b.reporting false
  · obtain rfl := Option.some.inj hi
    exact hr

theorem beginOwned (h : b.Steady) (requestId : String) (state : PhaseState) :
    (b.beginOwned requestId state).1.Steady := by
  rw [Board.beginOwned]
  split
  · exact h.begin requestId
  · exact h.of_lasts (.add ..)

theorem use (h : b.Steady) (u : Use) : (b.use u).Steady := by
  cases u with
  | begin requestId => exact h.begin requestId
  | beginOwned requestId state => exact h.beginOwned requestId state
  | gatingDrop state reason source message now => exact h.of_lasts (.gatingDrop ..)
  | note i n now => exact h.of_lasts (.note ..)
  | setAxes i requested catalog => exact h.of_lasts (.setAxes ..)
  | cancelRequested i state source now => exact h.of_lasts (.cancelRequested ..)
  | report on => exact h.of_lasts (.of_eq (Nat.le_refl _) rfl rfl)

end Steady

end PromptDesk.Board
