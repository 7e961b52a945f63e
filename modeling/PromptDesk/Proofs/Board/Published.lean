import Mathlib
import PromptDesk.Proofs.Board.Growth

/-! What a board shows. Its own display shows the current attempt as that attempt is now, every other
attempt is retired, and whoever works on an attempt that is not the current one changes nothing of
that. All of it holds for every board that came out of a fresh one, whatever was begun on it and
whichever of its attempts were worked on, in any order. -/
namespace PromptDesk

namespace Board

/-- What users do with a board. Storing a response is two notes, with whatever else is done to the
board in between. -/
inductive Use where
  | begin (requestId : String)
  /-- The state is the one that the slot has at that moment. -/
  | beginOwned (requestId : String) (state : PhaseState)
  | gatingDrop (state : PhaseState) (reason : DropReason) (source message : String)
      (now : Timestamp)
  | note (i : Nat) (n : Note) (now : Timestamp)
  | setAxes (i : Nat) (requested : Axes) (catalog : Catalog)
  | cancelRequested (i : Nat) (state : PhaseState) (source : String) (now : Timestamp)
  /-- Whether attempts begun from now on report their entries. -/
  | report (on : Bool)

namespace Use

/-- The attempt that a use works on, if its user names one. -/
def attempt? : Use → Option Nat
  | note i _ _ | setAxes i _ _ | cancelRequested i _ _ _ => some i
  | begin _ | beginOwned _ _ | gatingDrop _ _ _ _ _ | report _ => none

/-- Only attempts that the board has handed out are worked on. -/
def Fits (u : Use) (b : Board) : Prop := ∀ i ∈ u.attempt?, i < b.attempts.length

end Use

def use (b : Board) : Use → Board
  | .begin requestId => (b.begin requestId).1
  | .beginOwned requestId state => (b.beginOwned requestId state).1
  | .gatingDrop state reason source message now => b.gatingDrop state reason source message now
  | .note i n now => b.note i n now
  | .setAxes i requested catalog => (b.setAxes i requested catalog).1
  | .cancelRequested i state source now => (b.cancelRequested i state source now).1
  | .report on => { b with reporting := on }

/-- The boards that users make out of a fresh one. -/
inductive Used : Board → Prop
  | fresh : Used {}
  | use {b : Board} (u : Use) : Used b → u.Fits b → Used (b.use u)

/-- The current attempt is shown as it is, and it alone publishes. -/
structure InStep (b : Board) : Prop where
  /-- There is a display of the board's own. -/
  displays : 0 < b.displays.length
  bound : ∀ i, b.current = some i → i < b.attempts.length
  home : ∀ i, b.current = some i → (b.attempt i).display = 0
  live : ∀ i, b.current = some i → (b.attempt i).retired = false
  shown : ∀ i, b.current = some i → b.display.latest = (b.attempt i).snapshot
  others : ∀ j < b.attempts.length, b.current ≠ some j → (b.attempt j).retired = true

variable {b b' : Board} {i : Nat}

theorem latest_publishTo (h : 0 < b.displays.length) (s : Snapshot) :
    (b.publishTo 0 s).display.latest = s := by
  simp [publishTo, display, displayAt, Display.publish, h]

theorem publish_of_retired (h : (b.attempt i).retired = true) : b.publish i = b := if_pos h

theorem publish_of_live (h : (b.attempt i).retired = false) :
    b.publish i = b.publishTo (b.attempt i).display (b.attempt i).snapshot :=
  if_neg (by simp [h])

theorem attempt_setAttempt_self (a : Attempt) (hi : i < b.attempts.length) :
    (b.setAttempt i a).attempt i = a := by
  rw [attempt_setAttempt, if_pos ⟨rfl, hi⟩]

theorem attempt_setAttempt_ne (a : Attempt) {j : Nat} (hij : i ≠ j) :
    (b.setAttempt i a).attempt j = b.attempt j := by
  rw [attempt_setAttempt, if_neg fun h => hij h.1]

theorem attempt_publish (b : Board) (i j : Nat) : (b.publish i).attempt j = b.attempt j := by
  rw [attempt, attempts_publish, attempt]

theorem current_publish (b : Board) (i : Nat) : (b.publish i).current = b.current := by
  rw [publish]
  split <;> rfl

theorem length_displays_publish (b : Board) (i : Nat) :
    (b.publish i).displays.length = b.displays.length := by
  rw [publish]
  split
  · rfl
  · simp [publishTo]

namespace InStep

theorem fresh : InStep {} := by
  constructor <;> simp

/-- What is reported is of no concern to displays. -/
theorem of_eq (h : b.InStep) (ha : b'.attempts = b.attempts) (hc : b'.current = b.current)
    (hd : b'.displays = b.displays) : b'.InStep := by
  have hat : b'.attempt = b.attempt := by
    funext i
    rw [attempt, ha, attempt]
  have hdisp : b'.display = b.display := by rw [display, displayAt, hd, display, displayAt]
  obtain ⟨h₁, h₂, h₃, h₄, h₅, h₆⟩ := h
  constructor <;> simp only [ha, hc, hd, hat, hdisp] <;> assumption

/-- Whoever works on an attempt and publishes keeps the board in step: either it is the current one,
which shows at once what has become of it, or it was retired. -/
theorem revise (h : b.InStep) (hi : i < b.attempts.length) {a : Attempt}
    (hdisplay : a.display = (b.attempt i).display) (hretired : a.retired = (b.attempt i).retired) :
    ((b.setAttempt i a).publish i).InStep := by
  have hself := attempt_setAttempt_self (b := b) a hi
  have hlen : (b.setAttempt i a).attempts.length = b.attempts.length := List.length_set ..
  refine ⟨?_, fun j hj => ?_, fun j hj => ?_, fun j hj => ?_, fun j hj => ?_, fun j hj hne => ?_⟩
  · rw [length_displays_publish]
    exact h.displays
  all_goals rw [current_publish] at *
  · rw [attempts_publish, hlen]
    exact h.bound j hj
  · rw [attempt_publish, attempt_setAttempt]
    split
    · obtain ⟨rfl, _⟩ := ‹i = j ∧ _›
      exact hdisplay.trans (h.home i hj)
    · exact h.home j hj
  · rw [attempt_publish, attempt_setAttempt]
    split
    · obtain ⟨rfl, _⟩ := ‹i = j ∧ _›
      exact hretired.trans (h.live i hj)
    · exact h.live j hj
  · rw [attempt_publish]
    by_cases hij : i = j
    · subst hij
      rw [publish_of_live (by rw [hself]; exact hretired.trans (h.live i hj)), hself,
        hdisplay.trans (h.home i hj)]
      exact latest_publishTo (b := b.setAttempt i a) h.displays _
    · have hold := h.others i hi fun hc => hij (Option.some.inj (hc.symm.trans hj))
      rw [publish_of_retired (by rw [hself]; exact hretired.trans hold),
        attempt_setAttempt_ne a hij]
      exact h.shown j hj
  · rw [attempts_publish, hlen] at hj
    rw [attempt_publish, attempt_setAttempt]
    split
    · obtain ⟨rfl, _⟩ := ‹i = j ∧ _›
      exact hretired.trans (h.others i hi hne)
    · exact h.others j hj hne

theorem note (h : b.InStep) (hi : i < b.attempts.length) (n : Note) (now : Timestamp) :
    (b.note i n now).InStep := by
  rw [Board.note, record]
  dsimp only
  split
  · exact h
  · rename_i a e hrec
    obtain ⟨_, hdisplay, hretired⟩ := Attempt.record?_eq hrec
    have hrev := h.revise hi hdisplay hretired
    split
    · exact hrev.of_eq rfl rfl rfl
    · exact hrev

theorem gatingDrop (h : b.InStep) (state : PhaseState) (reason : DropReason)
    (source message : String) (now : Timestamp) :
    (b.gatingDrop state reason source message now).InStep := by
  rw [Board.gatingDrop]
  split
  · exact h
  · split
    · exact h.note (h.bound _ ‹_›) _ now
    · exact h

theorem cancelRequested (h : b.InStep) (hi : i < b.attempts.length) (state : PhaseState)
    (source : String) (now : Timestamp) : (b.cancelRequested i state source now).1.InStep := by
  rw [Board.cancelRequested]
  split
  · exact h.note hi _ now
  · exact h

/-- Nobody publishes once the current attempt was retired. -/
theorem retired_retireCurrent (h : b.InStep) {j : Nat} (hj : j < b.attempts.length) :
    (b.retireCurrent.attempt j).retired = true := by
  by_cases hc : b.current = some j
  · refine ((follows_retireCurrent b).current j hj hc).resolve_left fun hc' => ?_
    rw [current_retireCurrent] at hc'
    cases hc'
  · exact (follows_retireCurrent b).retired j hj (h.others j hj hc)

end InStep

@[simp] theorem length_retireCurrent (b : Board) :
    b.retireCurrent.attempts.length = b.attempts.length := by
  rw [retireCurrent]
  split
  · exact List.length_set ..
  · rfl

theorem displays_retireCurrent (b : Board) : b.retireCurrent.displays = b.displays := by
  rw [retireCurrent]
  split <;> rfl

/-- The attempts of before are untouched by one that is added. -/
theorem attempt_add_of_lt {requestId : String} {display : Nat} {reports retired : Bool} {j : Nat}
    (hj : j < b.attempts.length) :
    ((b.add requestId display reports retired).1.attempt j) = b.attempt j := by
  rw [add]
  exact (attempt_publish _ _ _).trans (attempt_append b _ hj)

theorem length_add (b : Board) (requestId : String) (display : Nat) (reports retired : Bool) :
    (b.add requestId display reports retired).1.attempts.length = b.attempts.length + 1 := by
  simp [add]

/-- What is shown is the attempt that was begun. -/
theorem shown_add (h : 0 < b.displays.length) (requestId : String) (reports : Bool) :
    (b.add requestId 0 reports false).1.display.latest =
      ((b.add requestId 0 reports false).1.attempt b.attempts.length).snapshot := by
  rw [add]
  dsimp only
  rw [attempt_publish, publish_of_live (by simp [attempt])]
  have hd : ∀ a : Attempt,
      (attempt { b with attempts := b.attempts ++ [a] } b.attempts.length) = a := by
    simp [attempt]
  rw [hd]
  exact latest_publishTo (b := { b with attempts := _ }) h _

theorem displays_add_retired (b : Board) (requestId : String) (display : Nat) (reports : Bool) :
    (b.add requestId display reports true).1.displays = b.displays := by
  rw [add]
  dsimp only
  rw [publish_of_retired (by simp [attempt])]

namespace InStep

theorem begin (h : b.InStep) (requestId : String) : (b.begin requestId).1.InStep := by
  have hlen := length_retireCurrent b
  have hpos : 0 < b.retireCurrent.displays.length := by
    rw [displays_retireCurrent]
    exact h.displays
  have hnew : ∀ j, (b.begin requestId).1.current = some j → j = b.retireCurrent.attempts.length :=
    fun j hj => (Option.some.inj hj).symm
  obtain ⟨hi, _, hlive⟩ := attempt_add b.retireCurrent requestId 0 b.reporting false
  refine ⟨?_, fun j hj => ?_, fun j hj => ?_, fun j hj => ?_, fun j hj => ?_, fun j hj hne => ?_⟩
  · change 0 < (b.retireCurrent.add requestId 0 b.reporting false).1.displays.length
    rw [add, length_displays_publish]
    exact hpos
  · rw [hnew j hj]
    exact hi
  · rw [hnew j hj]
    simp [Board.begin, add, attempt]
  · rw [hnew j hj]
    exact hlive
  · rw [hnew j hj]
    exact shown_add hpos requestId b.reporting
  · have hj' : j < b.retireCurrent.attempts.length + 1 := by
      rw [← length_add b.retireCurrent requestId 0 b.reporting false]
      exact hj
    have hne' : j ≠ b.retireCurrent.attempts.length := fun e => hne (congrArg some e.symm)
    have hold : j < b.retireCurrent.attempts.length := by omega
    exact (congrArg Attempt.retired (attempt_add_of_lt hold)).trans
      (h.retired_retireCurrent (hlen ▸ hold))

theorem detached (h : b.InStep) (requestId : String) : (b.detached requestId).1.InStep := by
  obtain ⟨_, _, hnew⟩ := attempt_add b requestId 0 b.reporting true
  have hlen := length_add b requestId 0 b.reporting true
  have hdisp : (b.detached requestId).1.displays = b.displays := displays_add_retired ..
  have hcur : (b.detached requestId).1.current = b.current := current_publish _ _
  have hold : ∀ j, b.current = some j → (b.detached requestId).1.attempt j = b.attempt j :=
    fun j hj => attempt_add_of_lt (h.bound j hj)
  refine ⟨hdisp ▸ h.displays, fun j hj => ?_, fun j hj => ?_, fun j hj => ?_, fun j hj => ?_,
    fun j hj hne => ?_⟩
  all_goals rw [hcur] at *
  · exact (h.bound j hj).trans_le ((Nat.le_succ _).trans hlen.ge)
  · rw [hold j hj]
    exact h.home j hj
  · rw [hold j hj]
    exact h.live j hj
  · rw [hold j hj, display, displayAt, hdisp]
    exact h.shown j hj
  · rcases Nat.lt_succ_iff_lt_or_eq.1 (hlen ▸ hj) with hlt | rfl
    · exact (congrArg Attempt.retired (attempt_add_of_lt hlt)).trans (h.others j hlt hne)
    · exact hnew

theorem beginOwned (h : b.InStep) (requestId : String) (state : PhaseState) :
    (b.beginOwned requestId state).1.InStep := by
  rw [Board.beginOwned]
  split
  · exact h.begin requestId
  · exact h.detached requestId

/-- Every use keeps the board in step. -/
theorem use (h : b.InStep) {u : Use} (hu : u.Fits b) : (b.use u).InStep := by
  cases u with
  | begin requestId => exact h.begin requestId
  | beginOwned requestId state => exact h.beginOwned requestId state
  | gatingDrop state reason source message now => exact h.gatingDrop state reason source message now
  | note i n now => exact h.note (hu i rfl) n now
  | setAxes i requested catalog => exact h.revise (hu i rfl) rfl rfl
  | cancelRequested i state source now => exact h.cancelRequested (hu i rfl) state source now
  | report on => exact h.of_eq rfl rfl rfl

end InStep

theorem Used.inStep (h : b.Used) : b.InStep := by
  induction h with
  | fresh => exact .fresh
  | use u _ hu ih => exact ih.use hu

/-- The same is shown, and no other attempt has changed. -/
def Leaves (b b' : Board) (i : Nat) : Prop :=
  b.ShowsSame b' ∧ ∀ j, j ≠ i → b'.attempt j = b.attempt j

theorem leaves_revise (hi : i < b.attempts.length) {a : Attempt} (ha : a.retired = true) :
    b.Leaves ((b.setAttempt i a).publish i) i := by
  rw [publish_of_retired (by rw [attempt_setAttempt_self a hi]; exact ha)]
  exact ⟨⟨rfl, rfl⟩, fun j hj => attempt_setAttempt_ne a hj.symm⟩

theorem attempt_note_ne (n : Note) (now : Timestamp) {j : Nat} (hij : j ≠ i) :
    (b.note i n now).attempt j = b.attempt j := by
  rw [note, record]
  dsimp only
  split
  · rfl
  · split
    all_goals exact (attempt_publish _ i j).trans (attempt_setAttempt_ne _ hij.symm)

theorem leaves_note (hr : (b.attempt i).retired = true) (n : Note) (now : Timestamp) :
    b.Leaves (b.note i n now) i :=
  ⟨showsSame_note hr n now, fun _ hj => attempt_note_ne n now hj⟩

/-- Who works on a retired attempt leaves the rest of the board alone. -/
theorem leaves_use {u : Use} (hu : u.attempt? = some i) (hi : i < b.attempts.length)
    (hr : (b.attempt i).retired = true) : b.Leaves (b.use u) i := by
  cases u with
  | note j n now =>
    obtain rfl : j = i := Option.some.inj hu
    exact leaves_note hr n now
  | setAxes j requested catalog =>
    obtain rfl : j = i := Option.some.inj hu
    exact leaves_revise hi hr
  | cancelRequested j state source now =>
    obtain rfl : j = i := Option.some.inj hu
    change b.Leaves (b.cancelRequested j state source now).1 j
    rw [cancelRequested]
    split
    · exact leaves_note hr _ now
    · exact ⟨⟨rfl, rfl⟩, fun _ _ => rfl⟩
  | begin | beginOwned | gatingDrop | report => cases hu

/-- Whatever is done with a board, it shows its current attempt as that attempt is now, all other
attempts are retired, and nobody who works on one of them changes what is shown, which attempt is the
current one or any attempt but the one that is worked on. -/
theorem shows_current (h : b.Used) :
    (∀ i, b.current = some i →
      i < b.attempts.length ∧ (b.attempt i).retired = false ∧
        b.display.latest = (b.attempt i).snapshot ∧
        ∀ j < b.attempts.length, j ≠ i → (b.attempt j).retired = true) ∧
      ∀ (u : Use) (j : Nat), u.attempt? = some j → j < b.attempts.length → b.current ≠ some j →
        b.Leaves (b.use u) j := by
  have hs := h.inStep
  refine ⟨fun i hc => ⟨hs.bound i hc, hs.live i hc, hs.shown i hc, fun j hj hji => ?_⟩,
    fun u j hu hj hne => leaves_use hu hj (hs.others j hj hne)⟩
  exact hs.others j hj fun hc' => hji (Option.some.inj (hc'.symm.trans hc))

/-- An attempt that was replaced, its successor, and a detached one of the request before, which is
written to once more. -/
theorem shows_current_replaced :
    ∃ b : Board, b.Used ∧ b.attempts.length = 3 ∧ b.current = some 1 ∧
      b.display.latest = (b.attempt 1).snapshot ∧ (b.attempt 0).retired = true ∧
      (b.attempt 2).text = "stale" ∧
      b.Leaves (b.use (.note 2 (.error "cancelled") default)) 2 := by
  let superseding : PhaseState := { phase := .sending, requestId := some "req-2" }
  let b : Board := (((((({} : Board).use (.begin "req-1")).use (.note 0 (.chunk "old") default)).use
    (.begin "req-2")).use (.beginOwned "req-1" superseding)).use (.note 2 (.chunk "stale") default))
  have hu : b.Used := by
    refine .use _ (.use _ (.use _ (.use _ (.use _ .fresh ?_) ?_) ?_) ?_) ?_ <;>
      simp [Use.Fits, Use.attempt?] <;> decide
  have current : b.current = some 1 := by decide +kernel
  have length : b.attempts.length = 3 := by decide +kernel
  have stale : (b.attempt 2).text = "stale" := by decide +kernel
  obtain ⟨hcurrent, hothers⟩ := shows_current hu
  obtain ⟨_, _, hshown, hretired⟩ := hcurrent 1 current
  exact ⟨b, hu, length, current, hshown, hretired 0 (by omega) (by omega), stale,
    hothers _ 2 rfl (by omega) (by rw [current]; decide)⟩

end Board

end PromptDesk
