import PromptDesk.Proofs.Board.Changes
import PromptDesk.Proofs.Desk.Dealings

/-! What becomes of an attempt at a desk. Whatever is done at a desk leaves its setup alone, and each
attempt only changes as the uses of the board say that are made meanwhile; what is begun is begun as
an attempt of its own. -/
namespace PromptDesk

theorem Axes.filter_of_isEmpty {axes : Axes} (h : axes.isEmpty = true) (catalog : Catalog) :
    axes.filter catalog = ∅ := by
  obtain rfl : axes = ∅ := Keyed.ext (List.isEmpty_iff.1 h)
  cases catalog <;> rfl

namespace Desk

/-- The setup stays, and an attempt has some changes. -/
structure Changes (ok : Board.Use → Prop) (i : Nat) (d d' : Desk) : Prop where
  setup : d'.setup = d.setup
  board : d.board.Changes ok i d'.board

variable {ok : Board.Use → Prop} {i : Nat} {d d' d'' : Desk}

namespace Changes

theorem refl (d : Desk) : Changes ok i d d := ⟨rfl, .refl _⟩

theorem trans (h : Changes ok i d d') (h' : Changes ok i d' d'') : Changes ok i d d'' :=
  ⟨h'.setup.trans h.setup, h.board.trans h'.board⟩

theorem of_eq (setup : d'.setup = d.setup) (board : d'.board = d.board) : Changes ok i d d' :=
  ⟨setup, .of_eq (by rw [board])⟩

theorem withBoard {b : Board} (h : d.board.Changes ok i b) : Changes ok i d (d.withBoard b) :=
  ⟨rfl, h.trans (.of_eq rfl)⟩

theorem beginAttempt (d : Desk) (id : String) (axes : Axes) :
    Changes ok i d (d.beginAttempt id axes).1 := by
  have hb : Changes ok i d (d.withBoard (d.board.beginOwned id d.slot.state).1) :=
    .withBoard (.beginOwned d.board id d.slot.state)
  have hi := (Board.blank_beginOwned d.board id d.slot.state).index
  simp only [Desk.beginAttempt]
  split
  · split
    · exact hb
    · -- the axes are those of the new attempt
      refine ⟨rfl, .of_lt (hb.board.grows.trans ?_) fun hlt => hb.board.trans ?_⟩
      · exact (Board.follows_setAxes ..).grows
      · refine (Board.Changes.setAxes fun hj => ?_).trans (.of_eq rfl)
        have hj : d.board.attempts.length = i := hi.symm.trans hj
        omega
  · exact hb

theorem cancelledBeforeStart (d : Desk) (id : String) :
    Changes ok i d (d.cancelledBeforeStart id).1 := by
  have hb : Changes ok i d (d.withBoard (d.board.begin id).1) := .withBoard (.begin d.board id)
  have hi := (Board.blank_begin d.board id).index
  refine ⟨rfl, .of_lt (hb.board.grows.trans (Board.follows_note ..).grows) fun hlt => ?_⟩
  refine (hb.board.trans (Board.Changes.note fun hj => ?_)).trans (.of_eq rfl)
  have hj : d.board.attempts.length = i := hi.symm.trans hj
  omega

theorem of_dealing (h : Dealing ok d d') : Changes ok i d d' := by
  cases h with
  | use u h => exact .withBoard (.use h)
  | begins id axes => exact .beginAttempt d id axes
  | forgoes id => exact .cancelledBeforeStart d id
  | adds l id display reports retired =>
    have h : d.board.Changes ok i { d.board with displays := l } := .of_eq rfl
    exact .withBoard (h.trans (.add ..))
  | displays => exact .withBoard (.of_eq rfl)
  | exports =>
    simp only [exportCounts]
    split <;> exact .of_eq rfl rfl
  | slot | refuses | takes | stops | spawns | dispatches | settles => exact .of_eq rfl rfl
  | aside h => exact .of_eq h.setup h.board

theorem of_dealings (h : Dealings ok d d') : Changes ok i d d' := h.respect .refl .trans .of_dealing

end Changes

/-- Nothing that is done at a desk changes its setup. -/
theorem Dealings.setup (h : Dealings ok d d') : d'.setup = d.setup :=
  (Changes.of_dealings (i := 0) h).setup

/-- The axes that an attempt gets for those asked for; a catalog decides on them. -/
def axesFor (d : Desk) (axes : Axes) : Axes := d.setup.catalog.elim ∅ axes.filter

/-- A blank attempt for a request was just added, but for its axes. -/
structure Opened (d : Desk) (id : String) (axes : Axes) (d' : Desk) : Prop where
  bound : d.board.attempts.length < d'.board.attempts.length
  requestId : (d'.board.attempt d.board.attempts.length).requestId = id
  events : (d'.board.attempt d.board.attempts.length).events = []
  transcript : (d'.board.attempt d.board.attempts.length).transcript =
    { requestId := id, axes := axes }

theorem opened_begin (d : Desk) (id : String) :
    (d.board.begin id).2 = d.board.attempts.length ∧
      d.Opened id ∅ (d.withBoard (d.board.begin id).1) := by
  obtain ⟨index, bound, requestId, events, transcript⟩ := Board.blank_begin d.board id
  rw [index] at bound requestId events transcript
  exact ⟨index, bound, requestId, events, transcript⟩

theorem opened_beginAttempt (d : Desk) (id : String) (axes : Axes) :
    (d.beginAttempt id axes).2 = d.board.attempts.length ∧
      d.Opened id (d.axesFor axes) (d.beginAttempt id axes).1 := by
  obtain ⟨index, bound, requestId, events, transcript⟩ :=
    Board.blank_beginOwned d.board id d.slot.state
  rw [index] at bound requestId events transcript
  let d₁ := d.withBoard (d.board.beginOwned id d.slot.state).1
  have h₁ : d.Opened id ∅ d₁ := ⟨bound, requestId, events, transcript⟩
  simp only [beginAttempt, index, axesFor]
  split
  · rename_i catalog hc
    have hc : d.setup.catalog = some catalog := hc
    rw [hc, Option.elim_some]
    split
    · rename_i he
      rw [Axes.filter_of_isEmpty he]
      exact ⟨rfl, h₁⟩
    · have ha := Board.attempt_setAxes h₁.bound axes catalog
      refine ⟨rfl, ?_, ?_, ?_, ?_⟩
      · exact h₁.bound.trans_le (Board.follows_setAxes d₁.board ..).grows
      · exact (congrArg Attempt.requestId ha).trans h₁.requestId
      · exact (congrArg Attempt.events ha).trans h₁.events
      · exact (congrArg Attempt.transcript ha).trans (by rw [h₁.transcript])
  · rename_i hc
    have hc : d.setup.catalog = none := hc
    rw [hc]
    exact ⟨rfl, h₁⟩

end Desk

end PromptDesk
