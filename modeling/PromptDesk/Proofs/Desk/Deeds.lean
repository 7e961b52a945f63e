import PromptDesk.Desk.Turn
import PromptDesk.Proofs.Board.Growth
import PromptDesk.Proofs.Desk.Frame

/-! What a desk does, piece by piece. There are only a few kinds of deeds: with its slot, where no
tripped token is armed again, with its board, which grows, and with handles and jobs, which are
added. -/
namespace PromptDesk

namespace Slot

/-- Tokens that were tripped stay tripped. -/
def Remembers (s t : Slot) : Prop := ∀ k, s.isTripped k = true → t.isTripped k = true

variable {s t : Slot}

theorem Remembers.refl (s : Slot) : Remembers s s := fun _ => id

theorem remembers_of_tokens (h : t.tokens = s.tokens) : Remembers s t := fun k hk => by
  rwa [isTripped, h]

theorem remembers_arm (s : Slot) : Remembers s s.arm := fun k hk => by
  have hlt : k < s.tokens.length := by
    by_contra hlt
    simp [isTripped, List.getElem?_eq_none (Nat.le_of_not_lt hlt)] at hk
  simpa [isTripped, arm, List.getElem?_append_left hlt] using hk

theorem remembers_trip (s : Slot) (i : Nat) : Remembers s (s.trip i) := fun k hk => by
  simp only [isTripped, trip, List.getD_eq_getElem?_getD, List.getElem?_set] at hk ⊢
  split
  · split
    · rfl
    · simp_all
  · exact hk

theorem remembers_beginSend (s : Slot) (id : Option String) : Remembers s (s.beginSend id).1 := by
  cases id <;> exact remembers_arm _

theorem remembers_beginStream (s : Slot) (id : Option String) :
    Remembers s (s.beginStream id).1 := by
  rw [beginStream]
  generalize (id <|> s.state.requestId) = name
  cases name <;> exact remembers_of_tokens rfl

theorem remembers_applyFor? {id : String} {allowed : PhaseState → Bool} {e : PhaseEvent}
    (h : s.applyFor? id allowed e = some t) : Remembers s t := by
  unfold applyFor? at h
  split at h
  · cases h
    exact remembers_of_tokens rfl
  · cases h

theorem remembers_cancelFor? {id : String} (h : s.cancelFor? id = some t) : Remembers s t := by
  obtain ⟨u, hu, rfl⟩ := Option.map_eq_some_iff.1 h
  exact fun k hk => remembers_trip u _ k (remembers_applyFor? hu k hk)

theorem remembers_cancel (s : Slot) : Remembers s s.cancel := remembers_trip (s.apply .cancel) _

theorem remembers_enter (s : Slot) (id : Option String) : Remembers s (s.enter id).1 := by
  cases id with
  | none => exact remembers_beginSend s none
  | some id =>
    rw [enter]
    split
    · exact .refl s
    · split
      · exact .refl s
      · exact remembers_beginSend s (some id)

end Slot

/-- A task is about the request of the handle that reports on it, which has had no turn yet, and gives
back no other one. -/
def Task.isFor (id owner : Option String) : Task → Prop
  | request r _ => r.id = id ∧ owner = id
  | execution e _ => id = some e.requestId ∧ owner = none ∧ e.stage = .claimed
  | collect _ _ => owner = none
  | read _ | await _ _ | sleep _ | present _ _ | exports _ _ => False

namespace Desk

/-- One thing that is done at a desk. -/
inductive Deed : Desk → Desk → Prop
  | slot (d : Desk) {s : Slot} (h : d.slot.Remembers s) : Deed d (d.withSlot s)
  | board (d : Desk) {b : Board} (h : d.board.Follows b) : Deed d (d.withBoard b)
  | spawn (d : Desk) {j : Job} (h : j.handle = none) : Deed d (d.spawn j)
  | dispatch (d : Desk) {id owner : Option String} {t : Task} (h : t.isFor id owner) :
      Deed d (d.dispatch id t owner).1
  | settled (d : Desk) (p : Product) : Deed d (d.settled p).1
  /-- Nothing happens to the slot, the board, and the work in the background. -/
  | aside {d d' : Desk} (slot : d'.slot = d.slot) (board : d'.board = d.board)
      (handles : d'.handles = d.handles) (jobs : d'.jobs = d.jobs) : Deed d d'

abbrev Deeds : Desk → Desk → Prop := Relation.ReflTransGen Deed

variable {d d' : Desk}

namespace Deeds

theorem trans {d'' : Desk} (h : Deeds d d') (h' : Deeds d' d'') : Deeds d d'' :=
  Relation.ReflTransGen.trans h h'

theorem aside (slot : d'.slot = d.slot) (board : d'.board = d.board)
    (handles : d'.handles = d.handles) (jobs : d'.jobs = d.jobs) : Deeds d d' :=
  .single (.aside slot board handles jobs)

theorem slot {s : Slot} (h : d.slot.Remembers s) : Deeds d (d.withSlot s) := .single (.slot d h)

/-- Work is only added. -/
theorem jobs (h : Deeds d d') : d.jobs <+: d'.jobs := by
  induction h with
  | refl => exact List.prefix_refl _
  | tail _ hd ih =>
    refine ih.trans ?_
    cases hd with
    | slot | board | settled => exact List.prefix_refl _
    | spawn | dispatch => exact List.prefix_append ..
    | aside slot board handles jobs => rw [jobs]

/-- So are handles. -/
theorem handles (h : Deeds d d') : d.handles <+: d'.handles := by
  induction h with
  | refl => exact List.prefix_refl _
  | tail _ hd ih =>
    refine ih.trans ?_
    cases hd with
    | slot | board | spawn => exact List.prefix_refl _
    | dispatch | settled => exact List.prefix_append ..
    | aside slot board handles jobs => rw [handles]

theorem board {b : Board} (h : d.board.Follows b) : Deeds d (d.withBoard b) := .single (.board d h)

end Deeds

end Desk

end PromptDesk
