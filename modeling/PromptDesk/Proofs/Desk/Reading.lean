import PromptDesk.Proofs.Board.Course
import PromptDesk.Proofs.Desk.Changes
import PromptDesk.Proofs.Desk.Shown

/-! Reading into an attempt, and what others may log on it meanwhile. A worker that reads logs chunks on
its attempt until it is through, and then how reading went; whoever submits or cancels something logs
at most that somebody was refused or that the request is to be cancelled. -/
namespace PromptDesk

/-- A command that logs nothing on anybody's attempt but what happened beside its request. -/
def Command.isAloof : Command → Bool
  | .attempt _ (.note n) => n.kind.isMarginal
  | .attempt _ (.setAxes _ _) => false
  | _ => true

/-- A step that logs nothing on anybody's attempt but what happened beside its request, callbacks
aside. -/
def Step.isAloof : Step → Bool
  | .command c => c.isAloof
  | .logEntry _ _ => false
  | .submit _ _ _ | .run _ _ | .dispatch _ _ _ | .prepare _ _ _ => true

namespace Desk

/-- The setup stays, and an attempt is the same but for what happened beside its request. -/
structure Glosses (i : Nat) (d d' : Desk) : Prop where
  setup : d'.setup = d.setup
  grows : d.board.attempts.length ≤ d'.board.attempts.length
  glossed : i < d.board.attempts.length → (d.board.attempt i).Glossed (d'.board.attempt i)

variable {i : Nat} {d d' : Desk} {s : Stance} {c : Errand}

namespace Glosses

theorem of_changes (h : Changes (Board.Use.Glosses i) i d d') : Glosses i d d' where
  setup := h.setup
  grows := h.board.grows
  glossed hi := by
    have hc := h.board.changes hi
    generalize d'.board.attempt i = a at hc
    induction hc with
    | refl => exact .refl _
    | tail _ hc ih => exact ih.trans (.of_change hc)

theorem of_dealings (h : Dealings (Board.Use.Glosses i) d d') : Glosses i d d' :=
  .of_changes (.of_dealings h)

end Glosses

theorem admits_isAloof (i : Nat) : Admits Step.isAloof (Board.Use.Glosses i) where
  opens u hu := by
    cases u with
    | note | setAxes => cases hu
    | _ => trivial
  note h _ _ _ := h
  axes h := nomatch h
  asks h := nomatch h
  logs h := nomatch h

/-- A worker logs nothing on the attempts of others. -/
theorem glosses_advance (d : Desk) (free : s.callback? = none) (h : s.attempt? ≠ some i) :
    Glosses i d (d.advance s).1 :=
  .of_dealings (dealings_advance d free fun _ hj _ _ he => absurd (he ▸ hj) h)

end Desk

open Desk (Glosses)

/-- A step logs nothing on anybody's attempt but what happened beside its request, with all that
callbacks do in it. -/
theorem Step.glosses_perform (i : Nat) (s : Step) (d : Desk) (h : s.all Step.isAloof = true) :
    Glosses i d (s.perform d).1 :=
  .of_dealings (s.dealings_perform (Desk.admits_isAloof i) d h)

theorem glosses_performAll (i : Nat) (cs : List Call) (d : Desk)
    (h : Call.allIn Step.isAloof cs = true) : Glosses i d (performAll cs d) :=
  .of_dealings (dealings_performAll (Desk.admits_isAloof i) cs d h)

/-- The notes of a worker that is through with reading. -/
def ReadOutcome.notes : ReadOutcome → List Note
  | completed _ => [.complete]
  | cancelled _ => []
  | failed f => [.error f.message]

/-- The worker plays or reads, or waits until it can go on with it. -/
def Stance.isReading : Stance → Bool
  | due _ | playing _ _ _ | reading _ _ _ _ _ _ | rests (.waiting _) => true
  | finishing _ _ _ | storing _ _ _ _ _ | stored _ _ _ _ _ | unwinding _ _ _ | rests _ => false

theorem Stance.request?_of_isReading {s : Stance} (h : s.isReading = true) :
    ∃ id, s.request? = some id := by
  cases s with
  | rests p => cases p <;> first | exact ⟨_, rfl⟩ | cases h
  | finishing | storing | stored | unwinding => cases h
  | _ => exact ⟨_, rfl⟩

/-- A worker that reads into an attempt names it. -/
theorem Stance.attempt?_of_isReading {s : Stance} (h : s.isReading = true) {i : Nat}
    (into : s.IsInto i) : s.attempt? = some i := by
  cases s with
  | rests p => cases p <;> first | exact into | cases h
  | finishing | storing | stored | unwinding => cases h
  | _ => exact into

theorem Stance.isInto_of_attempt? {s : Stance} {i : Nat} (h : s.attempt? = some i) : s.IsInto i := by
  cases s with
  | rests p => cases p <;> first | exact h | trivial
  | _ => exact h

namespace Desk

/-- What a step of a worker comes to that plays or reads: it goes on after some chunks, or it is through
and its attempt says so. A text that was read as a whole is that of the attempt. -/
inductive Reads (d : Desk) (id : String) (i : Nat) : Desk × Stance → Prop
  | goesOn {d' : Desk} {s : Stance} (texts : List String) (setup : d'.setup = d.setup)
      (board : d'.board = (d.noteAll i (texts.map .chunk)).board) (request : s.request? = some id)
      (into : s.attempt? = some i) (reading : s.isReading = true) : Reads d id i (d', s)
  | ends {d' : Desk} (texts : List String) (outcome : ReadOutcome)
      (logged : d' = d.noteAll i (texts.map .chunk ++ outcome.notes))
      (whole : ∀ text, outcome = .completed text → text = (d'.board.attempt i).text) :
      Reads d id i (d', .finishing id i outcome)
  | panics (message : String) : Reads d id i (d, .rests (.panicked message))

variable {i : Nat} {d : Desk} {s : Stance} {c : Errand}

theorem attempt_note (hi : i < d.board.attempts.length) (n : Note) :
    (d.note i n).board.attempt i = (d.board.attempt i).noted n d.now := Board.attempt_note hi n d.now

theorem length_note (d : Desk) (i : Nat) (n : Note) :
    (d.note i n).board.attempts.length = d.board.attempts.length := Board.length_note d.board i n d.now

theorem length_noteAll (d : Desk) (i : Nat) (notes : List Note) :
    (d.noteAll i notes).board.attempts.length = d.board.attempts.length := by
  induction notes generalizing d with
  | nil => rfl
  | cons n notes ih => exact (ih (d.note i n)).trans (length_note d i n)

theorem noteAll_append (d : Desk) (i : Nat) (notes notes' : List Note) :
    d.noteAll i (notes ++ notes') = (d.noteAll i notes).noteAll i notes' := List.foldl_append

theorem reads_fault (d : Desk) (c : Errand) (f : Failure) :
    d.Reads c.requestId c.attempt (d.fault c f) := by
  rw [fault]
  split
  · exact .ends [] (.cancelled "") rfl (by simp)
  · exact .ends [] (.failed f) rfl (by simp)

theorem reads_pause (d : Desk) (c : Errand) (p : Playback) :
    d.Reads c.requestId c.attempt (d.pause c p) := by
  have h : d.Reads c.requestId c.attempt (d, .rests (.waiting (c.waiting p))) := by
    refine .goesOn [] rfl rfl rfl ?_ rfl
    obtain ⟨_, _, _, _, _, stream⟩ := c
    cases stream <;> rfl
  rw [pause]
  split
  · split
    · exact reads_fault d c _
    · exact h
  · exact h

theorem reads_resume (d : Desk) (c : Errand) (p : Playback) :
    d.Reads c.requestId c.attempt (d.resume c p) := by
  rw [resume]
  split
  · exact reads_fault d c _
  · split
    · exact .goesOn [] rfl rfl rfl rfl rfl
    · exact reads_pause d c p

theorem reads_arrive (d : Desk) (c : Errand) (text : String) :
    d.Reads c.requestId c.attempt (d.arrive c text) := by
  rw [arrive]
  split
  · split
    · exact .ends [] (.cancelled "") rfl (by simp)
    · exact .goesOn [] rfl rfl rfl rfl rfl
  · exact .ends [text] (.completed _) rfl fun _ h => (ReadOutcome.completed.inj h).symm

theorem reads_playOne (d : Desk) (c : Errand) (text : String) (items : List Item) :
    d.Reads c.requestId c.attempt (d.playOne c text items) := by
  cases items with
  | nil => exact reads_arrive d c text
  | cons item rest =>
    cases item with
    | chunk | calls => exact .goesOn [] rfl rfl rfl rfl rfl
    | fail f => exact reads_fault d c f
    | panic payload => exact .panics _
    | delay | wait | hang =>
      simp only [playOne]
      split
      · exact reads_pause d c _
      · exact .goesOn [] rfl rfl rfl rfl rfl

/-- Reading that is stopped was not read as a whole. -/
theorem halt?_eq_some {token : Option Nat} {idle : Option Limit} {out : Desk × ReadOutcome}
    (h : d.halt? i token idle = some out) :
    out.1 = d.noteAll i out.2.notes ∧ ∀ text, out.2 ≠ .completed text := by
  unfold halt? at h
  split at h
  · cases h
    exact ⟨rfl, nofun⟩
  · split at h
    · split at h
      · cases h
        exact ⟨rfl, nofun⟩
      · cases h
    · cases h

theorem reads_readOne (d : Desk) (id : String) (draft : Draft) (i : Nat) (token : Option Nat)
    (idle : Option Limit) (items : List Item) :
    d.Reads id i (d.readOne id draft i token idle items) := by
  cases items with
  | nil => exact .ends [] (.completed _) rfl fun _ h => (ReadOutcome.completed.inj h).symm
  | cons item rest =>
    cases item with
    | chunk text =>
      rw [readOne]
      split
      · rename_i hh
        obtain ⟨logged, partly⟩ := halt?_eq_some hh
        exact .ends [text] _ logged fun _ h => absurd h (partly _)
      · exact .goesOn [text] rfl rfl rfl rfl rfl
    | fail f => exact .ends [] (.failed f) rfl (by simp)
    | panic payload => exact .panics _
    | calls calls => exact .goesOn [] rfl rfl rfl rfl rfl
    | delay | wait | hang =>
      simp only [readOne]
      split <;> exact .goesOn [] rfl rfl rfl rfl rfl

/-- A worker that plays or reads logs on its attempt what it reads, and how that went. -/
theorem reads_advance (d : Desk) (reading : s.isReading = true) {id : String}
    (request : s.request? = some id) (into : s.attempt? = some i) : d.Reads id i (d.advance s) := by
  cases s with
  | due e =>
    obtain ⟨id', draft, stage⟩ := e
    obtain rfl : id' = id := Option.some.inj request
    cases stage with
    | claimed => cases into
    | opening attempt token limit p items =>
      obtain rfl := Option.some.inj into
      exact reads_resume d ⟨id', draft, attempt, token, limit, some items⟩ p
    | collecting attempt token limit p =>
      obtain rfl := Option.some.inj into
      exact reads_resume d ⟨id', draft, attempt, token, limit, none⟩ p
    | reading r =>
      obtain rfl := Option.some.inj into
      rw [advance]
      split
      · rename_i hh
        obtain ⟨logged, partly⟩ := halt?_eq_some hh
        exact .ends [] _ logged fun _ h => absurd h (partly _)
      · split <;> exact .goesOn [] rfl rfl rfl rfl rfl
  | playing c items text =>
    obtain rfl := Option.some.inj into
    obtain rfl : c.requestId = id := Option.some.inj request
    exact reads_playOne d c text items
  | reading id' draft attempt token items idle =>
    obtain rfl := Option.some.inj into
    obtain rfl : id' = id := Option.some.inj request
    exact reads_readOne d id' draft attempt token idle items
  | rests p =>
    cases p with
    | waiting e => exact .goesOn [] rfl rfl request into reading
    | ended | panicked => cases reading
  | finishing | storing | stored | unwinding => cases reading

end Desk

end PromptDesk
