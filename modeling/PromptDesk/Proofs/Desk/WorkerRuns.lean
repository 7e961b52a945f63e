import PromptDesk.Proofs.Desk.DealingsAtWork
import PromptDesk.Proofs.Desk.Work
import PromptDesk.Proofs.Desk.Worker

/-! Runs of a worker among others. Each step that a worker makes of its own sends its request, writes
notes on its own attempt, opens a stream, or gives the slot back and puts the response away; in
between others may do what they like. -/
namespace PromptDesk

open Slot (Move)

/-- The attempt into which an execution reads. -/
def Stage.attempt? : Stage → Option Nat
  | .claimed => none
  | .opening attempt _ _ _ _ | .collecting attempt _ _ _ => some attempt
  | .reading r => some r.attempt

namespace Stance

def request? : Stance → Option String
  | due e | rests (.waiting e) => some e.requestId
  | playing c _ _ => some c.requestId
  | reading id _ _ _ _ _ | finishing id _ _ | storing id _ _ _ _ | stored id _ _ _ _
  | unwinding id _ _ => some id
  | rests (.ended r) => some r.requestId
  | rests (.panicked _) => none

def attempt? : Stance → Option Nat
  | due e | rests (.waiting e) => e.stage.attempt?
  | playing c _ _ => some c.attempt
  | reading _ _ attempt _ _ _ | finishing _ attempt _ => some attempt
  | storing _ _ attempt _ _ | stored _ _ attempt _ _ | unwinding _ attempt _ => some attempt
  | rests _ => none

/-- The token that a worker heeds. -/
def token? : Stance → Option Nat
  | due e | rests (.waiting e) => e.stage.token?
  | playing c _ _ => some c.token
  | reading _ _ _ token _ _ => token
  | finishing _ _ _ | storing _ _ _ _ _ | stored _ _ _ _ _ | unwinding _ _ _ | rests _ => none

/-- The slot was not given back yet. -/
def isAtWork : Stance → Bool
  | due _ | playing _ _ _ | reading _ _ _ _ _ _ | finishing _ _ _ | rests (.waiting _) => true
  | storing _ _ _ _ _ | stored _ _ _ _ _ | unwinding _ _ _ | rests _ => false

/-- What the next step of a worker of its own is to do with the slot. -/
def event? : Stance → Option Move
  | playing c [] _ => c.stream?.map fun _ => .stream c.requestId
  | finishing id _ (.completed _) => some (.complete id)
  | finishing id _ (.cancelled _) => some (.cancel id)
  | finishing id _ (.failed f) => some (.fail id f.message)
  | _ => none

/-- The slot takes no notice of what the next step is to do with it. -/
def Refused (s : Stance) (t : Slot) : Prop := ∀ m, s.event? = some m → ¬ m.Allowed t.state

theorem Refused.of_none {s : Stance} {t : Slot} (h : s.event? = none) : s.Refused t := fun m hm => by
  rw [h] at hm
  cases hm

/-- Where a worker may stand when it has read something and goes on with the same attempt. -/
inductive Continues (s : Stance) (attempt : Nat) : Stance → Prop
  | carries {s' : Stance} (request : s'.request? = s.request?) (mine : s'.attempt? = some attempt)
      (token : s'.token? = s.token?) (atWork : s'.isAtWork = true) : Continues s attempt s'
  | finishes {id : String} (request : s.request? = some id) (outcome : ReadOutcome) :
      Continues s attempt (finishing id attempt outcome)
  | panics (message : String) : Continues s attempt (rests (.panicked message))

end Stance

namespace Desk

/-- Logs notes on an attempt. -/
def noteAll (d : Desk) (attempt : Nat) (notes : List Note) : Desk := notes.foldl (·.note attempt) d

/-- What a step of a worker of its own comes to. -/
inductive Advanced (d : Desk) : Stance → Desk × Stance → Prop
  | setsOut (id : String) (draft : Draft) :
      Advanced d (.due ⟨id, draft, .claimed⟩) (d.setOut id draft)
  /-- It reads or plays on, or is through with it; a stream that it meant to open was refused. -/
  | works {s s' : Stance} {attempt : Nat} (mine : s.attempt? = some attempt)
      (refused : s.Refused d.slot) (notes : List Note)
      (on : s.Continues attempt s') : Advanced d s (d.noteAll attempt notes, s')
  | streams {c : Errand} {items : List Item} (text : String) (idle : Option Limit)
      (opens : c.stream? = some items) (allowed : (Move.stream c.requestId).Allowed d.slot.state) :
      Advanced d (.playing c [] text) (d.moved (.stream c.requestId),
        .due ⟨c.requestId, c.draft, .reading ⟨c.attempt, some c.token, idle, { rest := items }⟩⟩)
  | handsIn (id : String) (attempt : Nat) (outcome : ReadOutcome) :
      Advanced d (.finishing id attempt outcome) (d.handIn id attempt outcome)
  | stores (id text : String) (attempt : Nat) (entry : HistoryEntry)
      (result : Except Failure (Option String)) :
      Advanced d (.stored id text attempt entry result)
        (d.advance (.stored id text attempt entry result))
  | rests (p : Progress) : Advanced d (.rests p) (d, .rests p)

variable {d : Desk} {s : Stance} {c : Errand}

section

variable (mine : s.attempt? = some c.attempt) (request : s.request? = some c.requestId)
  (refused : s.Refused d.slot)
include mine request refused

theorem Advanced.fault (f : Failure) : Advanced d s (d.fault c f) := by
  rw [Desk.fault]
  split
  · exact .works mine refused [] (.finishes request _)
  · exact .works mine refused [.error f.message] (.finishes request _)

theorem Advanced.pause (token : s.token? = some c.token) (p : Playback) :
    Advanced d s (d.pause c p) := by
  have h : Advanced d s (d, .rests (.waiting (c.waiting p))) := by
    refine .works mine refused [] (.carries request.symm ?_ ?_ rfl)
    all_goals
      obtain ⟨_, _, _, _, _, stream⟩ := c
      cases stream <;> first | rfl | exact token.symm
  rw [Desk.pause]
  split
  · split
    · exact .fault mine request refused _
    · exact h
  · exact h

theorem Advanced.resume (token : s.token? = some c.token) (p : Playback) :
    Advanced d s (d.resume c p) := by
  rw [Desk.resume]
  split
  · exact .fault mine request refused _
  · split
    · exact .works mine refused [] (.carries request.symm rfl token.symm rfl)
    · exact .pause mine request refused token p

end

theorem Advanced.playOne (c : Errand) (text : String) {items : List Item}
    (h : (Stance.playing c items text).callback? = none) :
    Advanced d (.playing c items text) (d.playOne c text items) := by
  cases items with
  | nil =>
    rw [Desk.playOne, arrive]
    split
    · rename_i items hs
      split
      · rename_i ht
        refine .works rfl (fun m hm => ?_) [] (.finishes rfl _)
        rw [Stance.event?, hs] at hm
        cases hm
        exact Slot.move?_eq_none_iff.1 ht
      · rename_i t ht
        obtain ⟨ha, rfl⟩ := (Slot.move?_eq_some_iff (m := .stream c.requestId)).1 ht
        exact .streams text _ hs ha
    · rename_i hs
      refine .works rfl (fun m hm => ?_) [.chunk text, .complete] (.finishes rfl _)
      rw [Stance.event?, hs] at hm
      cases hm
  | cons item rest =>
    cases item with
    | chunk s => exact .works rfl (.of_none rfl) [] (.carries rfl rfl rfl rfl)
    | fail f => exact .fault rfl rfl (.of_none rfl) f
    | panic payload => exact .works rfl (.of_none rfl) [] (.panics _)
    | calls calls => cases h
    | delay ms | wait name | hang =>
      simp only [Desk.playOne]
      split
      · exact .pause rfl rfl (.of_none rfl) rfl _
      · exact .works rfl (.of_none rfl) [] (.carries rfl rfl rfl rfl)

/-- Reading is stopped with at most one note. -/
theorem halt?_eq {attempt : Nat} {token : Option Nat} {idle : Option Limit}
    {out : Desk × ReadOutcome} (h : d.halt? attempt token idle = some out) :
    ∃ notes, out.1 = d.noteAll attempt notes := by
  unfold halt? at h
  split at h
  · cases h
    exact ⟨[], rfl⟩
  · split at h
    · split at h
      · cases h
        exact ⟨[_], rfl⟩
      · cases h
    · cases h

theorem Advanced.readOne (id : String) (draft : Draft) (attempt : Nat) (token : Option Nat)
    (idle : Option Limit) {items : List Item}
    (h : (Stance.reading id draft attempt token items idle).callback? = none) :
    Advanced d (.reading id draft attempt token items idle)
      (d.readOne id draft attempt token idle items) := by
  cases items with
  | nil => exact .works rfl (.of_none rfl) [.complete] (.finishes rfl _)
  | cons item rest =>
    cases item with
    | chunk s =>
      rw [Desk.readOne]
      split
      · rename_i d' outcome hh
        obtain ⟨notes, hn⟩ := halt?_eq hh
        obtain rfl : d' = d.noteAll attempt (.chunk s :: notes) := hn
        exact .works rfl (.of_none rfl) _ (.finishes rfl _)
      · exact .works rfl (.of_none rfl) [.chunk s] (.carries rfl rfl rfl rfl)
    | fail f => exact .works rfl (.of_none rfl) [.error f.message] (.finishes rfl _)
    | panic payload => exact .works rfl (.of_none rfl) [] (.panics _)
    | calls calls => cases h
    | delay ms | wait name | hang =>
      simp only [Desk.readOne]
      split
      · exact .works rfl (.of_none rfl) [] (.carries rfl rfl rfl rfl)
      · exact .works rfl (.of_none rfl) [] (.carries rfl rfl rfl rfl)

/-- A worker that nobody is to be called for makes one of a few steps. -/
theorem advanced (d : Desk) (h : s.callback? = none) : Advanced d s (d.advance s) := by
  cases s with
  | due e =>
    obtain ⟨id, draft, stage⟩ := e
    cases stage with
    | claimed => exact .setsOut id draft
    | opening attempt token limit p items | collecting attempt token limit p =>
      exact .resume rfl rfl (.of_none rfl) rfl p
    | reading r =>
      rw [advance]
      split
      · rename_i d' outcome hh
        obtain ⟨notes, hn⟩ := halt?_eq hh
        obtain rfl : d' = d.noteAll r.attempt notes := hn
        exact .works rfl (.of_none rfl) _ (.finishes rfl _)
      · split
        · exact .works rfl (.of_none rfl) [] (.carries rfl rfl rfl rfl)
        · exact .works rfl (.of_none rfl) [] (.carries rfl rfl rfl rfl)
  | playing c items text => exact .playOne c text h
  | reading id draft attempt token items idle => exact .readOne id draft attempt token idle h
  | finishing id attempt outcome => exact .handsIn id attempt outcome
  | storing id text attempt entry writer =>
    cases writer <;> cases h
  | stored id text attempt entry result => exact .stores id text attempt entry result
  | unwinding id attempt message => exact .works rfl (.of_none rfl) [] (.panics message)
  | rests p => exact .rests p

@[simp] theorem noteAll_slot (d : Desk) (attempt : Nat) (notes : List Note) :
    (d.noteAll attempt notes).slot = d.slot := by
  induction notes generalizing d with
  | nil => rfl
  | cons n notes ih => exact ih (d.note attempt n)

theorem beginAttempt_slot (d : Desk) (id : String) (axes : Axes) :
    (d.beginAttempt id axes).1.slot = d.slot := (quiet_beginAttempt d id axes).slot

theorem setOut_slot (d : Desk) (id : String) (draft : Draft) :
    (d.setOut id draft).1.slot = d.slot := by
  simp only [setOut]
  split
  · split
    · exact (quiet_cancelledBeforeStart d id).slot
    · rfl
  · exact beginAttempt_slot d id draft.axes

theorem handIn_slot (d : Desk) (id : String) (attempt : Nat) (outcome : ReadOutcome) :
    (d.handIn id attempt outcome).1.slot =
      ((Stance.finishing id attempt outcome).event?.bind d.slot.move?).getD d.slot := by
  cases outcome with
  | completed text =>
    simp only [handIn, Stance.event?, Option.bind_some, Slot.move?]
    cases d.slot.completeFor? id with
    | none => rfl
    | some t =>
      dsimp only
      split <;> rfl
  | cancelled text =>
    simp only [handIn, finish, Stance.event?, Option.bind_some, Slot.move?]
    cases d.slot.cancelFor? id <;> rfl
  | failed f =>
    simp only [handIn, finish, failOwned, Stance.event?, Option.bind_some, Slot.move?]
    cases d.slot.failFor? id f.message <;> rfl

theorem endLogEntry_slot (d : Desk) (i : Nat) (entry : HistoryEntry)
    (result : Except Failure (Option String)) : (d.endLogEntry i entry result).1.slot = d.slot := by
  cases result <;> rfl

/-- All that a step of a worker of its own does with the slot is its event. -/
theorem slot_advance (d : Desk) (h : s.callback? = none) :
    (d.advance s).1.slot = (s.event?.bind d.slot.move?).getD d.slot := by
  have hs := advanced d h
  generalize d.advance s = x at hs
  cases hs with
  | setsOut id draft => exact setOut_slot d id draft
  | works mine refused notes on =>
    rw [noteAll_slot]
    cases hm : s.event? with
    | none => rfl
    | some m =>
      have hn := Slot.move?_eq_none_iff.2 (refused m hm)
      rw [Option.bind_some, hn]
      rfl
  | @streams c items text idle opens allowed =>
    rw [Stance.event?, opens, Option.map_some, Option.bind_some, Slot.move?_of_allowed allowed]
    rfl
  | handsIn id attempt outcome => exact handIn_slot d id attempt outcome
  | stores id text attempt entry result => exact endLogEntry_slot d attempt entry result
  | rests p => rfl

section

variable {ok : Board.Use → Prop}

theorem dealings_setOut (d : Desk) (id : String) (draft : Draft) :
    Dealings ok d (d.setOut id draft).1 := by
  simp only [setOut]
  split
  · split
    · exact .single (.forgoes d id)
    · exact .refl
  · have h : Dealings ok d (d.beginAttempt id draft.axes).1 := .single (.begins d id draft.axes)
    exact h.trans (dealings_callTransport _ _)

theorem dealings_noteAll {attempt : Nat} (mine : ∀ n now, ok (.note attempt n now)) (d : Desk)
    (notes : List Note) : Dealings ok d (d.noteAll attempt notes) := by
  induction notes generalizing d with
  | nil => exact .refl
  | cons n notes ih => exact (dealings_note d (mine n d.now)).trans (ih _)

theorem dealings_handIn {attempt : Nat}
    (cancels : ∀ now, ok (.note attempt (.cancelExecuted "pipeline" true) now))
    (asks : ∀ axes now, ok (.note attempt (.historyWriteRequested axes) now)) (d : Desk)
    (id : String) (outcome : ReadOutcome) : Dealings ok d (d.handIn id attempt outcome).1 := by
  cases outcome with
  | completed text =>
    rw [handIn]
    split
    · exact dealings_note d (cancels _)
    · rename_i s hs
      have h : Dealings ok d { d.withSlot s with
          conversation := { d.conversation with lastResponse := Text.trim text } } :=
        (Dealings.slot (Slot.remembers_applyFor? hs)).trans (.aside (aside_conversation _ _))
      dsimp only
      split
      · exact h.trans (dealings_beginLogEntry _ fun _ => asks _ _)
      · exact h
  | cancelled text =>
    simp only [handIn, finish]
    split
    · exact (Dealings.slot (Slot.remembers_cancelFor? ‹_›)).trans (dealings_note _ (cancels _))
    · exact dealings_note d (cancels _)
  | failed f => exact dealings_failOwned d id f

/-- A step of a worker of its own logs notes on its own attempt, and on no other one. -/
theorem dealings_advance (d : Desk) (free : s.callback? = none)
    (mine : ∀ i, s.attempt? = some i → ∀ n now, ok (.note i n now)) :
    Dealings ok d (d.advance s).1 := by
  have hs := advanced d free
  generalize d.advance s = x at hs
  cases hs with
  | setsOut id draft => exact dealings_setOut d id draft
  | works hm refused notes on => exact dealings_noteAll (mine _ hm) d notes
  | @streams c _ text idle opens allowed =>
    have hs : d.slot.beginStreamFor? c.requestId = some _ := Slot.move?_of_allowed allowed
    exact .slot (Slot.remembers_applyFor? hs)
  | handsIn id attempt outcome =>
    exact dealings_handIn (mine attempt rfl _) (fun _ => mine attempt rfl _) d id outcome
  | stores id text attempt entry result =>
    exact dealings_endLogEntry d entry result fun _ _ => mine attempt rfl _ _
  | rests p => exact .refl

end

theorem dealt_advance (d : Desk) (free : s.callback? = none) : Dealt d (d.advance s).1 :=
  dealings_advance d free fun _ _ _ _ => trivial

/-- A worker that finds its token tripped at the beginning of a turn gives up. -/
theorem advance_of_tripped {e : Execution} {token : Nat} (ht : e.stage.token? = some token)
    (h : d.slot.isTripped token = true) : ∃ attempt text, e.stage.attempt? = some attempt ∧
      d.advance (.due e) = (d, .finishing e.requestId attempt (.cancelled text)) := by
  obtain ⟨id, draft, stage⟩ := e
  cases stage with
  | claimed => cases ht
  | opening attempt token' limit p items | collecting attempt token' limit p =>
    cases ht
    refine ⟨attempt, "", rfl, ?_⟩
    rw [advance, resume]
    exact if_pos h
  | reading r =>
    have ht : r.token = some token := ht
    exact ⟨r.attempt, (d.board.attempt r.attempt).text, rfl, by simp [advance, halt?, ht, h]⟩

end Desk

/-- A run of a worker among others, with the moments at which it made steps of its own, the latest
first. -/
inductive Runs (others : Desk → Desk → Prop) (x : Desk × Stance) :
    List (Desk × Stance) → Desk × Stance → Prop
  | start : Runs others x [] x
  | own {l : List (Desk × Stance)} {d : Desk} {s : Stance} (run : Runs others x l (d, s))
      (free : s.callback? = none) : Runs others x ((d, s) :: l) (d.advance s)
  | asks {l : List (Desk × Stance)} {d : Desk} {s s' : Stance} {calls : List Call}
      (run : Runs others x l (d, s)) (asked : s.callback? = some (calls, s'))
      (made : others d (performAll calls d)) : Runs others x l (performAll calls d, s')
  | others {l : List (Desk × Stance)} {d d' : Desk} {s : Stance} (run : Runs others x l (d, s))
      (made : others d d') : Runs others x l (d', s)
  | turn {l : List (Desk × Stance)} {d : Desk} {e : Execution}
      (run : Runs others x l (d, .rests (.waiting e))) : Runs others x l (d, .due e)

/-- A condition on a desk and a worker that lasts through every run. -/
structure Lasting (others : Desk → Desk → Prop) (good : Desk → Stance → Prop) : Prop where
  own : ∀ {d s}, good d s → s.callback? = none → good (d.advance s).1 (d.advance s).2
  asks : ∀ {d s s' calls}, good d s → s.callback? = some (calls, s') → good d s'
  others : ∀ {d d' s}, good d s → others d d' → good d' s
  turn : ∀ {d e}, good d (.rests (.waiting e)) → good d (.due e)

variable {others : Desk → Desk → Prop} {good : Desk → Stance → Prop}
variable {x y : Desk × Stance} {l : List (Desk × Stance)}

theorem Runs.lasting (run : Runs others x l y) (h : Lasting others good) (hx : good x.1 x.2) :
    good y.1 y.2 ∧ ∀ z ∈ l, good z.1 z.2 ∧ z.2.callback? = none := by
  induction run with
  | start => exact ⟨hx, by simp⟩
  | own run free ih =>
    refine ⟨h.own ih.1 free, fun z hz => ?_⟩
    rcases List.mem_cons.1 hz with rfl | hz
    · exact ⟨ih.1, free⟩
    · exact ih.2 z hz
  | asks run asked made ih => exact ⟨h.others (h.asks ih.1 asked) made, ih.2⟩
  | others run made ih => exact ⟨h.others ih.1 made, ih.2⟩
  | turn run ih => exact ⟨h.turn ih.1, ih.2⟩

/-- A worker that is to make a step of its own makes it before anything else, wherever others have left
the desk by then. -/
theorem Runs.first {d : Desk} {s : Stance} (run : Runs others (d, s) l y) (free : s.callback? = none)
    (rested : ∀ e, s ≠ .rests (.waiting e)) :
    (l = [] ∧ y.2 = s) ∨ ∃ d₁ l', l = l' ++ [(d₁, s)] ∧ Runs others (d, s) [] (d₁, s) ∧
      Runs others (d₁.advance s) l' y := by
  induction run with
  | start => exact .inl ⟨rfl, rfl⟩
  | own run free' ih =>
    rcases ih with ⟨rfl, rfl⟩ | ⟨d₁, l', rfl, before, after⟩
    · exact .inr ⟨_, [], rfl, run, .start⟩
    · exact .inr ⟨d₁, _ :: l', rfl, before, after.own free'⟩
  | asks run asked made ih =>
    rcases ih with ⟨rfl, rfl⟩ | ⟨d₁, l', rfl, before, after⟩
    · rw [free] at asked
      cases asked
    · exact .inr ⟨d₁, l', rfl, before, after.asks asked made⟩
  | others run made ih =>
    rcases ih with ⟨rfl, rfl⟩ | ⟨d₁, l', rfl, before, after⟩
    · exact .inl ⟨rfl, rfl⟩
    · exact .inr ⟨d₁, l', rfl, before, after.others made⟩
  | turn run ih =>
    rcases ih with ⟨rfl, rfl⟩ | ⟨d₁, l', rfl, before, after⟩
    · exact (rested _ rfl).elim
    · exact .inr ⟨d₁, l', rfl, before, after.turn⟩

/-- A worker is left alone, and what it asks for in callbacks is what others may do. -/
theorem Runs.left (run : Runs others x l y) (n : Nat)
    (asks : ∀ k < n, ∀ calls s, (act^[k] y).2.callback? = some (calls, s) →
      others (act^[k] y).1 (performAll calls (act^[k] y).1)) :
    ∃ l, Runs others x l (act^[n] y) := by
  induction n with
  | zero => exact ⟨l, run⟩
  | succ n ih =>
    obtain ⟨l, run⟩ := ih fun k hk => asks k (hk.trans n.lt_succ_self)
    have hn := asks n n.lt_succ_self
    rw [Function.iterate_succ_apply']
    generalize act^[n] y = z at run hn
    obtain ⟨d, s⟩ := z
    cases h : s.callback? with
    | none => exact ⟨_, act_of_free h ▸ run.own h⟩
    | some asked => exact ⟨l, act_of_callback h ▸ run.asks h (hn _ _ h)⟩

/-- The same where its callbacks make certain steps only. -/
theorem Runs.acting {p : Step → Bool} (run : Runs others x l y)
    (calls : ∀ (cs : List Call) (d : Desk), Call.allIn p cs = true → others d (performAll cs d))
    (n : Nat)
    (behaves : ∀ k < n, (act^[k] y).2.callback?.all (fun c => Call.allIn p c.1) = true) :
    ∃ l, Runs others x l (act^[n] y) :=
  run.left n fun k hk cs s h => calls cs _ (by simpa [h] using behaves k hk)

/-- What a worker does when it is left alone is a run, too. -/
theorem Runs.acts (x : Desk × Stance) (n : Nat) : ∃ l, Runs Desk.GoesOn x l (act^[n] x) :=
  Runs.start.acting (p := fun _ => true) (fun cs d _ => Desk.goesOn_performAll d cs) n fun _ _ =>
    (Option.all_eq_true _ _).2 fun c _ => Call.allIn_of_forall (fun _ => rfl) c.1

namespace Stance

/-- Somebody is called for a worker without any change to its request and its attempt. -/
theorem callback?_eq {s s' : Stance} {calls : List Call} (h : s.callback? = some (calls, s')) :
    s'.request? = s.request? ∧ s'.attempt? = s.attempt? ∧ s'.token? = s.token? ∧
      s'.isAtWork = s.isAtWork := by
  unfold callback? at h
  split at h <;> cases h <;> exact ⟨rfl, rfl, rfl, rfl⟩

end Stance

end PromptDesk
