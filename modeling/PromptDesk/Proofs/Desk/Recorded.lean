import PromptDesk.Proofs.Desk.Reading
import PromptDesk.Proofs.Desk.Superseded

/-! What an execution records. A request that was completed leaves one entry for the history, if there
is one, and the last response, both at the moment at which its slot is given back; whatever else a
worker does records nothing, and neither does an execution that failed or was cancelled. What comes of
storing the entry is only logged. -/
namespace PromptDesk

namespace Attempt

/-- A note changes neither the request of an attempt nor its axes. -/
theorem noted_eq (a : Attempt) (n : Note) (now : Timestamp) :
    (a.noted n now).requestId = a.requestId ∧
      (a.noted n now).transcript.axes = a.transcript.axes := by
  cases hn : a.transcript.note? n with
  | none => rw [noted_of_none hn]; exact ⟨rfl, rfl⟩
  | some t =>
    rw [noted_of_some hn]
    refine ⟨rfl, ?_⟩
    cases n with
    | chunk text =>
      simp only [Transcript.note?, Transcript.chunk?] at hn
      split at hn <;> cases hn
      rfl
    | complete =>
      simp only [Transcript.note?, Transcript.complete?] at hn
      split at hn <;> cases hn
      rfl
    | _ => cases hn; rfl

end Attempt

namespace Stance

/-- The text of a request that was completed, from the moment at which it was. -/
def completed? : Stance → Option String
  | storing _ text _ _ _ | stored _ text _ _ _ => some text
  | rests (.ended response) => if response.outcome = .completed then some response.text else none
  | due _ | playing _ _ _ | reading _ _ _ _ _ _ | finishing _ _ _ | unwinding _ _ _ | rests _ => none

/-- The worker has panicked. -/
def isPanicked : Stance → Bool
  | unwinding _ _ _ | rests (.panicked _) => true
  | due _ | playing _ _ _ | reading _ _ _ _ _ _ | finishing _ _ _ | storing _ _ _ _ _
  | stored _ _ _ _ _ | rests _ => false

/-- The worker has completed its request with a text, or panics after that. -/
def Completes (text : String) (s : Stance) : Prop := s.completed? = some text ∨ s.isPanicked = true

theorem completed?_of_isReading {s : Stance} (h : s.isReading = true) : s.completed? = none := by
  cases s with
  | rests p => cases p <;> first | rfl | cases h
  | finishing | storing | stored | unwinding => cases h
  | _ => rfl

theorem not_completes_of_isReading {s : Stance} (h : s.isReading = true) (text : String) :
    ¬ s.Completes text := by
  have hp : s.isPanicked = false := by
    cases s with
    | rests p => cases p <;> first | rfl | cases h
    | finishing | storing | stored | unwinding => cases h
    | _ => rfl
  simp [Completes, completed?_of_isReading h, hp]

/-- A completed request answers with its text. -/
theorem completed?_ended (id text : String) (now : Timestamp) :
    completed? (.rests (.ended ⟨id, .ofText .assistant text now, .completed⟩)) = some text := by
  simp [completed?, Response.text, Message.text, Message.ofText, Part.text?]

theorem isAtWork_of_isReading {s : Stance} (h : s.isReading = true) : s.isAtWork = true := by
  cases s with
  | rests p => cases p <;> first | rfl | cases h
  | finishing | storing | stored | unwinding => cases h
  | _ => rfl

end Stance

namespace Desk

/-- The next thing is to hand a completion in, and the slot is in flight for the request. -/
def isTimely (d : Desk) : Stance → Bool
  | .finishing id _ (.completed _) => d.slot.state.holds id
  | _ => false

/-- Neither an entry for the history nor a last response was recorded. -/
structure Unrecorded (d d' : Desk) : Prop where
  entries : d'.entries = d.entries
  conversation : d'.conversation = d.conversation

/-- The last response was recorded, and an entry for the history if there is one. -/
structure Records (stores : Bool) (id text : String) (axes : Axes) (d d' : Desk) : Prop where
  conversation : d'.conversation = { d.conversation with lastResponse := text }
  stored : stores = true → ∃ entry : HistoryEntry, d'.entries = entry :: d.entries ∧
    entry.requestId = id ∧ Text.trim entry.text = text ∧ entry.axes = axes
  unstored : stores = false → d'.entries = d.entries

/-- An attempt was begun for a request with some axes. -/
structure Begun (id : String) (i : Nat) (axes : Axes) (d : Desk) : Prop where
  bound : i < d.board.attempts.length
  requestId : (d.board.attempt i).requestId = id
  axes : (d.board.attempt i).transcript.axes = axes

/-- The worker of a request reads into an attempt that was begun for it. A text that was read as a whole
is that of the attempt. -/
structure Prepares (id : String) (i : Nat) (axes : Axes) (setup : Setup) (d : Desk) (s : Stance) :
    Prop where
  setup : d.setup = setup
  into : s.IsInto i
  request : s.isAtWork = true → s.request? = some id
  begun : s.isAtWork = true → d.Begun id i axes
  whole : ∀ text, s = .finishing id i (.completed text) → text = (d.board.attempt i).text

variable {id : String} {i : Nat} {axes : Axes} {setup : Setup} {d d' : Desk} {s s' : Stance}

namespace Begun

theorem of_board (h : d.Begun id i axes) (hb : d'.board = d.board) : d'.Begun id i axes := by
  obtain ⟨bound, requestId, axes⟩ := h
  rw [← hb] at bound requestId axes
  exact ⟨bound, requestId, axes⟩

theorem note (h : d.Begun id i axes) (n : Note) : (d.note i n).Begun id i axes := by
  obtain ⟨requestId, axes⟩ := (d.board.attempt i).noted_eq n d.now
  rw [← attempt_note h.bound] at requestId axes
  exact ⟨(length_note ..).symm ▸ h.bound, requestId.trans h.requestId, axes.trans h.axes⟩

theorem noteAll (h : d.Begun id i axes) (notes : List Note) : (d.noteAll i notes).Begun id i axes := by
  induction notes generalizing d with
  | nil => exact h
  | cons n notes ih => exact ih (h.note n)

theorem glosses (h : d.Begun id i axes) (hg : d.Glosses i d') : d'.Begun id i axes where
  bound := h.bound.trans_le hg.grows
  requestId := (hg.glossed h.bound).requestId.trans h.requestId
  axes := (hg.glossed h.bound).axes.trans h.axes

end Begun

theorem Inert.unrecorded (h : Inert d d') : Unrecorded d d' := ⟨h.entries, h.conversation⟩

theorem Unrecorded.trans {d'' : Desk} (h : Unrecorded d d') (h' : Unrecorded d' d'') :
    Unrecorded d d'' := ⟨h'.entries.trans h.entries, h'.conversation.trans h.conversation⟩

theorem unrecorded_withBoard (d : Desk) (b : Board) : Unrecorded d (d.withBoard b) :=
  ⟨entries_withBoard d b, rfl⟩

theorem unrecorded_cancelledBeforeStart (d : Desk) (id : String) :
    Unrecorded d (d.cancelledBeforeStart id).1 :=
  (unrecorded_withBoard d _).trans (unrecorded_withBoard _ _)

theorem unrecorded_setOut (d : Desk) (id : String) (draft : Draft) :
    Unrecorded d (d.setOut id draft).1 := by
  simp only [setOut]
  split
  · split
    · exact unrecorded_cancelledBeforeStart d id
    · exact ⟨rfl, rfl⟩
  · have hb : Unrecorded d (d.beginAttempt id draft.axes).1 := by
      have h := unrecorded_withBoard d (d.board.beginOwned id d.slot.state).1
      simp only [beginAttempt]
      split
      · split
        · exact h
        · exact h.trans (unrecorded_withBoard _ _)
      · exact h
    exact hb.trans ⟨rfl, rfl⟩

/-- Nothing is recorded while a worker sets out or reads. -/
theorem unrecorded_advance (d : Desk) (reading : s.isReading = true) (free : s.callback? = none) :
    Unrecorded d (d.advance s).1 := by
  have hs := advanced d free
  generalize d.advance s = x at hs
  cases hs with
  | setsOut id draft => exact unrecorded_setOut d id draft
  | works mine refused notes on => exact (inert_noteAll d _ notes).unrecorded
  | streams => exact ⟨rfl, rfl⟩
  | handsIn | stores => cases reading
  | rests p => exact ⟨rfl, rfl⟩

theorem completed?_setOut (d : Desk) (id : String) (draft : Draft) :
    (d.setOut id draft).2.completed? = none := by
  simp only [setOut]
  split
  · split <;> rfl
  · split <;> rfl

/-- A worker that has given the slot back, or has panicked, prepares nothing any more. -/
theorem Prepares.of_idle (hs : d.setup = setup) (into : s.IsInto i) (idle : s.isAtWork = false) :
    d.Prepares id i axes setup s where
  setup := hs
  into := into
  request h := by simp [idle] at h
  begun h := by simp [idle] at h
  whole text h := by
    rw [h] at idle
    cases idle

/-- A worker that sets out prepares what its draft asks for, unless it ends at once. -/
theorem prepares_setOut (d : Desk) (id : String) (draft : Draft) :
    (d.setOut id draft).1.Prepares id d.board.attempts.length (d.axesFor draft.axes) d.setup
      (d.setOut id draft).2 := by
  have sent : Dealt d (d.setOut id draft).1 := dealings_setOut d id draft
  have setup := sent.setup
  revert setup
  simp only [setOut]
  split
  · split <;> exact fun setup => .of_idle setup trivial rfl
  · intro setup
    obtain ⟨index, bound, requestId, -, transcript⟩ := opened_beginAttempt d id draft.axes
    have begun : Begun id _ (d.axesFor draft.axes) (d.beginAttempt id draft.axes).1 :=
      ⟨bound, requestId, congrArg Transcript.axes transcript⟩
    rw [index]
    split <;> exact ⟨setup, rfl, fun _ => rfl, fun _ => begun.of_board rfl, nofun⟩

/-- How an execution starts whose request has taken the slot: the request is sent if it still may be,
unless it was cancelled before. -/
inductive Starts (d : Desk) (id : String) (draft : Draft) : Desk × Stance → Prop
  | setsOut : Starts d id draft (d.setOut id draft)
  | refused : Starts d id draft
      ((d.cancelledBeforeStart id).1, .rests (.ended (d.cancelledBeforeStart id).2))

theorem Starts.spec {draft : Draft} {x : Desk × Stance} (h : d.Starts id draft x) :
    Unrecorded d x.1 ∧ x.2.completed? = none ∧
      x.1.Prepares id d.board.attempts.length (d.axesFor draft.axes) d.setup x.2 := by
  cases h with
  | setsOut =>
    exact ⟨unrecorded_setOut d id draft, completed?_setOut d id draft, prepares_setOut d id draft⟩
  | refused => exact ⟨unrecorded_cancelledBeforeStart d id, rfl, .of_idle rfl trivial rfl⟩

/-- The slot is given back. A completion that comes in time is recorded. -/
theorem records_handIn {outcome : ReadOutcome}
    (h : d.Prepares id i axes setup (.finishing id i outcome)) :
    (d.isTimely (.finishing id i outcome) = false ∧ (d.handIn id i outcome).2.completed? = none ∧
        Unrecorded d (d.handIn id i outcome).1) ∨
      ∃ text, outcome = .completed text ∧ d.isTimely (.finishing id i outcome) = true ∧
        (d.handIn id i outcome).2.completed? = some (Text.trim text) ∧
        Records setup.history.isSome id (Text.trim text) axes d (d.handIn id i outcome).1 := by
  cases outcome with
  | completed text =>
    simp only [handIn]
    split
    · rename_i hm
      have hn := Slot.move?_eq_none_iff (m := .complete id).1 hm
      refine .inl ⟨by simpa [isTimely, Slot.Move.Allowed] using hn, rfl, ?_⟩
      exact (inert_note d i _).unrecorded
    · rename_i t hm
      have ha := (Slot.move?_eq_some_iff (m := .complete id)).1 hm
      refine .inr ⟨text, rfl, ha.1, ?_⟩
      let d₁ : Desk := { d.withSlot t with
        conversation := { d.conversation with lastResponse := Text.trim text } }
      split
      · rename_i writer hw
        have hs : setup.history = some writer := h.setup ▸ hw
        let entry := (d.board.attempt i).historyEntry
        have he : (d₁.beginLogEntry i).1.entries = entry :: d.entries :=
          congrArg (entry :: ·) (entries_withBoard d₁ _)
        have begun := h.begun rfl
        refine ⟨rfl, rfl, fun _ => ⟨entry, he, begun.requestId, ?_, begun.axes⟩, fun hn => ?_⟩
        · rw [h.whole text rfl]
          rfl
        · rw [hs] at hn
          cases hn
      · rename_i hw
        have hs : setup.history = none := h.setup ▸ hw
        refine ⟨Stance.completed?_ended .., rfl, fun hn => ?_, fun _ => rfl⟩
        rw [hs] at hn
        cases hn
  | cancelled text =>
    simp only [handIn, finish]
    refine .inl ⟨rfl, rfl, ?_⟩
    split
    · rename_i t _
      have hs : Unrecorded d (d.withSlot t) := ⟨rfl, rfl⟩
      exact hs.trans (inert_note _ i _).unrecorded
    · exact (inert_note d i _).unrecorded
  | failed f =>
    simp only [handIn, finish, failOwned]
    refine .inl ⟨rfl, rfl, ?_⟩
    split <;> exact ⟨rfl, rfl⟩

theorem handIn_idle (d : Desk) (id : String) (i : Nat) (outcome : ReadOutcome) :
    (d.handIn id i outcome).2.IsInto i ∧ (d.handIn id i outcome).2.isAtWork = false := by
  cases outcome with
  | completed text =>
    simp only [handIn]
    split
    · exact ⟨trivial, rfl⟩
    · split <;> exact ⟨by trivial, rfl⟩
  | cancelled | failed => exact ⟨trivial, rfl⟩

namespace Prepares

theorem reads (h : d.Prepares id i axes setup s) (atWork : s.isAtWork = true) {x : Desk × Stance}
    (hx : d.Reads id i x) (hs : x.1.setup = setup) : x.1.Prepares id i axes setup x.2 := by
  have begun := h.begun atWork
  cases hx with
  | @goesOn d' s' texts setup' board request into reading =>
    have begun' : d'.Begun id i axes := (begun.noteAll (texts.map .chunk)).of_board board
    refine ⟨hs, Stance.isInto_of_attempt? into, fun _ => request, fun _ => begun', fun text he => ?_⟩
    have he : s' = .finishing id i (.completed text) := he
    rw [he] at reading
    cases reading
  | ends texts outcome logged whole =>
    subst logged
    refine ⟨hs, rfl, fun _ => rfl, fun _ => begun.noteAll _, fun text he => ?_⟩
    cases he
    exact whole text rfl
  | panics message => exact .of_idle hs trivial rfl

theorem glosses (h : d.Prepares id i axes setup s) (hg : d.Glosses i d') :
    d'.Prepares id i axes setup s where
  setup := hg.setup.trans h.setup
  into := h.into
  request := h.request
  begun hw := (h.begun hw).glosses hg
  whole text he := by
    have begun := h.begun (by rw [he]; rfl)
    rw [h.whole text he, Attempt.text, Attempt.text, Transcript.text, Transcript.text,
      (hg.glossed begun.bound).chunks]

/-- A worker keeps what it prepares, whatever is logged beside its request meanwhile. -/
theorem lasting (id : String) (i : Nat) (axes : Axes) (setup : Setup) :
    Lasting (Glosses i) (Prepares id i axes setup) where
  own {d s} h free := by
    have hs := (dealt_advance d free).setup.trans h.setup
    cases hr : s.isReading with
    | true =>
      have atWork := Stance.isAtWork_of_isReading hr
      exact h.reads atWork
        (reads_advance d hr (h.request atWork) (Stance.attempt?_of_isReading hr h.into)) hs
    | false =>
      cases s with
      | finishing id' attempt outcome =>
        obtain rfl : attempt = i := Option.some.inj h.into
        obtain ⟨into, idle⟩ := handIn_idle d id' attempt outcome
        exact .of_idle hs into idle
      | storing id' text attempt entry writer => cases writer <;> cases free
      | stored | unwinding => exact .of_idle hs trivial rfl
      | rests p => exact h
      | due | playing | reading => cases hr
  asks {d s s' calls} h asked := by
    obtain ⟨setup, into, request, begun, whole⟩ := h
    unfold Stance.callback? at asked
    split at asked <;> cases asked <;> exact ⟨setup, into, request, begun, nofun⟩
  others h hg := h.glosses hg
  turn h := ⟨h.setup, h.into, h.request, h.begun, nofun⟩

end Prepares

/-- A worker records nothing at a moment. -/
def RecordsNothing (z : Desk × Stance) : Prop :=
  z.1.isTimely z.2 = false ∧ z.1.Unrecorded (z.1.advance z.2).1

theorem Prepares.advance (h : d.Prepares id i axes setup s) (free : s.callback? = none) :
    (RecordsNothing (d, s) ∧ (d.advance s).2.completed? = s.completed? ∧
        ∀ text, s.Completes text → (d.advance s).2.Completes text ∧
          (d.advance s).1.slot = d.slot) ∨
      (s.completed? = none ∧ ∃ text, s = .finishing id i (.completed text) ∧ d.isTimely s = true ∧
        (d.advance s).2.completed? = some (Text.trim text) ∧
        Records setup.history.isSome id (Text.trim text) axes d (d.advance s).1) := by
  cases hr : s.isReading with
  | true =>
    have atWork := Stance.isAtWork_of_isReading hr
    have hn := Stance.completed?_of_isReading hr
    have hx := reads_advance d hr (h.request atWork) (Stance.attempt?_of_isReading hr h.into)
    have timely : d.isTimely s = false := by
      cases s with
      | finishing => cases hr
      | _ => rfl
    refine .inl ⟨⟨timely, unrecorded_advance d hr free⟩, ?_, fun text hc =>
      absurd hc (Stance.not_completes_of_isReading hr text)⟩
    rw [hn]
    generalize d.advance s = x at hx
    cases hx with
    | goesOn texts setup board request into reading => exact Stance.completed?_of_isReading reading
    | ends | panics => rfl
  | false =>
    cases s with
    | finishing id' attempt outcome =>
      obtain rfl : attempt = i := Option.some.inj h.into
      obtain rfl : id' = id := Option.some.inj (h.request rfl)
      rcases records_handIn h with ⟨timely, hc, hu⟩ | ⟨text, rfl, timely, hc, hrec⟩
      · exact .inl ⟨⟨timely, hu⟩, hc, fun text ht => ht.elim nofun nofun⟩
      · exact .inr ⟨rfl, text, rfl, timely, hc, hrec⟩
    | storing id' text attempt entry writer => cases writer <;> cases free
    | stored id' text attempt entry result =>
      have hu : Unrecorded d (d.endLogEntry attempt entry result).1 := by
        cases result <;> exact (inert_note d attempt _).unrecorded
      have hc : (d.advance (.stored id' text attempt entry result)).2.completed? = some text :=
        Stance.completed?_ended ..
      refine .inl ⟨⟨rfl, hu⟩, hc, fun text' ht => ⟨.inl (hc.trans (ht.resolve_right nofun)), ?_⟩⟩
      exact endLogEntry_slot d attempt entry result
    | unwinding id' attempt message =>
      exact .inl ⟨⟨rfl, rfl, rfl⟩, rfl, fun _ _ => ⟨.inr rfl, rfl⟩⟩
    | rests p => exact .inl ⟨⟨rfl, rfl, rfl⟩, rfl, fun _ hc => ⟨hc, rfl⟩⟩
    | due | playing | reading => cases hr

end Desk

open Desk (Glosses Prepares Records RecordsNothing)

variable {id : String} {i : Nat} {axes : Axes} {setup : Setup} {x y : Desk × Stance}
variable {l : List (Desk × Stance)}

/-- A request was completed at one moment, and nothing was recorded at the others. After that moment
the slot is left alone. -/
structure CompletedAt (id : String) (i : Nat) (axes : Axes) (stores : Bool) (text : String)
    (after : List (Desk × Stance)) (z : Desk × Stance) (before : List (Desk × Stance)) : Prop where
  timely : z.1.isTimely z.2 = true
  read : ∃ whole, z.2 = .finishing id i (.completed whole) ∧ text = Text.trim whole
  records : z.1.Records stores id text axes (z.1.advance z.2).1
  others : ∀ m ∈ after ++ before, RecordsNothing m
  leaves : ∀ m ∈ after, (m.1.advance m.2).1.slot = m.1.slot

/-- As long as a request is not completed nothing is recorded, and it is completed once at most. -/
theorem Runs.recording (run : Runs (Glosses i) x l y) (h : x.1.Prepares id i axes setup x.2)
    (hx : x.2.completed? = none) :
    (y.2.completed? = none ∧ ∀ m ∈ l, RecordsNothing m) ∨
      ∃ text after z before, l = after ++ z :: before ∧ y.2.Completes text ∧
        CompletedAt id i axes setup.history.isSome text after z before := by
  induction run with
  | start => exact .inl ⟨hx, by simp⟩
  | @own l d s run free ih =>
    have hp := (run.lasting (Prepares.lasting id i axes setup) h).1
    rcases hp.advance free with ⟨hn, hc, keeps⟩ | ⟨hnone, text, rfl, timely, hc, records⟩
    · rcases ih with ⟨hy, hl⟩ | ⟨text, after, z, before, rfl, hy, at_⟩
      · exact .inl ⟨hc.trans hy, List.forall_mem_cons.2 ⟨hn, hl⟩⟩
      · obtain ⟨hy, hslot⟩ := keeps text hy
        exact .inr ⟨text, (d, s) :: after, z, before, rfl, hy, at_.timely, at_.read,
          at_.records, List.forall_mem_cons.2 ⟨hn, at_.others⟩,
          List.forall_mem_cons.2 ⟨hslot, at_.leaves⟩⟩
    · rcases ih with ⟨-, hl⟩ | ⟨text', after, z, before, rfl, hy | hy, -⟩
      · exact .inr ⟨Text.trim text, [], _, l, rfl, .inl hc, timely, ⟨text, rfl, rfl⟩, records, hl,
          by simp⟩
      · cases hy
      · cases hy
  | @asks l d s s' calls run asked made ih =>
    have hc : (s.completed? = none → s'.completed? = none) ∧
        ∀ text, s.Completes text → s'.Completes text := by
      unfold Stance.callback? at asked
      split at asked <;> cases asked
      · exact ⟨fun h => h, fun _ h => h⟩
      · exact ⟨fun h => h, fun _ h => h⟩
      · exact ⟨fun h => h, fun _ h => h⟩
      -- the history writer panics after the completion
      · exact ⟨nofun, fun _ _ => .inr rfl⟩
    rcases ih with ⟨hy, hl⟩ | ⟨text, after, z, before, hl, hy, at_⟩
    · exact .inl ⟨hc.1 hy, hl⟩
    · exact .inr ⟨text, after, z, before, hl, hc.2 text hy, at_⟩
  | others run made ih => exact ih
  | turn run ih => exact ih

/-- When an execution has returned, its request was completed at one moment of its own at which the last
response and an entry for the history were recorded, with the text of the response and the axes that
the catalog knows, or the request was not completed and nothing was recorded at any moment, whatever
others did meanwhile. What the history answers makes no difference to the response and the slot. -/
theorem Runs.recorded_of_returned {d : Desk} {draft : Draft} {response : Response}
    (starts : d.Starts id draft x) (run : Runs (Glosses d.board.attempts.length) x l y)
    (returned : y.2.response? = some response) :
    d.Unrecorded x.1 ∧
      (response.outcome = .completed → ∃ after z before, l = after ++ z :: before ∧
        CompletedAt id d.board.attempts.length (d.axesFor draft.axes) d.setup.history.isSome
          response.text after z before) ∧
      (response.outcome ≠ .completed → ∀ m ∈ l, RecordsNothing m) ∧
      ∀ {d' r text j entry result}, (d', .stored r text j entry result) ∈ l → ∀ result',
        (d'.advance (.stored r text j entry result')).2 =
            (d'.advance (.stored r text j entry result)).2 ∧
          (d'.advance (.stored r text j entry result')).1.slot = d'.slot ∧
          (d'.advance (.stored r text j entry result')).1.conversation = d'.conversation := by
  obtain ⟨unrecorded, uncompleted, prepares⟩ := starts.spec
  have hrec := run.recording prepares uncompleted
  rw [Stance.response?_eq_some_iff.1 returned] at hrec
  refine ⟨unrecorded, fun completed => ?_, fun uncompleted => ?_, ?_⟩
  · have hc : (Stance.rests (.ended response)).completed? = some response.text := if_pos completed
    rw [hc] at hrec
    obtain ⟨hn, -⟩ | ⟨text, after, z, before, hl, ht, at_⟩ := hrec
    · cases hn
    · obtain rfl := Option.some.inj (hc.symm.trans (ht.resolve_right nofun))
      exact ⟨after, z, before, hl, at_⟩
  · have hc : (Stance.rests (.ended response)).completed? = none := if_neg uncompleted
    obtain ⟨-, hl⟩ | ⟨text, after, z, before, -, ht, -⟩ := hrec
    · exact hl
    · cases hc.symm.trans (ht.resolve_right nofun)
  · intro d' r text j entry result _ result'
    refine ⟨?_, Desk.endLogEntry_slot .., ?_⟩
    · cases result' <;> cases result <;> rfl
    · cases result' <;> rfl

/-- A writer that fails, and submits another request before it does. While the response was read,
another submission was refused. -/
theorem Runs.recorded_of_failing_writer :
    let next : Call := .mk "next" (.submit (.mk "b" [] none none ∅) "k3" "h3")
    let opened : Desk :=
      { setup :=
          { catalog := some (.ok (Keyed.ofList [("tone", ["warm"])]))
            history := some (.mk [next] (.error .cancelled)) }
        replies := [⟨[], [.chunk " a", .chunk "b "]⟩] }
    let d := (opened.claim "k1").1
    let draft : Draft :=
      { destination := .default, requestId := some "req-1"
        axes := Keyed.ofList [("mood", ["good"]), ("tone", ["warm", "cold"])] }
    ∃ l y response after z before,
      d.Starts "req-1" draft (d.setOut "req-1" draft) ∧
      Runs (Glosses d.board.attempts.length) (d.setOut "req-1" draft) l y ∧
      y.2.response? = some response ∧ response.outcome = .completed ∧ response.text = "ab" ∧
      y.1.conversation.lastResponse = "ab" ∧ y.1.slot.state.holds "req-2" = true ∧
      y.1.entries = [⟨"req-1", " ab ", Keyed.ofList [("tone", ["warm"])]⟩] ∧
      l = after ++ z :: before ∧
      CompletedAt "req-1" d.board.attempts.length (d.axesFor draft.axes) true response.text after z
        before := by
  intro next opened d draft
  obtain ⟨l₁, run₁⟩ := (Runs.start (x := d.setOut "req-1" draft)).acting
    (glosses_performAll d.board.attempts.length) 4 (by decide +kernel)
  let submit : Step := .submit (.mk "c" [] none none ∅) "k2" "h2"
  have run₂ := run₁.others (submit.glosses_perform d.board.attempts.length _ rfl)
  obtain ⟨l, run⟩ := run₂.acting (glosses_performAll d.board.attempts.length) 5 (by decide +kernel)
  generalize hy : act^[5] _ = y at run
  have returned : y.2.response?.map (fun r => (r.outcome, r.text)) = some (.completed, "ab") := by
    rw [← hy]
    decide +kernel
  have last : y.1.conversation.lastResponse = "ab" := by
    rw [← hy]
    decide +kernel
  have holds : y.1.slot.state.holds "req-2" = true := by
    rw [← hy]
    decide +kernel
  have entries : y.1.entries = [⟨"req-1", " ab ", Keyed.ofList [("tone", ["warm"])]⟩] := by
    rw [← hy]
    decide +kernel
  obtain ⟨response, returned, he⟩ := Option.map_eq_some_iff.1 returned
  obtain ⟨completed, text⟩ := Prod.mk.inj he
  obtain ⟨-, once, -⟩ := Runs.recorded_of_returned .setsOut run returned
  obtain ⟨after, z, before, moments, at_⟩ := once completed
  exact ⟨l, y, response, after, z, before, .setsOut, run, returned, completed, text, last, holds,
    entries, moments, at_⟩

end PromptDesk
