import PromptDesk.Proofs.Desk.Statuses

/-! What is shown of an execution, and how it ended. An attempt looks completed, errored or in flight
according to the outcome of the execution that reads into it, whatever happens meanwhile; but a
completion that is handed in when the slot no longer belongs to the request comes too late, and then
the attempt says that it is complete although the request was cancelled. -/
namespace PromptDesk

/-- How an attempt looks whose execution ended so. -/
def Outcome.shownAs : Outcome → StreamStatus
  | completed => .completed
  | failed _ => .errored
  | cancelled => .inflight

/-- How an attempt looks that was read so far. -/
def ReadOutcome.shownAs : ReadOutcome → StreamStatus
  | completed _ => .completed
  | cancelled _ => .inflight
  | failed _ => .errored

namespace Stance

/-- The status of the attempt of a worker that stands there. -/
def shows? : Stance → Option StreamStatus
  | due _ | playing _ _ _ | reading _ _ _ _ _ _ | rests (.waiting _) => some .inflight
  | finishing _ _ outcome => some outcome.shownAs
  | storing _ _ _ _ _ | stored _ _ _ _ _ | unwinding _ _ _ => some .completed
  | rests (.ended response) => some response.outcome.shownAs
  | rests (.panicked _) => none

/-- What the worker has returned, if it has. -/
def response? : Stance → Option Response
  | rests (.ended response) => some response
  | _ => none

theorem response?_eq_some_iff {s : Stance} {response : Response} :
    s.response? = some response ↔ s = rests (.ended response) := by
  cases s with
  | rests p => cases p <;> simp [response?]
  | _ => simp [response?]

/-- A worker that still has something to do reads into this attempt. -/
def IsInto (i : Nat) : Stance → Prop
  | rests (.ended _) | rests (.panicked _) => True
  | s => s.attempt? = some i

end Stance

namespace Desk

/-- The attempt of a worker looks as it has to. -/
structure Shows (i : Nat) (d : Desk) (s : Stance) : Prop where
  bound : i < d.board.attempts.length
  into : s.IsInto i
  status : ∀ status, s.shows? = some status → (d.board.attempt i).status = status

/-- The next thing is to hand a completion in, and it comes too late: the slot is no longer in flight
for the request. -/
def isLate (d : Desk) : Stance → Bool
  | .finishing id _ (.completed _) => !d.slot.state.holds id
  | _ => false

/-- The attempt says that it is complete, and the request was cancelled. -/
def Contradicts (i : Nat) (d : Desk) (s : Stance) : Prop :=
  i < d.board.attempts.length ∧ (d.board.attempt i).status = .completed ∧
    ∃ response, s = .rests (.ended response) ∧ response.outcome = .cancelled

variable {i : Nat} {d d' : Desk} {s s' : Stance} {c : Errand}

namespace Shows

theorem of_keeps (h : d.Shows i s) (hk : d.KeepsStatus i d') (into : s'.IsInto i)
    (shows : s'.shows? = s.shows?) : d'.Shows i s' where
  bound := h.bound.trans_le hk.grows
  into := into
  status status hs := (hk.status h.bound).trans (h.status status (shows ▸ hs))

/-- A note on an attempt in flight has its effect. -/
theorem of_note (bound : i < d.board.attempts.length)
    (inflight : (d.board.attempt i).status = .inflight) {n : Note} (into : s.IsInto i)
    (shows : s.shows? = some (n.statusAfter .inflight)) : (d.note i n).Shows i s where
  bound := bound.trans_le (Board.follows_note d.board i n d.now).grows
  into := into
  status status hs := by
    obtain rfl := Option.some.inj (shows.symm.trans hs)
    exact (Board.status_note bound n d.now).trans (congrArg n.statusAfter inflight)

section

variable (bound : c.attempt < d.board.attempts.length)
  (inflight : (d.board.attempt c.attempt).status = .inflight)
include bound inflight

theorem fault (f : Failure) : (d.fault c f).1.Shows c.attempt (d.fault c f).2 := by
  rw [Desk.fault]
  split
  · exact ⟨bound, rfl, fun _ hs => Option.some.inj hs ▸ inflight⟩
  · exact of_note bound inflight rfl rfl

theorem pause (p : Playback) : (d.pause c p).1.Shows c.attempt (d.pause c p).2 := by
  have h : d.Shows c.attempt (.rests (.waiting (c.waiting p))) := by
    refine ⟨bound, ?_, fun _ hs => Option.some.inj hs ▸ inflight⟩
    obtain ⟨_, _, _, _, _, stream⟩ := c
    cases stream <;> rfl
  rw [Desk.pause]
  split
  · split
    · exact fault bound inflight _
    · exact h
  · exact h

theorem resume (p : Playback) : (d.resume c p).1.Shows c.attempt (d.resume c p).2 := by
  rw [Desk.resume]
  split
  · exact fault bound inflight _
  · split
    · exact ⟨bound, rfl, fun _ hs => Option.some.inj hs ▸ inflight⟩
    · exact pause bound inflight p

theorem arrive (text : String) : (d.arrive c text).1.Shows c.attempt (d.arrive c text).2 := by
  rw [Desk.arrive]
  split
  · split
    · exact ⟨bound, rfl, fun _ hs => Option.some.inj hs ▸ inflight⟩
    · exact ⟨bound, rfl, fun _ hs => Option.some.inj hs ▸ inflight⟩
  · have h : (d.note c.attempt (.chunk text)).Shows c.attempt (.playing c [] text) :=
      of_note bound inflight rfl rfl
    exact of_note h.bound (h.status _ rfl) rfl rfl

theorem playOne (text : String) (items : List Item) :
    (d.playOne c text items).1.Shows c.attempt (d.playOne c text items).2 := by
  cases items with
  | nil => exact arrive bound inflight text
  | cons item rest =>
    cases item with
    | chunk | calls => exact ⟨bound, rfl, fun _ hs => Option.some.inj hs ▸ inflight⟩
    | fail f => exact fault bound inflight f
    | panic payload => exact ⟨bound, trivial, nofun⟩
    | delay | wait | hang =>
      simp only [Desk.playOne]
      split
      · exact pause bound inflight _
      · exact ⟨bound, rfl, fun _ hs => Option.some.inj hs ▸ inflight⟩

end

section

variable (bound : i < d.board.attempts.length)
  (inflight : (d.board.attempt i).status = .inflight)
include bound inflight

theorem halt (id : String) {token : Option Nat} {idle : Option Limit} {out : Desk × ReadOutcome}
    (h : d.halt? i token idle = some out) : out.1.Shows i (.finishing id i out.2) := by
  unfold halt? at h
  split at h
  · cases h
    exact ⟨bound, rfl, fun _ hs => Option.some.inj hs ▸ inflight⟩
  · split at h
    · split at h
      · cases h
        exact of_note bound inflight rfl rfl
      · cases h
    · cases h

theorem readOne (id : String) (draft : Draft) (token : Option Nat) (idle : Option Limit)
    (items : List Item) :
    (d.readOne id draft i token idle items).1.Shows i (d.readOne id draft i token idle items).2 := by
  cases items with
  | nil => exact of_note bound inflight rfl rfl
  | cons item rest =>
    cases item with
    | chunk text =>
      have h : (d.note i (.chunk text)).Shows i (.reading id draft i token rest idle) :=
        of_note bound inflight rfl rfl
      rw [Desk.readOne]
      split
      · rename_i hh
        exact halt h.bound (h.status _ rfl) id hh
      · exact ⟨h.bound, rfl, h.status⟩
    | fail f => exact of_note bound inflight rfl rfl
    | panic payload => exact ⟨bound, trivial, fun _ hs => by cases hs⟩
    | calls calls => exact ⟨bound, rfl, fun _ hs => Option.some.inj hs ▸ inflight⟩
    | delay | wait | hang =>
      simp only [Desk.readOne]
      split <;> exact ⟨bound, rfl, fun _ hs => Option.some.inj hs ▸ inflight⟩

end

/-- A completion counts while the slot is in flight for the request. -/
theorem handIn {id : String} {outcome : ReadOutcome} (h : d.Shows i (.finishing id i outcome))
    (hl : d.isLate (.finishing id i outcome) = false) :
    (d.handIn id i outcome).1.Shows i (d.handIn id i outcome).2 := by
  have hk := keepsStatus_handIn i d id i outcome
  cases outcome with
  | completed text =>
    have hh : d.slot.state.holds id = true := by simpa [isLate] using hl
    have hc : d.slot.completeFor? id = some _ := Slot.move?_of_allowed (m := .complete id) hh
    have hs : ∀ s : Stance, s.IsInto i → s.shows? = some .completed →
        (d.handIn id i (.completed text)).1.Shows i s := fun s into hs =>
      h.of_keeps hk into hs
    rw [Desk.handIn, hc] at hs ⊢
    dsimp only at hs ⊢
    cases hw : d.setup.history with
    | some writer =>
      simp only [withSlot, rouse, hw] at hs ⊢
      exact hs _ rfl rfl
    | none =>
      simp only [withSlot, rouse, hw] at hs ⊢
      exact hs _ trivial rfl
  | cancelled text => exact h.of_keeps hk trivial rfl
  | failed f => exact h.of_keeps hk trivial rfl

/-- Somebody is called for a worker, which is none of its attempt's business. -/
theorem asks (h : d.Shows i s) {calls : List Call} (asked : s.callback? = some (calls, s')) :
    d.Shows i s' := by
  obtain ⟨bound, into, status⟩ := h
  unfold Stance.callback? at asked
  split at asked <;> cases asked <;> exact ⟨bound, into, status⟩

/-- A step of a worker of its own leaves its attempt looking as it has to, unless it hands in a
completion too late. -/
theorem advance (h : d.Shows i s) (hl : d.isLate s = false) :
    (d.advance s).1.Shows i (d.advance s).2 := by
  obtain ⟨bound, into, status⟩ := h
  cases s with
  | due e =>
    obtain ⟨id, draft, stage⟩ := e
    have inflight := status _ rfl
    cases stage with
    | claimed => cases into
    | opening attempt token limit p items =>
      obtain rfl := Option.some.inj into
      exact resume (c := ⟨id, draft, attempt, token, limit, some items⟩) bound inflight p
    | collecting attempt token limit p =>
      obtain rfl := Option.some.inj into
      exact resume (c := ⟨id, draft, attempt, token, limit, none⟩) bound inflight p
    | reading r =>
      obtain rfl := Option.some.inj into
      rw [Desk.advance]
      split
      · rename_i hh
        exact halt bound inflight id hh
      · split <;> exact ⟨bound, rfl, fun _ hs => Option.some.inj hs ▸ inflight⟩
  | playing c items text =>
    obtain rfl := Option.some.inj into
    exact playOne bound (status _ rfl) text items
  | reading id draft attempt token items idle =>
    obtain rfl := Option.some.inj into
    exact readOne bound (status _ rfl) id draft token idle items
  | finishing id attempt outcome =>
    obtain rfl := Option.some.inj into
    exact handIn ⟨bound, rfl, status⟩ hl
  | storing id text attempt entry writer => exact ⟨bound, into, status⟩
  | stored id text attempt entry result =>
    exact of_keeps ⟨bound, into, status⟩ (keepsStatus_endLogEntry i d attempt entry result) trivial rfl
  | unwinding id attempt message => exact ⟨bound, trivial, by rintro _ ⟨⟩⟩
  | rests p => exact ⟨bound, into, status⟩

/-- A completion that comes too late is dropped, but not what was noted on the attempt. -/
theorem contradicts (h : d.Shows i s) (hl : d.isLate s = true) :
    (d.advance s).1.Contradicts i (d.advance s).2 := by
  unfold isLate at hl
  split at hl
  · rename_i id attempt text
    obtain rfl : attempt = i := Option.some.inj h.into
    have hn : d.slot.state.holds id = false := by simpa using hl
    have hk := keepsStatus_handIn attempt d id attempt (.completed text)
    have hc : d.slot.completeFor? id = none :=
      (Slot.move?_eq_none_iff (m := .complete id)).2 (by simp [Slot.Move.Allowed, hn])
    refine ⟨h.bound.trans_le hk.grows, (hk.status h.bound).trans (h.status _ rfl),
      .empty id .cancelled d.now, ?_, rfl⟩
    rw [Desk.advance, Desk.handIn, hc]
  · cases hl

end Shows

/-- How an execution may come to have an attempt of its own: its request is sent, or it turns out to
have been cancelled before. -/
inductive Opens (d : Desk) (id : String) : Nat → Desk × Stance → Prop
  | setsOut (draft : Draft)
      (opens : d.board.attempts.length < (d.setOut id draft).1.board.attempts.length) :
      Opens d id d.board.attempts.length (d.setOut id draft)
  | refused : Opens d id d.board.attempts.length
      ((d.cancelledBeforeStart id).1, .rests (.ended (d.cancelledBeforeStart id).2))

theorem Opens.shows {id : String} {x : Desk × Stance} (h : d.Opens id i x) : x.1.Shows i x.2 := by
  have refused : (d.cancelledBeforeStart id).1.Shows d.board.attempts.length
      (.rests (.ended (d.cancelledBeforeStart id).2)) := by
    obtain ⟨index, bound, status⟩ := (Board.blank_begin d.board id).fresh
    rw [← index]
    exact .of_note (d := d.withBoard (d.board.begin id).1) bound status trivial rfl
  cases h with
  | setsOut draft opens =>
    revert opens
    simp only [setOut]
    split
    · split
      · exact fun _ => refused
      · exact fun h => absurd h (Nat.lt_irrefl _)
    · intro _
      obtain ⟨index, bound, status⟩ := fresh_beginAttempt d id draft.axes
      have index : (d.beginAttempt id draft.axes).2 = d.board.attempts.length := index
      rw [← index]
      split <;> exact ⟨bound, rfl, fun _ hs => Option.some.inj hs ▸ status⟩
  | refused => exact refused

theorem Contradicts.of_keeps (h : d.Contradicts i s) (hk : d.KeepsStatus i d') : d'.Contradicts i s :=
  ⟨h.1.trans_le hk.grows, (hk.status h.1).trans h.2.1, h.2.2⟩

end Desk

variable {i : Nat} {x y : Desk × Stance} {l : List (Desk × Stance)}

/-- The attempt of a worker looks as it has to, until a completion comes too late. -/
theorem Runs.shows (run : Runs (Desk.KeepsStatus i) x l y) (h : x.1.Shows i x.2) :
    (y.1.Shows i y.2 ∧ ∀ z ∈ l, z.1.isLate z.2 = false) ∨
      (y.1.Contradicts i y.2 ∧ ∃ z ∈ l, z.1.isLate z.2 = true) := by
  induction run with
  | start => exact .inl ⟨h, by simp⟩
  | @own l d s run free ih =>
    rcases ih with ⟨hs, hl⟩ | ⟨hc, z, hz, hl⟩
    · cases hlate : d.isLate s with
      | false => exact .inl ⟨hs.advance hlate, List.forall_mem_cons.2 ⟨hlate, hl⟩⟩
      | true => exact .inr ⟨hs.contradicts hlate, (d, s), List.mem_cons_self, hlate⟩
    · obtain ⟨_, _, response, rfl, _⟩ := id hc
      exact .inr ⟨hc, z, List.mem_cons_of_mem _ hz, hl⟩
  | asks run asked made ih =>
    rcases ih with ⟨hs, hl⟩ | ⟨⟨_, _, response, rfl, _⟩, _⟩
    · exact .inl ⟨(hs.asks asked).of_keeps made (hs.asks asked).into rfl, hl⟩
    · cases asked
  | others run made ih =>
    rcases ih with ⟨hs, hl⟩ | ⟨hc, hl⟩
    · exact .inl ⟨hs.of_keeps made hs.into rfl, hl⟩
    · exact .inr ⟨hc.of_keeps made, hl⟩
  | turn run ih =>
    rcases ih with ⟨hs, hl⟩ | ⟨⟨_, _, response, he, _⟩, _⟩
    · exact .inl ⟨⟨hs.bound, hs.into, hs.status⟩, hl⟩
    · cases he

/-- When an execution has returned that opened an attempt, the attempt looks as the outcome says,
whatever others did meanwhile that does not end this attempt, unless the slot was lost before a
completion was handed in: then the attempt says that it is complete, and the request was cancelled. -/
theorem Runs.shown_iff {d : Desk} {id : String} {response : Response} (opens : d.Opens id i x)
    (run : Runs (Desk.KeepsStatus i) x l y) (returned : y.2.response? = some response) :
    ((y.1.board.attempt i).snapshot.status = response.outcome.shownAs ↔
        ∀ z ∈ l, z.1.isLate z.2 = false) ∧
      ((∃ z ∈ l, z.1.isLate z.2 = true) →
        (y.1.board.attempt i).snapshot.status = .completed ∧ response.outcome = .cancelled) := by
  have hy := Stance.response?_eq_some_iff.1 returned
  rcases run.shows opens.shows with ⟨hs, hl⟩ | ⟨⟨_, hc, response', he, ho⟩, z, hz, hlate⟩
  · refine ⟨iff_of_true (hs.status _ (by rw [hy]; rfl)) hl, fun ⟨z, hz, hlate⟩ => ?_⟩
    rw [hl z hz] at hlate
    cases hlate
  · obtain rfl : response' = response := Progress.ended.inj (Stance.rests.inj (he.symm.trans hy))
    have hstatus : (y.1.board.attempt i).snapshot.status = .completed := hc
    refine ⟨iff_of_false (fun h => ?_) fun hl => ?_, fun _ => ⟨hstatus, ho⟩⟩
    · rw [hstatus, ho] at h
      cases h
    · rw [hl z hz] at hlate
      cases hlate

/-- A worker is left alone, and its callbacks end no attempt. -/
theorem Runs.alone (run : Runs (Desk.KeepsStatus i) x l y) (n : Nat)
    (behaves : ∀ k < n, (act^[k] y).2.callback?.all (fun c => Call.allIn Step.isOpenEnded c.1) = true) :
    ∃ l, Runs (Desk.KeepsStatus i) x l (act^[n] y) :=
  run.acting (keepsStatus_performAll i) n behaves

/-- While a stream is read, its request is cancelled, and another one is submitted. -/
theorem Runs.shown_of_cancel :
    let opened : Desk := { replies := [⟨[], [.chunk "a", .chunk "b"]⟩] }
    let d := (opened.claim "k1").1
    let x := d.setOut "req-1" { destination := .default, requestId := some "req-1" }
    ∃ l y response, d.Opens "req-1" 0 x ∧ Runs (Desk.KeepsStatus 0) x l y ∧
      y.2.response? = some response ∧ response.outcome = .cancelled ∧
      (y.1.board.attempt 0).snapshot.status = response.outcome.shownAs ∧
      y.1.slot.state.holds "req-2" = true ∧ ∀ z ∈ l, z.1.isLate z.2 = false := by
  intro opened d x
  have opens : d.Opens "req-1" 0 x := .setsOut _ (by decide +kernel)
  obtain ⟨l₁, run₁⟩ := Runs.alone (i := 0) (.start (x := x)) 4 (by decide +kernel)
  let cancel : Step := .command (.work (.cancelCurrent "esc"))
  let submit : Step := .submit (.mk "b" [] none none ∅) "k2" "h"
  have run₂ := (run₁.others (cancel.keepsStatus_perform 0 _ rfl)).others
    (submit.keepsStatus_perform 0 _ rfl)
  obtain ⟨l, run⟩ := run₂.alone 2 (by decide +kernel)
  generalize hy : act^[2] _ = y at run
  have returned : y.2.response?.map Response.outcome = some .cancelled := by
    rw [← hy]
    decide +kernel
  have status : (y.1.board.attempt 0).snapshot.status = .inflight := by
    rw [← hy]
    decide +kernel
  have holds : y.1.slot.state.holds "req-2" = true := by
    rw [← hy]
    decide +kernel
  obtain ⟨response, returned, cancelled⟩ := Option.map_eq_some_iff.1 returned
  have shown : (y.1.board.attempt 0).snapshot.status = response.outcome.shownAs := by
    rw [status, cancelled]
    rfl
  exact ⟨l, y, response, opens, run, returned, cancelled, shown, holds,
    (Runs.shown_iff opens run returned).1.1 shown⟩

/-- The request is cancelled after its last chunk, just before the stream ends. -/
theorem Runs.not_shown_of_late :
    let cancel : Call := .mk "cancel" (.command (.work (.cancelCurrent "esc")))
    let opened : Desk := { replies := [⟨[], [.chunk "x", .calls [cancel]]⟩] }
    let d := (opened.claim "k1").1
    let x := d.setOut "req-1" { destination := .default, requestId := some "req-1" }
    ∃ l y response, d.Opens "req-1" 0 x ∧ Runs (Desk.KeepsStatus 0) x l y ∧
      y.2.response? = some response ∧ response.outcome = .cancelled ∧
      (y.1.board.attempt 0).snapshot.status = .completed ∧
      (y.1.board.attempt 0).snapshot.status ≠ response.outcome.shownAs := by
  intro cancel opened d x
  have opens : d.Opens "req-1" 0 x := .setsOut _ (by decide +kernel)
  obtain ⟨l, run⟩ := Runs.alone (i := 0) (.start (x := x)) 7 (by decide +kernel)
  generalize hy : act^[7] x = y at run
  have returned : y.2.response?.map Response.outcome = some .cancelled := by
    rw [← hy]
    decide +kernel
  have status : (y.1.board.attempt 0).snapshot.status = .completed := by
    rw [← hy]
    decide +kernel
  obtain ⟨response, returned, cancelled⟩ := Option.map_eq_some_iff.1 returned
  refine ⟨l, y, response, opens, run, returned, cancelled, status, ?_⟩
  rw [status, cancelled]
  decide

end PromptDesk
