import PromptDesk.Proofs.Desk.WorkerRuns

/-! Workers that were superseded. A worker whose request lost the slot to another one writes notes on
its own attempt and comes to nothing, and as soon as another attempt is the current one nothing of it
is shown. All this depends on ids: a request that is sent again under its id is at the mercy of the
worker that served it before. -/
namespace PromptDesk

open Slot (Move)

namespace Effect

/-- What is written into the history. -/
def entry? : Effect → Option HistoryEntry
  | history e => some e
  | _ => none

end Effect

namespace Desk

/-- The entries written into the history so far, the latest first. -/
def entries (d : Desk) : List HistoryEntry := d.journal.filterMap Effect.entry?

/-- Nothing that belongs to whoever holds the slot has changed. -/
structure Inert (d d' : Desk) : Prop where
  slot : d'.slot = d.slot
  conversation : d'.conversation = d.conversation
  calls : d'.calls = d.calls
  entries : d'.entries = d.entries

variable {d d' d'' : Desk} {s : Stance} {r : String}

theorem Inert.refl (d : Desk) : Inert d d := ⟨rfl, rfl, rfl, rfl⟩

theorem Inert.trans (h : Inert d d') (h' : Inert d' d'') : Inert d d'' where
  slot := h'.slot.trans h.slot
  conversation := h'.conversation.trans h.conversation
  calls := h'.calls.trans h.calls
  entries := h'.entries.trans h.entries

/-- What the board reports is no entry of the history. -/
theorem entries_withBoard (d : Desk) (b : Board) : (d.withBoard b).entries = d.entries :=
  filterMap_withBoard (fun _ => rfl) d b

theorem inert_note (d : Desk) (attempt : Nat) (n : Note) : Inert d (d.note attempt n) where
  slot := rfl
  conversation := rfl
  calls := (quiet_note d attempt n).calls
  entries := entries_withBoard d _

theorem inert_noteAll (d : Desk) (attempt : Nat) (notes : List Note) :
    Inert d (d.noteAll attempt notes) := by
  induction notes generalizing d with
  | nil => exact .refl d
  | cons n notes ih => exact (inert_note d attempt n).trans (ih _)

/-- The notes of a retired attempt are shown nowhere. -/
theorem showsSame_noteAll {attempt : Nat} (hi : attempt < d.board.attempts.length)
    (hr : (d.board.attempt attempt).retired = true) (notes : List Note) :
    d.board.ShowsSame (d.noteAll attempt notes).board := by
  induction notes generalizing d with
  | nil => exact ⟨rfl, rfl⟩
  | cons n notes ih =>
    have hf : d.board.Follows (d.note attempt n).board :=
      (Board.follows_note d.board attempt n d.now).trans (.of_eq rfl rfl)
    have h := Board.showsSame_note hr n d.now
    have h' := ih (d := d.note attempt n) (Nat.lt_of_lt_of_le hi hf.grows)
      (hf.retired attempt hi hr)
    exact ⟨h'.1.trans h.1, h'.2.trans h.2⟩

end Desk

/-- A worker works on one request, and reads into an attempt that was begun for it. -/
structure Serves (r : String) (d : Desk) (s : Stance) : Prop where
  request : ∀ id, s.request? = some id → id = r
  attempt : ∀ i, s.attempt? = some i → d.board.Tracks i r

namespace Serves

variable {d d' : Desk} {s s' : Stance} {r : String}

theorem of_goesOn (h : Serves r d s) (hd : d.GoesOn d') : Serves r d' s :=
  ⟨h.request, fun i hi => (h.attempt i hi).of_follows hd.board⟩

theorem of_eq (h : Serves r d s) (hr : s'.request? = s.request?) (hi : s'.attempt? = s.attempt?) :
    Serves r d s' := ⟨hr ▸ h.request, hi ▸ h.attempt⟩

/-- A worker that sets out begins an attempt for its request, if it begins one at all. -/
theorem setOut (d : Desk) (id : String) (draft : Draft) :
    Serves id (d.setOut id draft).1 (d.setOut id draft).2 := by
  simp only [Desk.setOut]
  split
  · split <;> exact ⟨fun _ h => (Option.some.inj h).symm, nofun⟩
  · have ht : (d.beginAttempt id draft.axes).1.board.Tracks (d.beginAttempt id draft.axes).2 id := by
      have h := Board.tracks_beginOwned d.board id d.slot.state
      have h' : (d.withBoard (d.board.beginOwned id d.slot.state).1).board.Tracks
          (d.board.beginOwned id d.slot.state).2 id := h.of_follows (.of_eq rfl rfl)
      simp only [Desk.beginAttempt]
      split
      · split
        · exact h'
        · exact h'.of_follows ((Board.follows_setAxes ..).trans (.of_eq rfl rfl))
      · exact h'
    split <;> exact ⟨fun _ h => (Option.some.inj h).symm, fun i h => Option.some.inj h ▸ ht⟩

theorem handIn_stance (d : Desk) (id : String) (attempt : Nat) (outcome : ReadOutcome) :
    (d.handIn id attempt outcome).2.request? = some id ∧
      ∀ i, (d.handIn id attempt outcome).2.attempt? = some i → i = attempt := by
  cases outcome with
  | completed text =>
    simp only [Desk.handIn]
    split
    · exact ⟨rfl, by rintro _ ⟨⟩⟩
    · split
      · exact ⟨rfl, fun _ h => (Option.some.inj h).symm⟩
      · exact ⟨rfl, by rintro _ ⟨⟩⟩
  | cancelled text =>
    simp only [Desk.handIn, Desk.finish]
    exact ⟨rfl, by rintro _ ⟨⟩⟩
  | failed f => exact ⟨rfl, by rintro _ ⟨⟩⟩

/-- Whatever anybody does, a worker goes on to work on its request and its attempt. -/
theorem lasting (r : String) : Lasting Desk.GoesOn (Serves r) where
  own {d s} h free := by
    have hs := Desk.advanced d free
    have hd := h.of_goesOn (.of_deeds ((Desk.dealt_advance d free).deeds))
    generalize d.advance s = x at hs hd ⊢
    cases hs with
    | setsOut id draft =>
      obtain rfl := h.request id rfl
      exact setOut d id draft
    | works mine refused notes on =>
      cases on with
      | carries request mine' token atWork => exact hd.of_eq request (mine'.trans mine.symm)
      | finishes request outcome => exact hd.of_eq request.symm mine.symm
      | panics message => exact ⟨nofun, nofun⟩
    | streams text idle opens allowed => exact hd.of_eq rfl rfl
    | handsIn id attempt outcome =>
      obtain ⟨hr, hi⟩ := handIn_stance d id attempt outcome
      exact ⟨hr ▸ hd.request, fun i hx => hd.attempt i (hi i hx ▸ rfl)⟩
    | stores id text attempt entry result => exact ⟨hd.request, nofun⟩
    | rests p => exact hd
  asks h asked := h.of_eq (Stance.callback?_eq asked).1 (Stance.callback?_eq asked).2.1
  others h hd := h.of_goesOn hd
  turn h := h.of_eq rfl rfl

end Serves

/-- A worker has not given its slot back, or came to nothing. -/
def Stance.Fruitless : Stance → Prop
  | storing _ _ _ _ _ | stored _ _ _ _ _ | unwinding _ _ _ => False
  | rests (.ended response) => response.text = "" ∧
      (response.outcome = .cancelled ∨ ∃ error, response.outcome = .failed error)
  | due _ | playing _ _ _ | reading _ _ _ _ _ _ | finishing _ _ _ | rests (.waiting _)
  | rests (.panicked _) => True

theorem Stance.fruitless_of_isAtWork {s : Stance} (h : s.isAtWork = true) : s.Fruitless := by
  cases s with
  | rests p => cases p <;> trivial
  | storing | stored | unwinding => cases h
  | _ => trivial

/-- The worker of a request that the slot does not name. -/
structure Lost (r : String) (d : Desk) (s : Stance) : Prop where
  serves : Serves r d s
  lost : d.slot.state.isFor r = false
  fruitless : s.Fruitless

namespace Lost

variable {d : Desk} {s : Stance} {r : String}

theorem not_allowed {m : Move} (hl : d.slot.state.isFor r = false) (hm : ∀ id, m ≠ .send id)
    (ht : m.target d.slot = r) : ¬ m.Allowed d.slot.state := fun ha => by
  have hh := (PhaseState.holds_iff.1 (ha.holds_target hm)).1
  rw [ht, ← PhaseState.isFor_iff, hl] at hh
  cases hh

theorem handIn (hl : d.slot.state.isFor r = false) (attempt : Nat) (outcome : ReadOutcome) :
    ∃ notes response, d.handIn r attempt outcome = (d.noteAll attempt notes, .rests (.ended response)) ∧
      (Stance.rests (.ended response)).Fruitless := by
  cases outcome with
  | completed text =>
    have hm : d.slot.completeFor? r = none :=
      Slot.move?_eq_none_iff (m := .complete r).2 (not_allowed hl (by simp) rfl)
    exact ⟨[.cancelExecuted "pipeline" true], _, by rw [Desk.handIn, hm]; rfl, rfl, .inl rfl⟩
  | cancelled text =>
    have hm : d.slot.cancelFor? r = none :=
      Slot.move?_eq_none_iff (m := .cancel r).2 (not_allowed hl (by simp) rfl)
    refine ⟨[.cancelExecuted "pipeline" true], .empty r .cancelled d.now, ?_, rfl, .inl rfl⟩
    simp only [Desk.handIn, Desk.finish, hm]
    rfl
  | failed f =>
    have hm : d.slot.failFor? r f.message = none :=
      Slot.move?_eq_none_iff (m := .fail r f.message).2 (not_allowed hl (by simp) rfl)
    refine ⟨[], .empty r (.failed f.message) d.now, ?_, rfl, .inr ⟨_, rfl⟩⟩
    simp only [Desk.handIn, Desk.finish, Desk.failOwned, hm]
    rfl

/-- A step of a worker that was superseded comes to notes on its own attempt, and to nothing else. -/
theorem advance (h : Lost r d s) (free : s.callback? = none) :
    (d.advance s).2.Fruitless ∧ ((d.advance s).1 = d ∨
      ∃ i notes, s.attempt? = some i ∧ (d.advance s).1 = d.noteAll i notes) := by
  have hs := Desk.advanced d free
  have hreq := h.serves.request
  have hfr := h.fruitless
  generalize d.advance s = x at hs ⊢
  cases hs with
  | setsOut id draft =>
    obtain rfl := hreq id rfl
    have ht : d.slot.tokenFor? id = none := by simp [Slot.tokenFor?, h.lost]
    simp only [Desk.setOut, ht, h.lost]
    exact ⟨⟨rfl, .inl rfl⟩, .inl rfl⟩
  | works mine refused notes on =>
    refine ⟨?_, .inr ⟨_, notes, mine, rfl⟩⟩
    cases on with
    | carries request mine' token atWork => exact Stance.fruitless_of_isAtWork atWork
    | finishes request outcome | panics message => trivial
  | @streams c items text idle opens allowed =>
    obtain rfl := hreq c.requestId rfl
    exact absurd allowed (not_allowed h.lost (by simp) rfl)
  | handsIn id attempt outcome =>
    obtain rfl := hreq id rfl
    obtain ⟨notes, response, he, hf⟩ := handIn h.lost attempt outcome
    rw [he]
    exact ⟨hf, .inr ⟨attempt, notes, rfl, rfl⟩⟩
  | stores id text attempt entry result => exact hfr.elim
  | rests p => exact ⟨hfr, .inl rfl⟩

theorem inert (h : Lost r d s) (free : s.callback? = none) : d.Inert (d.advance s).1 := by
  rcases (h.advance free).2 with he | ⟨i, notes, _, he⟩
  · rw [he]
    exact .refl d
  · rw [he]
    exact Desk.inert_noteAll d i notes

/-- Until its request is sent again, a worker that was superseded stays what it is. -/
theorem lasting (r : String) :
    Lasting (fun d d' => d.GoesOn d' ∧ d'.slot.state.isFor r = false) (Lost r) where
  own h free := ⟨(Serves.lasting r).own h.serves free, (h.inert free).slot ▸ h.lost,
    (h.advance free).1⟩
  asks {_ s s' _} h asked := by
    refine ⟨(Serves.lasting r).asks h.serves asked, h.lost, ?_⟩
    have hfr := h.fruitless
    unfold Stance.callback? at asked
    split at asked <;> cases asked <;> trivial
  others h hd := ⟨h.serves.of_goesOn hd.1, hd.2, h.fruitless⟩
  turn h := ⟨(Serves.lasting r).turn h.serves, h.lost, trivial⟩

end Lost

/-- A worker that was superseded, with an attempt of its own that was retired. -/
structure Retired (r : String) (d : Desk) (s : Stance) : Prop extends Lost r d s where
  retired : ∀ i, s.attempt? = some i → (d.board.attempt i).retired = true

namespace Retired

variable {d : Desk} {s : Stance} {r : String}

theorem of_current {j : Nat} (h : Lost r d s) (hj : d.board.current = some j)
    (hne : (d.board.attempt j).requestId ≠ r) : Retired r d s :=
  { h with retired := fun i hi => (h.serves.attempt i hi).retired hj hne }

/-- Nothing of a retired attempt is shown. -/
theorem showsSame (h : Retired r d s) (free : s.callback? = none) :
    d.board.ShowsSame (d.advance s).1.board := by
  rcases (h.advance free).2 with he | ⟨i, notes, hi, he⟩
  · rw [he]
    exact ⟨rfl, rfl⟩
  · rw [he]
    exact Desk.showsSame_noteAll (h.serves.attempt i hi).bound (h.retired i hi) notes

theorem attempt?_advance (h : Lost r d s) (free : s.callback? = none) {i : Nat}
    (hi : (d.advance s).2.attempt? = some i) : s.attempt? = some i := by
  have hs := Desk.advanced d free
  have hreq := h.serves.request
  generalize d.advance s = x at hs hi
  cases hs with
  | setsOut id draft =>
    obtain rfl := hreq id rfl
    have ht : d.slot.tokenFor? id = none := by simp [Slot.tokenFor?, h.lost]
    simp only [Desk.setOut, ht, h.lost] at hi
    cases hi
  | works mine refused notes on =>
    cases on with
    | carries request mine' token atWork => exact mine.trans (mine'.symm.trans hi)
    | finishes request outcome => exact mine.trans hi
    | panics message => cases hi
  | streams text idle opens allowed => exact hi
  | handsIn id attempt outcome =>
    rw [(Serves.handIn_stance d id attempt outcome).2 i hi]
    rfl
  | stores id text attempt entry result => cases hi
  | rests p => exact hi

theorem lasting (r : String) :
    Lasting (fun d d' => d.GoesOn d' ∧ d'.slot.state.isFor r = false) (Retired r) where
  own {d s} h free := by
    refine { (Lost.lasting r).own h.toLost free with retired := fun i hi => ?_ }
    have hi' := attempt?_advance h.toLost free hi
    exact (Desk.GoesOn.of_deeds ((Desk.dealt_advance d free).deeds)).board.retired i
      (h.serves.attempt i hi').bound (h.retired i hi')
  asks h asked := { (Lost.lasting r).asks h.toLost asked with
    retired := (Stance.callback?_eq asked).2.1 ▸ h.retired }
  others h hd := { (Lost.lasting r).others h.toLost hd with
    retired := fun i hi => hd.1.board.retired i (h.serves.attempt i hi).bound (h.retired i hi) }
  turn h := { (Lost.lasting r).turn h.toLost with retired := h.retired }

end Retired

/-- A worker whose request lost the slot to another one before it gave it back is inert until its
request is sent again: its steps change nothing that belongs to whoever holds the slot, it returns
an empty response, and they show nothing any more once the attempt of another request is the
current one. -/
theorem Runs.superseded {r : String} {draft : Draft} {d₀ d : Desk} {s : Stance}
    {y : Desk × Stance} {l₀ l : List (Desk × Stance)}
    (before : Runs Desk.GoesOn (d₀, .due ⟨r, draft, .claimed⟩) l₀ (d, s))
    (atWork : s.isAtWork = true) (superseded : d.slot.state.isFor r = false)
    (after : Runs (fun d d' => d.GoesOn d' ∧ d'.slot.state.isFor r = false) (d, s) l y) :
    (∀ x ∈ l, x.1.Inert (x.1.advance x.2).1) ∧
      (∀ response, y.2 = .rests (.ended response) → response.text = "" ∧
        (response.outcome = .cancelled ∨ ∃ error, response.outcome = .failed error)) ∧
      ∀ j, d.board.current = some j → (d.board.attempt j).requestId ≠ r →
        ∀ x ∈ l, x.1.board.ShowsSame (x.1.advance x.2).1.board := by
  have hserves : Serves r d s :=
    (before.lasting (Serves.lasting r) ⟨fun _ h => (Option.some.inj h).symm, nofun⟩).1
  have hlost : Lost r d s := ⟨hserves, superseded, Stance.fruitless_of_isAtWork atWork⟩
  obtain ⟨hy, hl⟩ := after.lasting (Lost.lasting r) hlost
  refine ⟨fun x hx => (hl x hx).1.inert (hl x hx).2, fun response he => ?_, fun j hj hne => ?_⟩
  · have hf := hy.fruitless
    rw [he] at hf
    exact hf
  · obtain ⟨_, hl'⟩ := after.lasting (Retired.lasting r) (.of_current hlost hj hne)
    exact fun x hx => (hl' x hx).1.showsSame (hl' x hx).2

/-- While a stream is read, its request is cancelled, and another one is claimed and begun. -/
theorem Runs.superseded_while_reading :
    let cancel : Call := .mk "cancel" (.command (.work (.cancelCurrent "esc")))
    let claim : Call := .mk "claim" (.command (.gate (.claim "k2")))
    let begin : Call := .mk "begin" (.command (.board (.beginOwned "req-2" "b")))
    let opened : Desk := { replies := [⟨[], [.calls [cancel, claim, begin], .chunk "late"]⟩] }
    let draft : Draft := { destination := .default, requestId := some "req-1" }
    ∃ l₀ x l y, Runs Desk.GoesOn ((opened.claim "k1").1, .due ⟨"req-1", draft, .claimed⟩) l₀ x ∧
      x.2.isAtWork = true ∧ x.1.slot.state.holds "req-2" = true ∧
      Runs (fun d d' => d.GoesOn d' ∧ d'.slot.state.isFor "req-1" = false) x l y ∧
      l.length = 2 ∧ (∀ z ∈ l, z.1.Inert (z.1.advance z.2).1) ∧
      (∀ z ∈ l, z.1.board.ShowsSame (z.1.advance z.2).1.board) := by
  intro cancel claim begin opened draft
  obtain ⟨l₀, before⟩ := Runs.acts ((opened.claim "k1").1, .due ⟨"req-1", draft, .claimed⟩) 5
  -- the callback was carried out, and its chunk is still to be read
  let x := act^[5] ((opened.claim "k1").1, Stance.due ⟨"req-1", draft, .claimed⟩)
  have free : ∀ z : Desk × Stance, z.2.callback?.isNone = true → z.2.callback? = none :=
    fun z => Option.isNone_iff_eq_none.1
  have after : Runs (fun d d' => d.GoesOn d' ∧ d'.slot.state.isFor "req-1" = false) x
      [x.1.advance x.2, x] _ :=
    .own (.own .start (free x (by decide +kernel))) (free (x.1.advance x.2) (by decide +kernel))
  have atWork : x.2.isAtWork = true := by decide +kernel
  obtain ⟨inert, _, shows⟩ := Runs.superseded before atWork (by decide +kernel) after
  exact ⟨l₀, x, _, _, before, atWork, by decide +kernel, after, rfl, inert,
    shows 1 (by decide +kernel) (by decide +kernel)⟩

/-- If the other request is cancelled and the first one sent again under its id, the worker that was
superseded cancels it with what was to be the end of its own. -/
theorem Runs.not_inert_of_retry :
    let cancel : Call := .mk "cancel" (.command (.work (.cancelCurrent "esc")))
    let claim : Call := .mk "claim" (.command (.gate (.claim "k2")))
    let retry : Call := .mk "retry" (.command (.slot (.retry (some "req-1"))))
    let opened : Desk :=
      { replies := [⟨[], [.calls [cancel, claim], .calls [cancel, retry], .chunk "late"]⟩] }
    let draft : Draft := { destination := .default, requestId := some "req-1" }
    ∃ l₀ x l y, Runs Desk.GoesOn ((opened.claim "k1").1, .due ⟨"req-1", draft, .claimed⟩) l₀ x ∧
      x.2.isAtWork = true ∧ x.1.slot.state.holds "req-2" = true ∧ Runs Desk.GoesOn x l y ∧
      ∃ z ∈ l, z.1.slot.state.phase = .sending ∧
        (z.1.advance z.2).1.slot.state.phase = .cancelled ∧ ¬ z.1.Inert (z.1.advance z.2).1 := by
  intro cancel claim retry opened draft
  obtain ⟨l₀, before⟩ := Runs.acts ((opened.claim "k1").1, .due ⟨"req-1", draft, .claimed⟩) 5
  let x := act^[5] ((opened.claim "k1").1, Stance.due ⟨"req-1", draft, .claimed⟩)
  obtain ⟨l, run⟩ := Runs.acts x 2
  let z := act^[2] x
  have free : z.2.callback? = none := Option.isNone_iff_eq_none.1 (by decide +kernel)
  have sending : z.1.slot.state.phase = .sending := by decide +kernel
  have cancelled : (z.1.advance z.2).1.slot.state.phase = .cancelled := by decide +kernel
  refine ⟨l₀, x, z :: l, _, before, by decide +kernel, by decide +kernel, .own run free, z,
    List.mem_cons_self, sending, cancelled, fun h => ?_⟩
  rw [h.slot, sending] at cancelled
  cases cancelled

end PromptDesk
