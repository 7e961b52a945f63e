import PromptDesk.Proofs.Desk.Reading

/-! What the log of an execution says in the end. The chunks come first, with all of the text, and the
ending says how the execution ended: a completed request leaves its end, and with a history also what
came of storing it; a failed one leaves its error, and a cancelled one its cancellation, be it before
or after the end of its text. -/
namespace PromptDesk

namespace Outcome

/-- How the log of an attempt ends whose execution ended so, with or without a history. -/
def Ends (stores : Bool) (ending : List EventKind) : Outcome → Prop
  | completed =>
    ending = .complete :: if stores then [.historyWriteRequested, .logEntry] else []
  | failed _ => ending = [.error]
  | cancelled => ending = [.cancelExecuted] ∨ ending = [.complete, .cancelExecuted]

end Outcome

namespace Stance

/-- How the log of the attempt of a worker ends that stands there, with or without a history. -/
def Ends (stores : Bool) (ending : List EventKind) : Stance → Prop
  | due _ | playing _ _ _ | reading _ _ _ _ _ _ | rests (.waiting _) => ending = []
  | finishing _ _ outcome => ending = outcome.notes.map Note.kind
  | storing _ _ _ _ _ | stored _ _ _ _ _ | unwinding _ _ _ =>
    stores = true ∧ ending = [.complete, .historyWriteRequested]
  | rests (.panicked _) =>
    ending = [] ∨ stores = true ∧ ending = [.complete, .historyWriteRequested]
  | rests (.ended response) => response.outcome.Ends stores ending

theorem ends_of_isReading {s : Stance} (reading : s.isReading = true) {stores : Bool}
    {ending : List EventKind} : s.Ends stores ending ↔ ending = [] := by
  cases s with
  | rests p => cases p <;> first | exact Iff.rfl | cases reading
  | finishing | storing | stored | unwinding => cases reading
  | _ => exact Iff.rfl

end Stance

namespace Desk

/-- The log of the attempt of a worker is as it has to be. -/
structure Logs (i : Nat) (d : Desk) (s : Stance) : Prop where
  bound : i < d.board.attempts.length
  into : s.IsInto i
  logged : ∃ ending, s.Ends d.setup.history.isSome ending ∧ (d.board.attempt i).Logged ending

variable {i : Nat} {d d' : Desk} {s s' : Stance} {ending : List EventKind}

/-- Chunks are logged one after another. -/
theorem logged_chunks (hi : i < d.board.attempts.length) (h : (d.board.attempt i).Logged [])
    (texts : List String) :
    ((d.noteAll i (texts.map .chunk)).board.attempt i).Logged [] := by
  induction texts generalizing d with
  | nil => exact h
  | cons text texts ih =>
    refine ih (d := d.note i (.chunk text)) ((length_note ..).symm ▸ hi) ?_
    rw [attempt_note hi]
    exact h.chunk text

/-- After the chunks there is at most one note of a worker that is through. -/
theorem logged_ends (hi : i < d.board.attempts.length) (h : (d.board.attempt i).Logged [])
    (texts : List String) (outcome : ReadOutcome) :
    ((d.noteAll i (texts.map .chunk ++ outcome.notes)).board.attempt i).Logged
      (outcome.notes.map Note.kind) := by
  have hc := logged_chunks hi h texts
  have hi' : i < (d.noteAll i (texts.map .chunk)).board.attempts.length :=
    (length_noteAll ..).symm ▸ hi
  rw [noteAll_append]
  cases outcome with
  | cancelled => exact hc
  | completed =>
    change (((d.noteAll i (texts.map .chunk)).note i .complete).board.attempt i).Logged [.complete]
    rw [attempt_note hi']
    exact hc.note rfl nofun fun _ => List.not_mem_nil
  | failed f =>
    change (((d.noteAll i (texts.map .chunk)).note i (.error f.message)).board.attempt i).Logged [.error]
    rw [attempt_note hi']
    exact hc.note rfl nofun nofun

namespace Logs

theorem glosses (h : d.Logs i s) (hg : d.Glosses i d') : d'.Logs i s where
  bound := h.bound.trans_le hg.grows
  into := h.into
  logged := by
    obtain ⟨ending, he, hl⟩ := h.logged
    exact ⟨ending, hg.setup ▸ he, hl.glossed (hg.glossed h.bound)⟩

theorem reads (h : d.Logs i s) (reading : s.isReading = true) {id : String} {x : Desk × Stance}
    (hx : d.Reads id i x) : x.1.Logs i x.2 := by
  obtain ⟨bound, into, ending, he, hl⟩ := h
  obtain rfl := (Stance.ends_of_isReading reading).1 he
  cases hx with
  | @goesOn d' s' texts setup board request into' reading' =>
    refine ⟨?_, Stance.isInto_of_attempt? into', [], (Stance.ends_of_isReading reading').2 rfl, ?_⟩
    · rw [board, length_noteAll]
      exact bound
    · rw [board]
      exact logged_chunks bound hl texts
  | ends texts outcome logged whole =>
    subst logged
    refine ⟨?_, rfl, _, rfl, logged_ends bound hl texts outcome⟩
    rw [length_noteAll]
    exact bound
  | panics message => exact ⟨bound, trivial, [], .inl rfl, hl⟩

/-- One more thing is logged at the end. -/
theorem note (bound : i < d.board.attempts.length) (hl : (d.board.attempt i).Logged ending) {n : Note}
    (marginal : n.kind.isMarginal = false) (chunk : n.kind ≠ .chunk) (complete : n ≠ .complete)
    (into : s.IsInto i) (ends : s.Ends d.setup.history.isSome (ending ++ [n.kind])) :
    (d.note i n).Logs i s where
  bound := (length_note ..).symm ▸ bound
  into := into
  logged := by
    refine ⟨_, ends, ?_⟩
    rw [attempt_note bound]
    exact hl.note marginal chunk fun hn => absurd hn complete

theorem handIn {id : String} {outcome : ReadOutcome} (h : d.Logs i (.finishing id i outcome)) :
    (d.handIn id i outcome).1.Logs i (d.handIn id i outcome).2 := by
  obtain ⟨bound, -, ending, he, hl⟩ := h
  cases outcome with
  | completed text =>
    obtain rfl : ending = [.complete] := he
    rw [Desk.handIn]
    split
    · exact note bound hl rfl (by simp [Note.kind]) (by simp) trivial (.inr rfl)
    · rename_i t _
      dsimp only
      split
      · rename_i writer hw
        have hw : d.setup.history = some writer := hw
        let d₁ : Desk := { d.withSlot t with
          conversation := { d.conversation with lastResponse := Text.trim text } }
        have hn := note (d := d₁) (s := .storing id (Text.trim text) i default writer)
          (n := .historyWriteRequested (d.board.attempt i).historyEntry.axes.keys) bound hl rfl
          (by simp [Note.kind]) (by simp) rfl ⟨Option.isSome_iff_exists.2 ⟨writer, hw⟩, rfl⟩
        exact ⟨hn.bound, rfl, hn.logged⟩
      · rename_i hw
        have hw : d.setup.history = none := hw
        refine ⟨bound, trivial, _, ?_, hl⟩
        change ([.complete] : List EventKind) =
          .complete :: if d.setup.history.isSome then [.historyWriteRequested, .logEntry] else []
        rw [hw]
        rfl
  | cancelled text =>
    obtain rfl : ending = [] := he
    simp only [Desk.handIn, finish]
    split
    · exact note (d := d.withSlot _) bound hl rfl (by simp [Note.kind]) (by simp) trivial (.inl rfl)
    · exact note bound hl rfl (by simp [Note.kind]) (by simp) trivial (.inl rfl)
  | failed f =>
    obtain rfl : ending = [.error] := he
    simp only [Desk.handIn, finish, failOwned]
    split <;> exact ⟨bound, trivial, _, rfl, hl⟩

/-- A worker logs what it has to, whatever is logged beside its request meanwhile. -/
theorem lasting (i : Nat) : Lasting (Glosses i) (Logs i) where
  own {d s} h free := by
    cases hr : s.isReading with
    | true =>
      obtain ⟨id, request⟩ := Stance.request?_of_isReading hr
      exact h.reads hr (reads_advance d hr request (Stance.attempt?_of_isReading hr h.into))
    | false =>
      cases s with
      | finishing id attempt outcome =>
        obtain rfl : attempt = i := Option.some.inj h.into
        exact h.handIn
      | storing id text attempt entry writer =>
        cases writer <;> cases free
      | stored id text attempt entry result =>
        obtain rfl : attempt = i := Option.some.inj h.into
        obtain ⟨bound, -, ending, ⟨hs, rfl⟩, hl⟩ := h
        have hends : Outcome.completed.Ends d.setup.history.isSome
            [.complete, .historyWriteRequested, .logEntry] := by rw [hs]; rfl
        cases result <;> exact note bound hl rfl nofun nofun trivial hends
      | unwinding id attempt message =>
        obtain ⟨bound, -, ending, he, hl⟩ := h
        exact ⟨bound, trivial, ending, .inr he, hl⟩
      | rests p => exact h
      | due | playing | reading => cases hr
  asks {d s s' calls} h asked := by
    obtain ⟨bound, into, ending, he, hl⟩ := h
    unfold Stance.callback? at asked
    split at asked <;> cases asked <;> exact ⟨bound, into, ending, he, hl⟩
  others h hg := h.glosses hg
  turn h := ⟨h.bound, h.into, h.logged⟩

end Logs

theorem Opened.logged {id : String} {axes : Axes} (h : d.Opened id axes d') :
    (d'.board.attempt d.board.attempts.length).Logged [] :=
  .fresh h.events (by rw [h.transcript]) (by rw [h.transcript])

theorem Opens.logs {id : String} {x : Desk × Stance} (h : d.Opens id i x) :
    x.1.setup = d.setup ∧ x.1.Logs i x.2 := by
  have refused : (d.cancelledBeforeStart id).1.setup = d.setup ∧
      (d.cancelledBeforeStart id).1.Logs d.board.attempts.length
        (.rests (.ended (d.cancelledBeforeStart id).2)) := by
    obtain ⟨index, opened⟩ := opened_begin d id
    simp only [cancelledBeforeStart, index]
    exact ⟨rfl, .note (d := d.withBoard (d.board.begin id).1) opened.bound opened.logged rfl nofun nofun
      trivial (.inl rfl)⟩
  cases h with
  | setsOut draft opens =>
    revert opens
    simp only [setOut]
    split
    · split
      · exact fun _ => refused
      · exact fun h => absurd h (Nat.lt_irrefl _)
    · intro _
      obtain ⟨index, opened⟩ := opened_beginAttempt d id draft.axes
      have begun : Dealt d (d.beginAttempt id draft.axes).1 := .single (.begins d id draft.axes)
      have setup := begun.setup
      rw [index]
      split <;> exact ⟨setup, opened.bound, rfl, [], rfl, opened.logged⟩
  | refused => exact refused

end Desk

variable {i : Nat} {x y : Desk × Stance} {l : List (Desk × Stance)}

/-- Nothing that happens to a worker changes the setup. -/
theorem Runs.setup (run : Runs (Desk.Glosses i) x l y) : y.1.setup = x.1.setup := by
  induction run with
  | start => rfl
  | own run free ih => exact (Desk.dealt_advance _ free).setup.trans ih
  | asks run asked made ih | others run made ih => exact made.setup.trans ih
  | turn run ih => exact ih

/-- When an execution has returned that opened an attempt, its log has the chunks that were read, with
all of the text, and then one of five endings, which tells the outcome; what others logged meanwhile
because they were refused or wanted to cancel is left out. Storing is logged if there is a history. -/
theorem Runs.log_of_returned {d : Desk} {id : String} {response : Response} (opens : d.Opens id i x)
    (run : Runs (Desk.Glosses i) x l y) (returned : y.2.response? = some response) :
    ∃ n ending, (y.1.board.attempt i).course = List.replicate n .chunk ++ ending ∧
      (ending = [.complete] ∧ d.setup.history = none ∨
        ending = [.complete, .historyWriteRequested, .logEntry] ∧ d.setup.history.isSome = true ∨
        ending = [.complete, .cancelExecuted] ∨ ending = [.error] ∨ ending = [.cancelExecuted]) ∧
      (response.outcome = .completed ↔
        ending = [.complete] ∨ ending = [.complete, .historyWriteRequested, .logEntry]) ∧
      ((∃ message, response.outcome = .failed message) ↔ ending = [.error]) ∧
      (response.outcome = .cancelled ↔
        ending = [.complete, .cancelExecuted] ∨ ending = [.cancelExecuted]) ∧
      String.join (y.1.board.attempt i).chunkTexts = (y.1.board.attempt i).text := by
  obtain ⟨setup, logs⟩ := opens.logs
  obtain ⟨⟨-, -, ending, he, hl⟩, -⟩ := run.lasting (Desk.Logs.lasting i) logs
  obtain ⟨n, hn⟩ := hl.course
  rw [Stance.response?_eq_some_iff.1 returned, run.setup, setup] at he
  have he : response.outcome.Ends d.setup.history.isSome ending := he
  have ht : String.join (y.1.board.attempt i).chunkTexts = (y.1.board.attempt i).text := by
    rw [hl.texts]
    rfl
  refine ⟨n, ending, hn, ?_⟩
  cases ho : response.outcome with
  | completed =>
    rw [ho] at he
    cases hs : d.setup.history with
    | none =>
      rw [hs] at he
      obtain rfl : ending = [.complete] := he
      simp [ht]
    | some writer =>
      rw [hs] at he
      obtain rfl : ending = [.complete, .historyWriteRequested, .logEntry] := he
      simp [ht]
  | failed message =>
    rw [ho] at he
    obtain rfl : ending = [.error] := he
    simp [ht]
  | cancelled =>
    rw [ho] at he
    obtain rfl | rfl : ending = [.cancelExecuted] ∨ ending = [.complete, .cancelExecuted] := he <;>
      simp [ht]

/-- While a stream is read, another submission is refused, and the request is cancelled after its last
chunk, just before the stream ends. -/
theorem Runs.log_of_late_cancel :
    let cancel : Call := .mk "cancel" (.command (.work (.cancelCurrent "esc")))
    let opened : Desk :=
      { setup := { history := some (.mk [] (.ok none)) }
        replies := [⟨[], [.chunk "a", .chunk " ", .chunk "b", .calls [cancel]]⟩] }
    let d := (opened.claim "k1").1
    let x := d.setOut "req-1" { destination := .default, requestId := some "req-1" }
    ∃ l y response n ending, d.Opens "req-1" 0 x ∧ Runs (Desk.Glosses 0) x l y ∧
      y.2.response? = some response ∧ response.outcome = .cancelled ∧
      (y.1.board.attempt 0).events.map (·.kind) =
        [.chunk, .gatingDrop, .chunk, .cancelRequested, .complete, .cancelExecuted] ∧
      (y.1.board.attempt 0).course = List.replicate n .chunk ++ ending ∧
      (ending = [.complete, .cancelExecuted] ∨ ending = [.cancelExecuted]) ∧
      String.join (y.1.board.attempt 0).chunkTexts = (y.1.board.attempt 0).text := by
  intro cancel opened d x
  have opens : d.Opens "req-1" 0 x := .setsOut _ (by decide +kernel)
  obtain ⟨l₁, run₁⟩ := (Runs.start (x := x)).acting (glosses_performAll 0) 4 (by decide +kernel)
  let submit : Step := .submit (.mk "b" [] none none ∅) "k2" "h"
  have run₂ := run₁.others (submit.glosses_perform 0 _ rfl)
  obtain ⟨l, run⟩ := run₂.acting (glosses_performAll 0) 5 (by decide +kernel)
  generalize hy : act^[5] _ = y at run
  have returned : y.2.response?.map Response.outcome = some .cancelled := by
    rw [← hy]
    decide +kernel
  have kinds : (y.1.board.attempt 0).events.map (·.kind) =
      [.chunk, .gatingDrop, .chunk, .cancelRequested, .complete, .cancelExecuted] := by
    rw [← hy]
    decide +kernel
  obtain ⟨response, returned, cancelled⟩ := Option.map_eq_some_iff.1 returned
  obtain ⟨n, ending, course, -, -, -, ends, texts⟩ := Runs.log_of_returned opens run returned
  exact ⟨l, y, response, n, ending, opens, run, returned, cancelled, kinds, course, ends.1 cancelled,
    texts⟩

end PromptDesk
