import PromptDesk.Proofs.Board.Replay
import PromptDesk.Proofs.Desk.WorkerRuns

/-! What the log of an attempt tells, whatever was done at its desk. A desk that was opened with an
empty board reports every entry at the moment it is logged, so the logs, the transcripts and what was
reported never come apart. -/
namespace PromptDesk

namespace Desk

/-- All logs are told, and nothing is left to be sent. -/
structure Told (d : Desk) : Prop where
  sent : d.board.outbox = []
  board : d.board.Told d.reported.reverse

variable {d d' : Desk}

theorem reported_withBoard (d : Desk) (b : Board) :
    (d.withBoard b).reported = b.outbox.reverse ++ d.reported := by
  have h : ∀ es : List StreamEvent, (es.map Effect.event).reverse.filterMap Effect.event? = es.reverse :=
    fun es => by rw [← List.map_reverse, List.filterMap_map]; exact List.filterMap_some
  rw [reported, withBoard, List.filterMap_append, h, reported]

namespace Told

theorem withBoard {b : Board} (h : b.Told d.reported.reverse) : (d.withBoard b).Told where
  sent := rfl
  board := by
    rw [reported_withBoard, List.reverse_append, List.reverse_reverse]
    exact h.sends

theorem of_eq (h : d.Told) (hb : d'.board = d.board) (hr : d'.reported = d.reported) : d'.Told where
  sent := by rw [hb, h.sent]
  board := by rw [hb, hr]; exact h.board

theorem note (h : d.Told) (i : Nat) (n : Note) : (d.note i n).Told :=
  withBoard (h.board.note i n d.now)

theorem beginAttempt (h : d.Told) (id : String) (axes : Axes) : (d.beginAttempt id axes).1.Told := by
  have hb : (d.withBoard (d.board.beginOwned id d.slot.state).1).Told :=
    withBoard (h.board.beginOwned id d.slot.state)
  simp only [Desk.beginAttempt]
  split
  · split
    · exact hb
    · exact withBoard (hb.board.use (.setAxes ..))
  · exact hb

theorem cancelledBeforeStart (h : d.Told) (id : String) : (d.cancelledBeforeStart id).1.Told :=
  note (withBoard (h.board.begin id)) _ _

theorem dealing {ok : Board.Use → Prop} (h : d.Told) (hd : Dealing ok d d') : d'.Told := by
  cases hd with
  | use u hu => exact withBoard (h.board.use u)
  | begins id axes => exact h.beginAttempt id axes
  | forgoes id => exact h.cancelledBeforeStart id
  | adds l id display reports retired =>
    have hl : Board.Told d.reported.reverse { d.board with displays := l } := h.board.of_eq rfl rfl
    exact withBoard (hl.add id display reports retired)
  | displays l => exact withBoard (h.board.of_eq rfl rfl)
  | exports =>
    simp only [exportCounts]
    split <;> exact h.of_eq rfl rfl
  | slot | refuses | takes | stops | spawns | dispatches | settles => exact h.of_eq rfl rfl
  | aside ha => exact h.of_eq ha.board ha.reported

theorem dealt (h : d.Told) (hd : Dealt d d') : d'.Told :=
  hd.respect (R := fun d d' => d.Told → d'.Told) (fun _ => id) (fun h h' => h' ∘ h)
    (fun hd h => h.dealing hd) h

theorem presents (h : d.Told) {e : Effect} (he : e.presentation?.isSome = true) :
    (d.write e).Told :=
  h.of_eq rfl (by cases e <;> first | rfl | cases he)

end Told

/-- A desk that was opened with an empty board, whatever was done at it since. -/
inductive Kept : Desk → Prop
  | opens {d : Desk} (reporting : Bool) (board : d.board = { reporting := reporting })
      (reported : d.reported = []) : Kept d
  | performs {d : Desk} (s : Step) (kept : Kept d) : Kept (s.perform d).1
  | obeys {d : Desk} (i : Nat) (c : AttemptCommand) (kept : Kept d) : Kept (d.obeyAttempt i c).1
  | stores {d : Desk} (i : Nat) (w : Writer) (kept : Kept d) : Kept (d.recordLogEntry i w).1
  | advances {d : Desk} {s : Stance} (free : s.callback? = none) (kept : Kept d) : Kept (d.advance s).1
  | turns {d : Desk} (i : Nat) (kept : Kept d) : Kept (d.turnOfJob i)
  /-- The clock moves, and work in the background comes and goes. -/
  | waits {d d' : Desk} (backstage : d.Backstage d') (kept : Kept d) : Kept d'

theorem Kept.told (h : d.Kept) : d.Told := by
  induction h with
  | opens reporting board reported => exact ⟨by rw [board], by rw [board, reported]; exact .fresh⟩
  | performs s _ ih => exact ih.dealt (dealt_perform _ s)
  | obeys i c _ ih =>
    refine ih.dealt (dealings_obeyAttempt _ i (fun _ _ => trivial) (fun _ _ => trivial) ?_)
    exact fun _ _ _ => trivial
  | stores i w _ ih => exact ih.dealt (dealt_recordLogEntry _ i w)
  | advances free _ ih => exact ih.dealt (dealt_advance _ free)
  | turns i _ ih =>
    refine respected_turnOfJob (R := fun d d' => d.Told → d'.Told) (fun _ => id) (fun h h' => h' ∘ h)
      (fun hd h => h.dealt hd) (fun he h => h.presents he) (fun hb h => h.of_eq hb.board ?_) _ i ih
    rw [reported, hb.journal, reported]
  | waits backstage _ ih =>
    refine ih.of_eq backstage.board ?_
    rw [reported, backstage.journal, reported]

theorem withBoard_self (h : d.board.outbox = []) : d.withBoard d.board = d := by
  obtain ⟨_, _, _, _, ⟨_, _, _, _, outbox⟩, _, _, _, _, _, _, _, _, _, _, _⟩ := d
  obtain rfl : outbox = [] := h
  rfl

/-- What changes nothing leaves no trace. -/
theorem Told.obeyAttempt_of_false (h : d.Told) {i : Nat} {n : Note}
    (hn : (d.board.record i n d.now).2 = false) : (d.obeyAttempt i (.note n)).1 = d := by
  have hb : (d.board.record i n d.now).1 = d.board := Board.record_fst_of_false hn
  change d.withBoard (d.board.record i n d.now).1 = d
  rw [hb, withBoard_self h.sent]

/-- Whoever listens to one attempt alone has heard its log. -/
theorem Told.reported_of_alone (h : d.Told) {i : Nat} (hi : (d.board.attempt i).reports = true)
    (alone : ∀ j, j ≠ i → (d.board.attempt j).reports = false) :
    d.reported.reverse = (d.board.attempt i).events := by
  obtain ⟨said, hs, hshare⟩ := h.board.heard
  rw [h.sent, List.append_nil] at hs
  have hall : ∀ x ∈ said, (x.1 == i) = true := by
    intro x hx
    by_contra hne
    have hmem : x.2 ∈ Board.share said x.1 :=
      List.mem_map_of_mem (List.mem_filter.2 ⟨hx, beq_self_eq_true _⟩)
    rw [hshare, Attempt.report, alone x.1 (by simpa using hne)] at hmem
    cases hmem
  have hi' : Board.share said i = (d.board.attempt i).events := by
    rw [hshare, Attempt.report, if_pos hi]
  rw [← hs, ← hi', Board.share, List.filter_eq_self.2 hall]

/-- Whatever was done at a desk, the log of each of its attempts tells the transcript, but for the
axes. Its entries are numbered from one on and name the request of the attempt. A note changes nothing
if it is a blank chunk, or a chunk or the end after an error; then nothing is logged, published or
reported, and every other note is one more entry. What was reported is the logs of the attempts that
report, run together entry by entry, and of one that reports alone exactly its log. -/
theorem Kept.log_tells (h : d.Kept) :
    (∀ i < d.board.attempts.length,
      let a := d.board.attempt i
      Transcript.replay a.requestId a.events = { a.transcript with axes := ∅ } ∧
        (∀ k (hk : k < a.events.length), a.events[k].seq = UInt64.ofNat (k + 1) ∧
          (a.events.length < 2 ^ 64 → a.events[k].seq.toNat = k + 1)) ∧
        ∀ e ∈ a.events, e.requestId = a.requestId) ∧
      (∀ (i : Nat) (n : Note),
        let a := d.board.attempt i
        let out := d.board.record i n d.now
        (out.2 = false ↔
          (∃ text, n = .chunk text ∧ (Text.isBlankText text = true ∨ a.transcript.errored = true)) ∨
            (n = .complete ∧ a.transcript.errored = true)) ∧
          (out.2 = false → (d.obeyAttempt i (.note n)).1 = d) ∧
          (out.2 = true → i < d.board.attempts.length →
            (out.1.attempt i).events = a.events ++ [a.entry n d.now])) ∧
      (∃ said : List (Nat × StreamEvent), said.map Prod.snd = d.reported.reverse ∧
        ∀ i, Board.share said i =
          if (d.board.attempt i).reports then (d.board.attempt i).events else []) ∧
      ∀ i, (d.board.attempt i).reports = true →
        (∀ j, j ≠ i → (d.board.attempt j).reports = false) →
          d.reported.reverse = (d.board.attempt i).events := by
  have ht := h.told
  refine ⟨fun i hi => ?_, fun i n => ⟨?_, ht.obeyAttempt_of_false, fun hn hi => ?_⟩, ?_, ?_⟩
  · obtain ⟨replay, seqs, ids⟩ := ht.board.logs i hi
    refine ⟨replay, fun k hk => ?_, ids⟩
    have hseq : (d.board.attempt i).events[k].seq = UInt64.ofNat (k + 1) := by
      have hget := congrArg (·[k]?) seqs
      simpa [hk] using hget
    refine ⟨hseq, fun hlen => ?_⟩
    have hsize : k + 1 < UInt64.size := lt_of_le_of_lt hk hlen
    rw [hseq, UInt64.toNat_ofNat_of_lt' hsize]
  · exact Board.record_eq_false.trans Transcript.note?_eq_none_iff
  · exact Board.events_record hi hn
  · obtain ⟨said, hs, hshare⟩ := ht.board.heard
    rw [ht.sent, List.append_nil] at hs
    exact ⟨said, hs, hshare⟩
  · exact fun i hi alone => ht.reported_of_alone hi alone

/-- An attempt that gets chunks, one of them blank, and an error, after which nothing more is taken in
but a refusal; its axes are set, and a writer fails to store it. -/
theorem Kept.log_tells_of_error : ∃ d : Desk, d.Kept ∧
    (d.board.attempt 0).events.map (·.kind) =
      [.chunk, .chunk, .error, .gatingDrop, .historyWriteRequested, .logEntry] ∧
    (d.board.attempt 0).transcript.axes ≠ ∅ ∧
    Transcript.replay "req-1" (d.board.attempt 0).events =
      { (d.board.attempt 0).transcript with axes := ∅ } ∧
    (d.board.record 0 (.chunk "late") d.now).2 = false ∧
    (d.obeyAttempt 0 (.note .complete)).1 = d ∧
    d.reported.reverse = (d.board.attempt 0).events := by
  let opened : Desk := { board := { reporting := true } }
  have h : Kept opened := .opens true rfl rfl
  have h := h.performs (.command (.board (.begin "req-1" "a")))
  have h := h.obeys 0 (.setAxes (Keyed.ofList [("tone", ["warm"])])
    (.ok (Keyed.ofList [("tone", ["warm"])])))
  have h := h.obeys 0 (.note (.chunk "a"))
  have h := h.obeys 0 (.note (.chunk " "))
  have h := h.obeys 0 (.note (.chunk "b"))
  have h := h.obeys 0 (.note (.error "lost"))
  have h := h.obeys 0 (.note (.chunk "late"))
  have h := h.obeys 0 (.note (.gatingDrop "in_flight" "streaming" "menu" "busy"))
  have h := h.stores 0 (.mk [] (.error .cancelled))
  have tells : ∀ d : Desk, d.Kept → d.board.attempts.length = 1 →
      (d.board.attempt 0).requestId = "req-1" → (d.board.attempt 0).transcript.errored = true →
      (d.board.attempt 0).reports = true →
      Transcript.replay "req-1" (d.board.attempt 0).events =
          { (d.board.attempt 0).transcript with axes := ∅ } ∧
        (d.board.record 0 (.chunk "late") d.now).2 = false ∧
        (d.obeyAttempt 0 (.note .complete)).1 = d ∧
        d.reported.reverse = (d.board.attempt 0).events := by
    intro d h hlen hid herr hrep
    obtain ⟨logs, changes, -, alone⟩ := Kept.log_tells h
    refine ⟨hid ▸ (logs 0 (by omega)).1, ?_, ?_, ?_⟩
    · exact (changes 0 (.chunk "late")).1.2 (.inl ⟨"late", rfl, .inr herr⟩)
    · exact (changes 0 .complete).2.1 ((changes 0 .complete).1.2 (.inr ⟨rfl, herr⟩))
    · refine alone 0 hrep fun j hj => ?_
      rw [Board.attempt_of_le (by omega), Attempt.reports_default]
  exact ⟨_, h, by decide +kernel, by decide +kernel, tells _ h (by decide +kernel)
    (by decide +kernel) (by decide +kernel) (by decide +kernel)⟩

end Desk

end PromptDesk
