import PromptDesk.Proofs.Counts
import PromptDesk.Proofs.Desk.Moves
import PromptDesk.Proofs.Desk.Reached

/-! Submissions that are refused. A submission is refused exactly while a request is in flight, and then
nothing of it is begun: the gate counts the refusal, the current attempt logs it if it is concerned,
and everything else about the desk stays as it is, whatever was to be sent. -/
namespace PromptDesk

theorem Counts.count_bump (m : Counts) (k j : String) :
    (m.bump k).count j = m.count j + if j = k then 1 else 0 := by
  rw [count, find?_bump, count]
  by_cases h : j = k
  · subst h
    simp
  · simp [h]

namespace DropTally

/-- How often a reason and a source came together. -/
def pairs (t : DropTally) (reason source : String) : UInt64 :=
  Counts.count ((t.reasonSources.find? reason).getD ∅) source

theorem pairs_record (t : DropTally) (reason source message r s : String) :
    (t.record reason source message).pairs r s =
      t.pairs r s + if r = reason ∧ s = source then 1 else 0 := by
  rw [pairs, record, Keyed.find?_insert, pairs]
  by_cases hr : r = reason
  · subst hr
    rw [if_pos rfl, Option.getD_some, Counts.count_bump]
    simp
  · simp [hr]

end DropTally

namespace Gate

/-- One more refusal from a source was counted, and its data are kept as the latest ones. -/
structure Counted (g : Gate) (reason : DropReason) (source : String) (g' : Gate) : Prop where
  reasons : ∀ k, g'.tally.counts.count k = g.tally.counts.count k + if k = reason.code then 1 else 0
  sources : ∀ k, g'.tally.sources.count k =
    g.tally.sources.count k + if k = sourceName source then 1 else 0
  pairs : ∀ r s, g'.tally.pairs r s =
    g.tally.pairs r s + if r = reason.code ∧ s = sourceName source then 1 else 0
  lastReason : g'.tally.lastReason = some reason.code
  lastSource : g'.tally.lastSource = some (sourceName source)
  lastMessage : g'.tally.lastMessage = reason.message
  lastDrop : g'.lastDrop = some ⟨reason, reason.message, sourceName source⟩

theorem counted_reject (g : Gate) (reason : DropReason) (source : String) :
    g.Counted reason source (g.reject reason source).1 where
  reasons _ := Counts.count_bump ..
  sources _ := Counts.count_bump ..
  pairs _ _ := DropTally.pairs_record ..
  lastReason := rfl
  lastSource := rfl
  lastMessage := rfl
  lastDrop := rfl

end Gate

namespace Board

variable {b : Board} {i : Nat}

theorem concerns_iff {state : PhaseState} {a : Attempt} :
    concerns state a = true ↔
      state.requestId = none ∨ a.requestId = "" ∨ state.requestId = some a.requestId := by
  rw [concerns]
  cases state.requestId with
  | none => simp
  | some id => simp

/-- A note that the current attempt logs is the only thing that changes, and it is published. -/
theorem Steady.note_eq (h : b.Steady) (hi : b.current = some i) {n : Note} {now : Timestamp}
    {a : Attempt} {e : StreamEvent} (hr : (b.attempt i).record? n now = some (a, e)) :
    b.note i n now =
      { b with
        attempts := b.attempts.set i a
        displays := b.displays.set 0 (b.display.publish a.snapshot)
        outbox := b.outbox ++ if (b.attempt i).reports then [e] else [] } := by
  obtain ⟨_, hdisplay, hretired⟩ := Attempt.record?_eq hr
  have hself := attempt_setAttempt_self (b := b) a (h.bound i hi)
  have hpub : (b.setAttempt i a).publish i = (b.setAttempt i a).publishTo 0 a.snapshot := by
    rw [publish_of_live, hself, hdisplay, h.home i hi]
    rw [hself, hretired, h.live i hi]
  rw [note, record]
  simp only [hr, hpub]
  split
  · rfl
  · rw [List.append_nil]
    rfl

end Board

namespace Desk

/-- The current attempt is to log what the gate refuses: refusals are told to the board, and the slot
and the attempt do not name different requests. -/
structure Concerned (d : Desk) (i : Nat) : Prop where
  observed : d.observed = true
  current : d.board.current = some i
  named : d.slot.state.requestId = none ∨ (d.board.attempt i).requestId = "" ∨
    d.slot.state.requestId = some (d.board.attempt i).requestId

/-- The entry that tells of a refusal. -/
def refusal (d : Desk) (i : Nat) (source : String) : StreamEvent where
  kind := .gatingDrop
  requestId := (d.board.attempt i).requestId
  seq := UInt64.ofNat ((d.board.attempt i).events.length + 1)
  at_ := d.now
  fields := Keyed.ofList [("reason", .text "in_flight"), ("phase", .text (name d.slot.state.phase)),
    ("source", .text (Gate.sourceName source)), ("message", .text DropReason.inFlight.message)]

/-- An attempt after it has logged a refusal. -/
def refusing (d : Desk) (i : Nat) (source : String) : Attempt :=
  { d.board.attempt i with
    transcript := (d.board.attempt i).transcript.gatingDrop "in_flight" (Gate.sourceName source)
    events := (d.board.attempt i).events ++ [d.refusal i source] }

/-- One attempt has logged a refusal and has published it, and has reported it if it reports. -/
structure TellsOf (d : Desk) (i : Nat) (source : String) (d' : Desk) : Prop where
  bound : i < d.board.attempts.length
  shown : 0 < d.board.displays.length
  board : d'.board =
    { d.board with
      attempts := d.board.attempts.set i (d.refusing i source)
      displays := d.board.displays.set 0 (d.board.display.publish (d.refusing i source).snapshot) }
  journal : d'.journal =
    (if (d.board.attempt i).reports then [.event (d.refusal i source)] else []) ++ d.journal

/-- What is left of an attempt from a source that was turned away. -/
structure TurnedAway (d : Desk) (source : String) (d' : Desk) : Prop where
  /-- The slot, the conversation, the transport, the work in the background and what is kept under
  names are untouched. Whoever waits for something that has come gets a turn, as ever. -/
  rest : d' = { d with
    gate := d'.gate, board := d'.board, journal := d'.journal, queue := d.rouse.queue }
  counted : d.gate.Counted .inFlight source d'.gate
  told : ∀ i, d.Concerned i → d.TellsOf i source d'
  unheard : (∀ i, ¬ d.Concerned i) → d'.board = d.board ∧ d'.journal = d.journal

variable {d : Desk}

/-- The board after a refusal, before it has reported. -/
def boardAfterRefusal (d : Desk) (source : String) : Board :=
  if d.observed then
    d.board.gatingDrop d.slot.state .inFlight (Gate.sourceName source) DropReason.inFlight.message
      d.now
  else d.board

theorem boardAfterRefusal_of_concerned (h : d.Reached) {i : Nat} (hc : d.Concerned i)
    (source : String) :
    d.boardAfterRefusal source =
      { d.board with
        attempts := d.board.attempts.set i (d.refusing i source)
        displays := d.board.displays.set 0 (d.board.display.publish (d.refusing i source).snapshot)
        outbox := if (d.board.attempt i).reports then [d.refusal i source] else [] } := by
  have hr : (d.board.attempt i).record?
      (.gatingDrop DropReason.inFlight.code (name d.slot.state.phase) (Gate.sourceName source)
        DropReason.inFlight.message) d.now =
      some (d.refusing i source, d.refusal i source) := rfl
  rw [boardAfterRefusal, if_pos hc.observed, Board.gatingDrop]
  split
  · rename_i hn
    rw [hc.current] at hn
    cases hn
  · rename_i j hj
    obtain rfl : i = j := Option.some.inj (hc.current.symm.trans hj)
    rw [if_pos (Board.concerns_iff.2 hc.named), h.steady.note_eq hc.current hr, h.told.sent,
      List.nil_append]

theorem boardAfterRefusal_of_not (hn : ∀ i, ¬ d.Concerned i) (source : String) :
    d.boardAfterRefusal source = d.board := by
  rw [boardAfterRefusal]
  split
  · rename_i ho
    rw [Board.gatingDrop]
    split
    · rfl
    · rename_i i hi
      exact if_neg fun hc => hn i ⟨ho, hi, Board.concerns_iff.1 hc⟩
  · rfl

/-- The desk after a refusal. -/
def afterRefusal (d : Desk) (source : String) : Desk :=
  withBoard { d.rouse with gate := (d.gate.reject .inFlight source).1 } (d.boardAfterRefusal source)

theorem claim_eq (h : d.board.outbox = []) (hc : d.slot.closed = false)
    (hf : d.slot.state.isInFlight = true) (source : String) :
    d.claim source =
      (d.afterRefusal source, .rejected .inFlight DropReason.inFlight.message) := by
  have ht : d.gate.tryClaim d.slot source =
      ((d.gate.reject .inFlight source).1, d.slot, .rejected .inFlight DropReason.inFlight.message) := by
    simp [Gate.tryClaim, Gate.tryBeginCurrent, Slot.read, hc, Gate.tryBegin, hf, Gate.reject]
  simp only [claim, ht, afterRefusal, boardAfterRefusal, withGate]
  by_cases ho : d.observed = true
  · rw [if_pos ho]
    exact Prod.ext (if_pos ho) rfl
  · rw [if_neg ho]
    have hself : withBoard { d.rouse with gate := (d.gate.reject .inFlight source).1 } d.board =
        { d.rouse with gate := (d.gate.reject .inFlight source).1 } := withBoard_self h
    exact Prod.ext ((if_neg ho).trans hself.symm) rfl

theorem turnedAway_afterRefusal (h : d.Reached) (source : String) :
    d.TurnedAway source (d.afterRefusal source) where
  rest := rfl
  counted := Gate.counted_reject ..
  told i hi := by
    have hb := boardAfterRefusal_of_concerned h hi source
    refine ⟨h.steady.bound i hi.current, h.steady.displays, ?_, ?_⟩
    · simp only [afterRefusal, withBoard, hb, h.told.sent]
    · simp only [afterRefusal, withBoard, hb]
      split <;> rfl
  unheard hn := by
    have hb := boardAfterRefusal_of_not hn source
    rw [afterRefusal, hb]
    refine ⟨?_, ?_⟩
    · simp only [withBoard, ← h.told.sent]
    · simp only [withBoard, h.told.sent]
      rfl

theorem claim_of_free_answer (hf : d.slot.state.isInFlight = false) (source : String) :
    ∃ d' id, d.claim source = (d', .allowed id) :=
  (exists_claim_iff d source).2 (.inr hf)

/-- A submission whose claim was let through is not refused, whatever becomes of it. -/
theorem perform_submit_ne_refused {d' : Desk} {id : Option String} {source : String}
    (hc : d.claim source = (d', .allowed id)) (r : Request) (under : String) (reason : DropReason)
    (message : String) : ((Step.submit r source under).perform d).2 ≠ .refused reason message := by
  obtain ⟨prompt, sources, destination, id', axes⟩ := r
  rw [Step.perform, hc]
  dsimp only
  split
  · simp [pending]
  · split
    · simp [pending]
    · rename_i m _
      cases m <;> simp [Answer.ofMishap]

theorem submit_ne_refused {d' : Desk} {id : Option String} {source : String}
    (hc : d.claim source = (d', .allowed id)) (r : Request) (reason : DropReason)
    (message : String) : (d.submit r source).2 ≠ .refused reason message := by
  rw [submit, hc]
  dsimp only
  split
  · simp
  · rename_i e _ _
    cases e with
    | none => simp [answerTo]
    | some e =>
      cases e with
      | failure f | panic message => simp [answerTo]
      | success p => cases p <;> simp [answerTo]

/-- Submissions, be they waited for or not, are refused exactly while a request is in flight. Nothing of
a refused one is begun, whatever is to be sent: it is counted, and told to the current attempt if that
one is concerned, and that is all. -/
theorem submission_refused (h : d.Reached) (hc : d.slot.closed = false) (source : String) :
    (∀ r under, ((∃ reason message,
        ((Step.submit r source under).perform d).2 = .refused reason message) ↔
          d.slot.state.isInFlight = true) ∧
      ((∃ reason message, (d.submit r source).2 = .refused reason message) ↔
        d.slot.state.isInFlight = true)) ∧
      (d.slot.state.isInFlight = true → ∃ d', d.TurnedAway source d' ∧ ∀ r under,
        (Step.submit r source under).perform d =
            (d', .refused .inFlight DropReason.inFlight.message) ∧
          d.submit r source = (d', .refused .inFlight DropReason.inFlight.message)) := by
  have refused : d.slot.state.isInFlight = true → ∀ r under,
      (Step.submit r source under).perform d =
          (d.afterRefusal source, .refused .inFlight DropReason.inFlight.message) ∧
        d.submit r source =
          (d.afterRefusal source, .refused .inFlight DropReason.inFlight.message) := by
    intro hf r under
    have hclaim := claim_eq h.told.sent hc hf source
    obtain ⟨prompt, sources, destination, id, axes⟩ := r
    exact ⟨by rw [Step.perform, hclaim], by rw [submit, hclaim]⟩
  refine ⟨fun r under => ⟨⟨?_, fun hf => ?_⟩, ⟨?_, fun hf => ?_⟩⟩, fun hf => ?_⟩
  · rintro ⟨reason, message, ha⟩
    by_contra hf
    obtain ⟨d', id, hclaim⟩ := claim_of_free_answer (by simpa using hf) source
    exact perform_submit_ne_refused hclaim r under reason message ha
  · exact ⟨_, _, congrArg Prod.snd (refused hf r under).1⟩
  · rintro ⟨reason, message, ha⟩
    by_contra hf
    obtain ⟨d', id, hclaim⟩ := claim_of_free_answer (by simpa using hf) source
    exact submit_ne_refused hclaim r reason message ha
  · exact ⟨_, _, congrArg Prod.snd (refused hf r under).2⟩
  · exact ⟨_, turnedAway_afterRefusal h source, refused hf⟩

/-- A request is being sent and has an attempt that reports; another one comes from a source with
blanks around its name. -/
theorem submission_refused_observed : ∃ d d' : Desk, d.Reached ∧ d.slot.closed = false ∧
    d.slot.state.isInFlight = true ∧ d.Concerned 0 ∧ d.TurnedAway " menu " d' ∧
    (∀ r under, (Step.submit r " menu " under).perform d =
      (d', .refused .inFlight DropReason.inFlight.message)) ∧
    d'.gate.tally.pairs "in_flight" "menu" = 1 ∧
    d'.reported.map (·.text? "source") = [some "menu"] ∧
    d'.board.display.latest.dropSources.count "menu" = 1 := by
  let d : Desk := ((opened {} [] true).performEach
    [.command (.gate (.claim "k1")), .command (.board (.beginOwned "req-1" "a"))]).1
  have hr : d.Reached := Reached.closed.performEach (.opens {} [] true) _
  have hc : d.slot.closed = false := by decide +kernel
  have hf : d.slot.state.isInFlight = true := by decide +kernel
  have hi : d.Concerned 0 :=
    ⟨by decide +kernel, by decide +kernel, .inr (.inr (by decide +kernel))⟩
  obtain ⟨d', ht, ha⟩ := (submission_refused hr hc " menu ").2 hf
  have hd' : d' = (d.claim " menu ").1 := by
    have he := (ha (.mk "p" [] none none ∅) "h").1
    rw [Step.perform, claim_eq hr.told.sent hc hf] at he
    rw [claim_eq hr.told.sent hc hf]
    exact (congrArg Prod.fst he).symm
  refine ⟨d, d', hr, hc, hf, hi, ht, fun r under => (ha r under).1, ?_, ?_, ?_⟩
  · rw [hd']
    decide +kernel
  · rw [hd']
    decide +kernel
  · rw [hd']
    decide +kernel

/-- Once nobody listens to the gate any more, the current attempt of the very request that is in flight
logs nothing of a refusal. -/
theorem submission_refused_unobserved :
    ¬ ∀ (d : Desk) (r : Request) (source under : String) (i : Nat), d.Reached →
      d.slot.closed = false → d.slot.state.isInFlight = true → d.board.current = some i →
      d.slot.state.requestId = some (d.board.attempt i).requestId →
      (((Step.submit r source under).perform d).1.board.attempt i).events.length =
        (d.board.attempt i).events.length + 1 := by
  intro h
  let d : Desk := ((opened {} [] false).performEach
    [.command (.gate (.observe false)), .command (.gate (.claim "k1")),
      .command (.board (.beginOwned "req-1" "a"))]).1
  have hr : d.Reached := Reached.closed.performEach (.opens {} [] false) _
  have he := h d (.mk "p" [] none none ∅) "menu" "h" 0 hr (by decide +kernel) (by decide +kernel)
    (by decide +kernel) (by decide +kernel)
  have hne : (((Step.submit (.mk "p" [] none none ∅) "menu" "h").perform d).1.board.attempt
      0).events.length = 0 := by decide +kernel
  have hd : (d.board.attempt 0).events.length = 0 := by decide +kernel
  rw [hne, hd] at he
  cases he

end Desk

end PromptDesk
