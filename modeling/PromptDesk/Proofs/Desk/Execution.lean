import PromptDesk.Proofs.Desk.Others
import PromptDesk.Proofs.Desk.Work

/-! Executions from their start to their end, with anything that others may do between their turns.
Whatever the transport does, an execution that ends has given its slot back: it has completed,
failed or cancelled its request at most once, and it returns what it did. -/
namespace PromptDesk

open Slot (Move)

namespace Desk

/-- The turns of an execution from a desk on: the last of them starts at the third desk and leaves
the fourth one behind, and between any two turns others may do what they like. -/
inductive Course (r : String) : Desk → Execution → Desk → Desk → Response → Prop
  | last {d d' : Desk} {e : Execution} {response : Response}
      (turn : d.execute e = (d', .ended response)) : Course r d e d d' response
  | more {d d₁ d₂ last d' : Desk} {e e' : Execution} {response : Response}
      (turn : d.execute e = (d₁, .waiting e')) (others : d₁.LeavesAlone r d₂)
      (rest : Course r d₂ e' last d' response) : Course r d e last d' response

/-- A request enters its execution, which may have its first turn later, and ends with a response. -/
inductive Executes (r : String) (d : Desk) (draft : Draft) : Desk → Desk → Desk → Response → Prop
  | refused {d₁ : Desk} {draft' : Draft} (entry : d.enter draft = (d₁, draft', .error r)) :
      Executes r d draft d₁ d₁ (d₁.cancelledBeforeStart r).1 (d₁.cancelledBeforeStart r).2
  | entered {d₁ launched last d' : Desk} {draft' : Draft} {response : Response}
      (entry : d.enter draft = (d₁, draft', .ok r)) (others : d₁.LeavesAlone r launched)
      (course : Course r launched ⟨r, draft', .claimed⟩ last d' response) :
      Executes r d draft launched last d' response

variable {r : String} {d d' last : Desk} {e : Execution} {response : Response}

/-- What an execution does before its end is work on its request. -/
theorem work_considerate (r : String) :
    Work (fun d d' => d.Minds r → Keeps (Slot.Others r) r d d')
      (fun d d' => d.Minds r → Keeps (Slot.Working r) r d d') r where
  conduct h hd := (h hd).mono fun _ _ => .inl
  trans h h' hd := (h hd).trans (h' ((h hd).minds hd))
  stream ha _ := .of_passes (.of_move (.inr rfl) ha)

/-- An execution that heeds a token works on its request until it finishes. A token that is tripped
before the last turn leaves nothing but to give up. -/
theorem Course.finishes {token : Nat} (h : Course r d e last d' response) (hd : d.Minds r)
    (hr : e.requestId = r) (ht : e.stage.token? = some token)
    (hb : e.stage.all (Step.isConsiderate r) = true) :
    Keeps (Slot.Working r) r d last ∧ ∃ d₁ attempt outcome, Keeps (Slot.Working r) r last d₁ ∧
      d₁.finish r attempt outcome = (d', .ended response) ∧
      (last.slot.isTripped token = true → outcome.isCancelled = true) := by
  induction h with
  | @last d d' e response turn =>
    subst hr
    have h := Turned.execute (conduct_considerate _).manner (work_considerate _) ht hb (d := d)
    rw [turn] at h
    obtain ⟨d₁, attempt, outcome, work, hf, heeds⟩ := h.ends_cases
    exact ⟨.of_passes (.refl d), d₁, attempt, outcome, work hd, hf, fun h => heeds (by simp [ht, h])⟩
  | @more d d₁ d₂ last d' e e' response turn others rest ih =>
    subst hr
    have h := Turned.execute (conduct_considerate _).manner (work_considerate _) ht hb (d := d)
    rw [turn] at h
    obtain ⟨work, id, token', behaves⟩ := h.waits_cases
    have hw := work hd
    have ho : Keeps (Slot.Working e.requestId) e.requestId d₁ d₂ :=
      (Keeps.of_passes others).mono fun _ _ => .inl
    obtain ⟨hlast, hend⟩ := ih (ho.minds (hw.minds hd)) id (token'.trans ht) behaves
    exact ⟨(hw.trans ho).trans hlast, hend⟩

/-- Once a request was sent, its execution works on it up to the moment at which it finishes. -/
structure Sent (r : String) (draft : Draft) (d last d₁ : Desk) : Prop where
  minds : d₁.Minds r
  calls : d₁.callsFor r = (d.called ⟨r, draft, .claimed⟩).callsFor r
  grows : Slot.Path (fun _ _ => True) d.slot d₁.slot
  before : d₁.slot.Unwrapped → Slot.Path (Slot.Working r) d.slot last.slot
  after : d₁.slot.Unwrapped → Slot.Path (Slot.Working r) last.slot d₁.slot

theorem Minds.called (hd : d.Minds r) (draft : Draft) : (d.called ⟨r, draft, .claimed⟩).Minds r := by
  obtain ⟨hs, hset, hr, _, hl, _⟩ := called_eq d ⟨r, draft, .claimed⟩
  refine ⟨hs ▸ hd.sound, hs ▸ hd.issued, hl hd.labelled, fun w hw => ?_, fun x hx => ?_⟩
  · exact hd.behaves.history w (by rwa [hset] at hw)
  · exact hd.behaves.replies x (List.mem_of_mem_tail (by rwa [hr] at hx))

theorem Sent.of_keeps {d₁ : Desk} {draft : Draft} {last' : Desk} (hd : d.Minds r)
    (hs : last'.slot = last.slot) (hl : Keeps (Slot.Working r) r (d.called ⟨r, draft, .claimed⟩) last')
    (he : Keeps (Slot.Working r) r last' d₁) : Sent r draft d last d₁ where
  minds := he.minds (hl.minds (hd.called draft))
  calls := by rw [he.passes.calls, hl.passes.calls]
  grows := by
    have h := (hl.trans he).passes.slot
    rwa [(called_eq d _).1] at h
  before hb := by
    have h := (hl.keeps (he.passes.unwrapped hb)).slot
    rwa [(called_eq d _).1, hs] at h
  after hb := by
    have h := (he.keeps hb).slot
    rwa [hs] at h

/-- An execution does not send a request that lost the slot; any other one it sends, and works on
it until it finishes. -/
theorem Course.claimed_cases {draft : Draft} (h : Course r d ⟨r, draft, .claimed⟩ last d' response)
    (hd : d.Minds r) :
    (d.slot.state.holds r = false ∧ last = d ∧ d.Quiet d' ∧ response = .empty r .cancelled d.now) ∨
      (d.slot.state.holds r = true ∧ ∃ d₁ attempt outcome, Sent r draft d last d₁ ∧
        d₁.finish r attempt outcome = (d', .ended response) ∧
        (last.slot.isTripped d.slot.armed = true → outcome.isCancelled = true)) := by
  have htoken := hd.sound.tokenFor?_eq r
  cases hh : d.slot.state.holds r with
  | false =>
    rw [if_neg (by simp [hh])] at htoken
    obtain ⟨d₂, hl, hq⟩ := launch_of_none (e := ⟨r, draft, .claimed⟩) htoken
    cases h with
    | last turn =>
      rw [show d.execute ⟨r, draft, .claimed⟩ = d.launch ⟨r, draft, .claimed⟩ from rfl, hl] at turn
      cases turn
      exact .inl ⟨rfl, rfl, hq, rfl⟩
    | more turn others rest =>
      rw [show d.execute ⟨r, draft, .claimed⟩ = d.launch ⟨r, draft, .claimed⟩ from rfl, hl] at turn
      cases turn
  | true =>
    rw [if_pos (by simp [hh])] at htoken
    obtain ⟨stage, hst, hall, hl⟩ :=
      launch_of_token (e := ⟨r, draft, .claimed⟩) htoken hd.behaves
    refine .inr ⟨rfl, ?_⟩
    have hm := hd.called draft
    cases h with
    | last turn =>
      have turn' := hl.symm.trans turn
      obtain ⟨hlast, d₁, attempt, outcome, hk, hf, hheeds⟩ :=
        (Course.last turn').finishes hm rfl hst hall
      have hslot : (d.called ⟨r, draft, .claimed⟩).slot = d.slot := (called_eq d _).1
      exact ⟨d₁, attempt, outcome, .of_keeps hd hslot hlast hk, hf, by rwa [hslot] at hheeds⟩
    | more turn others rest =>
      have turn' := hl.symm.trans turn
      obtain ⟨hlast, d₁, attempt, outcome, hk, hf, hheeds⟩ :=
        (Course.more turn' others rest).finishes hm rfl hst hall
      exact ⟨d₁, attempt, outcome, .of_keeps hd rfl hlast hk, hf, hheeds⟩

/-- What a response tells of the move with which its execution ended. -/
inductive Tells (r : String) (response : Response) : Move → Prop
  | completed (outcome : response.outcome = .completed) : Tells r response (.complete r)
  | failed (f : Failure) (outcome : response.outcome = .failed f.message) :
      Tells r response (.fail r f.message)
  | cancelled (outcome : response.outcome = .cancelled) (text : response.text = "") :
      Tells r response (.cancel r)

namespace Tells

variable {m : Move}

theorem allowed {s : PhaseState} (h : Tells r response m) (hh : s.holds r = true) : m.Allowed s := by
  cases h <;> exact hh

theorem unsent {s : Slot} (h : Tells r response m) : Slot.Unsent r s m := by
  cases h <;> trivial

theorem not_holds (h : Tells r response m) (s : Slot) : (m.after s).state.holds r = false := by
  cases h <;> simp [PhaseState.holds, Move.result, PhaseState.isInFlight, Phase.isInFlight]

end Tells

end Desk

theorem Failure.message_ne_empty (f : Failure) : f.message ≠ "" := by
  have h : ∀ s t : String, s ≠ "" → s ++ t ≠ "" := fun s t hs he =>
    hs (String.append_eq_empty_iff.1 he).1
  cases f with
  | cancelled => exact ne_of_beq_false rfl
  | rejected reason message => exact h _ _ (h _ _ (h _ _ (ne_of_beq_false rfl)))
  | timeout ms => exact h _ _ (h _ _ (ne_of_beq_false rfl))
  | _ => exact h _ _ (ne_of_beq_false rfl)

/-- What the changes of the slot since the start of an execution say about its request, and what
the execution returns. -/
structure GivesBack (r : String) (s t : Slot) (outcome : Outcome) : Prop where
  released : t.state.holds r = false
  /-- A completion is told exactly when the request in flight was completed. -/
  completed : outcome = .completed ↔ ∃ c ∈ t.changesSince s, c.completes r = true
  /-- A fault is told when the request in flight failed with it, or had lost the slot. -/
  failed : ∀ error, outcome = .failed error →
    (∃ c ∈ t.changesSince s, c.fails r error = true) ∨ ∃ c ∈ t.changesSince s, c.loses r = true
  once : (t.changesSince s).countP (·.ends r) ≤ 1

namespace GivesBack

variable {r : String} {s t u : Slot} {outcome : Outcome} {m : Move}

/-- What came before may be counted to an execution as long as it ended nothing. -/
theorem of_later {rule rule' : Slot → Move → Prop} (h : GivesBack r t u outcome)
    (hs : Slot.Path rule s t) (ht : Slot.Path rule' t u)
    (hn : ∀ c ∈ t.changesSince s, c.ends r = false) : GivesBack r s u outcome where
  released := h.released
  completed := by
    rw [h.completed, hs.changesSince_trans ht]
    refine ⟨fun ⟨c, hc, he⟩ => ⟨c, List.mem_append_left _ hc, he⟩, fun ⟨c, hc, he⟩ => ?_⟩
    rcases List.mem_append.1 hc with hc | hc
    · exact ⟨c, hc, he⟩
    · exact absurd (Change.ends_of_completes he) (by simp [hn c hc])
  failed error he := by
    rw [hs.changesSince_trans ht]
    rcases h.failed error he with ⟨c, hc, hf⟩ | ⟨c, hc, hl⟩
    · exact .inl ⟨c, List.mem_append_left _ hc, hf⟩
    · exact .inr ⟨c, List.mem_append_left _ hc, hl⟩
  once := by
    have h0 : (t.changesSince s).countP (·.ends r) = 0 := List.countP_eq_zero.2 (by simpa using hn)
    rw [hs.changesSince_trans ht, List.countP_append, h0]
    exact h.once

/-- A request that had lost the slot when its execution was over. -/
theorem of_lost (h : Slot.Path (Slot.Working r) s t) (hi : s.Issued r) (hb : t.Unwrapped)
    (hl : t.state.holds r = false) (hc : outcome ≠ .completed)
    (hf : ∀ error, outcome = .failed error → s.state.holds r = true) :
    GivesBack r s t outcome where
  released := hl
  completed := by
    refine ⟨fun he => absurd he hc, fun ⟨c, hc, he⟩ => ?_⟩
    rw [(h.unfinished c hc).1] at he
    cases he
  failed error he := .inr (h.loss (hf error he) hl)
  once := (h.sentOnce hi hb).ends_once.1

/-- A request that its execution ended while it held the slot. -/
theorem of_ended {v : Slot} {response : Response} (h : Slot.Path (Slot.Working r) s t)
    (hi : s.Issued r) (hb : v.Unwrapped) (hm : Desk.Tells r response m)
    (hh : t.state.holds r = true) (hv : Slot.Path (Slot.Others r) (m.after t) v) :
    GivesBack r s v response.outcome := by
  obtain ⟨_, hun', hpath, hchg⟩ := h.through hi hb hm.unsent (hm.allowed hh) hv
  have hothers : ∀ c, c ∈ v.changesSince (m.after t) ∨ c ∈ t.changesSince s →
      c.completes r = false := fun c hc =>
    hc.elim (fun hc => (hv.working.unfinished c hc).1) fun hc => (h.unfinished c hc).1
  refine ⟨(hun'.lost (hm.not_holds t)).1, ?_, fun error he => ?_, hpath.ends_once.1⟩
  · rw [hchg]
    constructor
    · intro ho
      refine ⟨⟨t.state, m.result t⟩, by simp, ?_⟩
      cases hm with
      | completed _ => simp [Change.completes, hh, Move.result, PhaseState.isFor]
      | cancelled ho' _ | failed f ho' => rw [ho'] at ho; cases ho
    · rintro ⟨c, hcm, hcc⟩
      rcases List.mem_append.1 hcm with hcm | hcm
      · simp [hothers c (.inl hcm)] at hcc
      · rcases List.mem_cons.1 hcm with rfl | hcm
        · cases hm with
          | completed ho => exact ho
          | cancelled _ _ | failed f _ => simp [Change.completes, Move.result] at hcc
        · simp [hothers c (.inr hcm)] at hcc
  · cases hm with
    | completed ho | cancelled ho _ => rw [ho] at he; cases he
    | failed f ho =>
      obtain rfl : f.message = error := Outcome.failed.inj (ho.symm.trans he)
      refine .inl ⟨_, hchg ▸ List.mem_append_right _ List.mem_cons_self, ?_⟩
      simp [Change.fails, hh, Move.result, PhaseState.isFor, f.message_ne_empty]

end GivesBack

namespace Desk

variable {r : String} {d d' last launched : Desk} {response : Response}

/-- An execution ends with a move of its own, or it had lost the slot. -/
theorem finish_cases {outcome : ReadOutcome} {attempt : Nat} (hd : d.Minds r)
    (h : d.finish r attempt outcome = (d', .ended response)) :
    (d.slot.state.holds r = true ∧
        ∃ m, Tells r response m ∧ Keeps (Slot.Others r) r (d.moved m) d') ∨
      (d.slot.state.holds r = false ∧ d.Quiet d' ∧
        (response.outcome = .cancelled ∧ response.text = "" ∨
          ∃ f : Failure, outcome = .failed f ∧ response.outcome = .failed f.message)) := by
  have hf := finishes_finish (conduct_considerate r).manner hd.behaves r attempt outcome
  rw [h] at hf
  generalize hx : (d', Progress.ended response) = x at hf
  cases hf with
  | completes holds after ho =>
    cases hx
    have hp : Passes (fun _ _ => True) r d (d.moved (.complete r)) :=
      .of_move (m := .complete r) trivial holds
    exact .inl ⟨holds, _, .completed ho, after (hp.minds hd)⟩
  | panics => cases hx
  | @fails f holds =>
    cases hx
    exact .inl ⟨holds, _, .failed f rfl, .of_passes (.refl _)⟩
  | cancels holds after =>
    cases hx
    exact .inl ⟨holds, _, .cancelled rfl rfl, .of_passes (.of_quiet after)⟩
  | @faults f lost =>
    cases hx
    exact .inr ⟨lost, .refl d, .inr ⟨f, rfl, rfl⟩⟩
  | drops lost after fine =>
    cases hx
    exact .inr ⟨lost, after, .inl ⟨rfl, rfl⟩⟩

/-- How a claimed execution went, from the desk of its first turn on. -/
inductive Went (r : String) (draft : Draft) (d last d' : Desk) (response : Response) : Prop
  /-- It had lost the slot before, and the request was not sent. -/
  | unsent (lost : d.slot.state.holds r = false) (start : last = d) (quiet : d.Quiet d')
      (empty : response = .empty r .cancelled d.now)
  /-- It held the slot until it gave it back. -/
  | held {d₁ : Desk} {m : Move} (began : d.slot.state.holds r = true) (sent : Sent r draft d last d₁)
      (holds : d₁.slot.state.holds r = true) (tells : Tells r response m)
      (after : Keeps (Slot.Others r) r (d₁.moved m) d')
  /-- It lost the slot on the way. -/
  | lost {d₁ : Desk} (began : d.slot.state.holds r = true) (sent : Sent r draft d last d₁)
      (lost : d₁.slot.state.holds r = false) (quiet : d₁.Quiet d')
      (tells : response.outcome = .cancelled ∧ response.text = "" ∨
        ∃ f : Failure, response.outcome = .failed f.message)
      (heeds : last.slot.isTripped d.slot.armed = true → response.outcome = .cancelled)

theorem Course.went {draft : Draft} (h : Course r d ⟨r, draft, .claimed⟩ last d' response)
    (hd : d.Minds r) : Went r draft d last d' response := by
  rcases h.claimed_cases hd with ⟨hl, hs, hq, he⟩ | ⟨hh, d₁, attempt, outcome, hs, hf, hheeds⟩
  · exact .unsent hl hs hq he
  · rcases finish_cases hs.minds hf with ⟨hh₁, m, hm, hk⟩ | ⟨hl, hq, ho⟩
    · exact .held hh hs hh₁ hm hk
    · refine .lost hh hs hl hq (ho.imp_right fun ⟨f, _, ho⟩ => ⟨f, ho⟩) fun ht => ?_
      rcases ho with ⟨ho, _⟩ | ⟨f, rfl, _⟩
      · exact ho
      · exact absurd (hheeds ht) (by simp [ReadOutcome.isCancelled])

namespace Went

variable {draft : Draft} {s : Slot}

theorem moves (h : Went r draft d last d' response) :
    Slot.Path (fun _ _ => True) d.slot d'.slot := by
  cases h with
  | unsent _ _ quiet _ => exact quiet.slot ▸ .refl
  | lost _ sent _ quiet _ _ => exact quiet.slot ▸ sent.grows
  | @held d₁ m _ sent holds tells after =>
    have hstep : Slot.Path (fun _ _ => True) d₁.slot (m.after d₁.slot) :=
      .single trivial (Slot.move?_of_allowed (tells.allowed holds))
    exact (sent.grows.trans hstep).trans after.passes.slot

/-- An execution that was claimed gives its slot back, whatever others did before its first turn. -/
theorem gaveBack (h : Went r draft d last d' response) (hb : d'.slot.Unwrapped)
    (base : Slot.Path (Slot.Others r) s d.slot) (hi : s.Issued r) :
    GivesBack r s d'.slot response.outcome := by
  cases h with
  | unsent lost _ quiet empty =>
    subst empty
    rw [quiet.slot] at hb ⊢
    exact .of_lost base.working hi hb lost nofun nofun
  | @held d₁ m _ sent holds tells after =>
    have hg : d₁.slot.Unwrapped :=
      Nat.le_trans (Slot.tokens_le_after _ m) (after.passes.unwrapped hb)
    have hw := (base.working.trans (sent.before hg)).trans (sent.after hg)
    exact .of_ended hw hi hb tells holds (after.keeps hb).slot
  | lost began sent lost quiet tells _ =>
    rw [quiet.slot] at hb ⊢
    refine .of_lost ((base.working.trans (sent.before hb)).trans (sent.after hb)) hi hb lost ?_ ?_
    · rcases tells with ⟨ho, _⟩ | ⟨f, ho⟩ <;> simp [ho]
    · intro _ _
      by_contra hn
      have hu := base.working.sentOnce hi (Nat.le_trans sent.grows.tokens_le hb)
      rw [(hu.lost (by simpa using hn)).1] at began
      cases began

end Went

/-- A request that enters its execution keeps the claim or is sent, under an id that was issued. -/
theorem enter_ok {draft draft' : Draft} (h : d.enter draft = (d', draft', .ok r))
    (hc : d.slot.Counted) (hid : ∀ id, draft.requestId = some id → d.slot.Issued id) :
    d'.slot.Issued r ∧ (d' = d.withSlot d.slot ∨ ∃ id, d' = d.moved (.send id)) := by
  cases hr : draft.requestId with
  | none =>
    have hb : (draft.begin false).requestId = none := by
      rw [← hr, Draft.begin]
      split <;> rfl
    have he : d.enter draft = (d.moved (.send none),
        { draft.begin false with requestId := some d.slot.nextId }, .ok d.slot.nextId) := by
      rw [enter, hb]
      rfl
    rw [he] at h
    cases h
    exact ⟨hc.issued_nextId, .inr ⟨none, rfl⟩⟩
  | some id =>
    have hi := hid id hr
    rcases enter_cases (d := d) hr with ⟨_, _, he⟩ | ⟨_, _, _, he⟩ | ⟨_, he⟩
    · rw [he] at h
      cases h
    · rw [he] at h
      cases h
      exact ⟨hi, .inl rfl⟩
    · rw [he] at h
      cases h
      exact ⟨hi.after _, .inr ⟨_, rfl⟩⟩

/-- A request is refused its execution only if it was cancelled. -/
theorem enter_error {draft draft' : Draft} (h : d.enter draft = (d', draft', .error r)) :
    d' = d.withSlot d.slot ∧ draft.requestId = some r ∧ d.slot.state.isFor r = true ∧
      d.slot.state.cancelRequested = true := by
  cases hr : draft.requestId with
  | none =>
    have hb : (draft.begin false).requestId = none := by
      rw [← hr, Draft.begin]
      split <;> rfl
    rw [enter, hb] at h
    cases h
  | some id =>
    rcases enter_cases (d := d) hr with ⟨hf, hcr, he⟩ | ⟨_, _, _, he⟩ | ⟨_, he⟩
    · rw [he] at h
      cases h
      exact ⟨rfl, rfl, hf, hcr⟩
    · rw [he] at h
      cases h
    · rw [he] at h
      cases h

/-- Every execution gives its slot back exactly once. The desk may have been used before, the id of
the request was issued there or is fresh, and others may do what they like except send it events. -/
theorem Executes.givesBack {draft : Draft} (h : Executes r d draft launched last d' response)
    (reach : Slot.Path (fun _ _ => True) {} d.slot)
    (issued : ∀ id, draft.requestId = some id → d.slot.Issued id) (labelled : d.Labelled)
    (behaves : d.Behaves (Step.isConsiderate r)) (unwrapped : d'.slot.Unwrapped) :
    GivesBack r d.slot d'.slot response.outcome := by
  have hs := reach.sound Slot.sound_new
  cases h with
  | refused entry =>
    obtain ⟨rfl, hr, hf, hc⟩ := enter_error entry
    have hq := (quiet_withSlot_self d).trans (quiet_cancelledBeforeStart (d.withSlot d.slot) r)
    have hl : d.slot.state.holds r = false := by
      by_contra hh
      rw [hs.wanted (PhaseState.holds_iff.1 (by simpa using hh)).2] at hc
      cases hc
    rw [hq.slot] at unwrapped ⊢
    exact .of_lost .refl (issued r hr) unwrapped hl nofun nofun
  | @entered d₁ _ _ _ draft' _ entry others course =>
    obtain ⟨hi, hd₁⟩ := enter_ok entry (reach.counted Slot.counted_new) issued
    have hp : Passes (fun _ _ => True) r d d₁ := by
      rcases hd₁ with rfl | ⟨id, rfl⟩
      · exact .of_quiet (quiet_withSlot_self d)
      · exact .of_move trivial trivial
    have hm : d₁.Minds r := ⟨hp.slot.sound hs, hi, hp.labelled labelled, hp.behaves behaves⟩
    have hw := course.went (others.minds hm)
    have hmoves := (others.slot.mono fun _ _ _ => trivial).trans hw.moves
    refine (hw.gaveBack unwrapped others.slot hi).of_later hp.slot hmoves ?_
    rcases hd₁ with rfl | ⟨id, rfl⟩
    · simp
    · simp [Change.ends, Move.result, PhaseState.isTerminal, Phase.isTerminal]

/-- A request is cancelled, and another one claims the slot, while its stream is being read. -/
theorem givesBack_replaced :
    let cancel : Call := .mk "cancel" (.command (.work (.cancelCurrent "esc")))
    let claim : Call := .mk "claim" (.command (.gate (.claim "k")))
    let d : Desk :=
      (({ replies := [⟨[], [.chunk "a", .calls [cancel, claim], .chunk "b"]⟩] } : Desk).claim "k").1
    let draft : Draft := { destination := .above, requestId := some "req-1" }
    ∃ launched last d' response, Executes "req-1" d draft launched last d' response ∧
      response.outcome = .cancelled ∧ d'.slot.state.requestId = some "req-2" ∧
        GivesBack "req-1" d.slot d'.slot response.outcome := by
  intro cancel claim d draft
  let e : Execution := ⟨"req-1", (d.enter draft).2.1, .claimed⟩
  let d' : Desk := ((d.enter draft).1.execute e).1
  have entry : d.enter draft = ((d.enter draft).1, (d.enter draft).2.1, .ok "req-1") := by
    have h : (d.enter draft).2.2 = .ok "req-1" := by cbv
    rw [← h]
  have turn : (d.enter draft).1.execute e = (d', .ended (.empty "req-1" .cancelled d.now)) := by
    have h : ((d.enter draft).1.execute e).2 = .ended (.empty "req-1" .cancelled d.now) := by cbv
    rw [← h]
  have h : Executes "req-1" d draft (d.enter draft).1 (d.enter draft).1 d' _ :=
    .entered entry (.refl _) (.last turn)
  refine ⟨_, _, _, _, h, rfl, by decide +kernel, h.givesBack ?_ ?_ ?_ ?_ ?_⟩
  · exact .single (m := .send none) trivial rfl
  · intro id hid
    obtain rfl : "req-1" = id := Option.some.inj hid
    exact Slot.counted_new.issued_nextId
  · exact fun h hm => absurd hm List.not_mem_nil
  · refine ⟨fun _ hw => ?_, fun x hx => ?_⟩
    · cases hw
    · rw [List.mem_singleton.1 hx]
      rfl
  · rw [Slot.Unwrapped]
    decide +kernel

end Desk

end PromptDesk
