import PromptDesk.Desk.Turn
import PromptDesk.Proofs.Desk.Execution

/-! Submissions that are cancelled on their way: while their sources are asked, before they are sent,
or while the transport works for them. A cancellation is final unless another request had taken the
slot before the execution began; and a fault of the very turn in which it comes is still told. -/
namespace PromptDesk

open Slot (Move)

namespace Desk

/-- The desk and the draft of a claimed request when its sources have answered. -/
def ready (d : Desk) (q : Request) (r : String) (parts : List Part) : Desk × Draft :=
  d.prepare (d.draftFor (q.claimed (some r))) q.prompt parts

/-- What becomes of a claimed request when its sources have given their answers. -/
inductive Pursued (q : Request) (r : String) (d : Desk) :
    Except Mishap (List Part) → Desk → Desk → Desk → Except Mishap Response → Prop
  /-- A source failed, and the slot is given back; or it panicked. -/
  | returned (m : Mishap) : Pursued q r d (.error m) d d (d.turnBack (some r) m) (.error m)
  | executed {parts : List Part} {launched last ended : Desk} {response : Response}
      (run : Executes r (d.ready q r parts).1 (d.ready q r parts).2 launched last ended response) :
      Pursued q r d (.ok parts) launched last ended (.ok response)

end Desk

/-- A request that was admitted, from before its claim to any moment after its end. Others may do
what they like at any time except send it events of its own. -/
structure Submission (r : String) where
  /-- Before and after the claim, when the sources are asked and when they have answered. -/
  (opened claimed asked answered : Desk)
  /-- At the first and at the last turn of the execution, at its end and at some moment after it. -/
  (launched last ended later : Desk)
  source : String
  request : Request
  parts : Except Mishap (List Part)
  answer : Except Mishap Response
  reach : Slot.Path (fun _ _ => True) {} opened.slot
  labelled : opened.Labelled
  behaves : opened.Behaves (Step.isConsiderate r)
  considerate : Source.allIn (Step.isConsiderate r) request.sources = true
  claim : opened.claim source = (claimed, .allowed (some r))
  waits : claimed.LeavesAlone r asked
  gathers : gather request.sources asked = (answered, parts)
  pursued : Desk.Pursued request r answered parts launched last ended answer
  afterwards : ended.LeavesAlone r later
  unwrapped : later.slot.Unwrapped

namespace Submission

variable {r : String}

/-- The request had been cancelled between its claim and some moment. -/
def CancelledBy (x : Submission r) (d : Desk) : Prop :=
  ∃ c ∈ d.slot.changesSince x.claimed.slot, c.cancels r = true

/-- Before its execution began the request had been cancelled, and another one had taken its place. -/
def Superseded (x : Submission r) : Prop :=
  (∃ parts, x.parts = .ok parts) ∧ x.CancelledBy x.answered ∧ x.answered.slot.state.isFor r = false

/-- The last turn of the execution began before the request was cancelled, and failed. -/
def Faulted (x : Submission r) : Prop :=
  ¬ x.CancelledBy x.last ∧
    ∃ response error, x.answer = .ok response ∧ response.outcome = .failed error

/-- Nothing comes of a request after its cancellation. -/
structure Final (x : Submission r) : Prop where
  outcome : ∀ response, x.answer = .ok response →
    response.outcome = .cancelled ∧ response.text = ""
  /-- The transport is not called if the cancellation came before the first turn. -/
  uncalled : x.CancelledBy x.launched → x.later.callsFor r = x.claimed.callsFor r
  /-- If it came later the transport had been called before, at the start of the first turn. -/
  called : x.later.callsFor r = x.claimed.callsFor r ∨
    ∃ draft, x.later.callsFor r = (x.launched.called ⟨r, draft, .claimed⟩).callsFor r
  /-- The request does not hold the slot in any later state. -/
  released : (x.later.slot.changesSince x.claimed.slot).Pairwise
    fun later earlier => earlier.cancels r = true → later.after.holds r = false

end Submission

namespace Desk

variable {r : String} {draft : Draft} {d d' last : Desk} {response : Response} {s : Slot}

/-- A claimed execution does not send its request again. -/
theorem Went.sentOnce (h : Went r draft d last d' response) (hb : d'.slot.Unwrapped)
    (base : Slot.Path (Slot.Others r) s d.slot) (hi : s.Issued r) :
    Slot.Path (Slot.Unsent r) s d'.slot := by
  cases h with
  | unsent _ _ quiet _ =>
    rw [quiet.slot] at hb ⊢
    exact base.working.sentOnce hi hb
  | lost _ sent _ quiet _ _ =>
    rw [quiet.slot] at hb ⊢
    exact ((base.working.trans (sent.before hb)).trans (sent.after hb)).sentOnce hi hb
  | @held d₁ m _ sent holds tells after =>
    have hg : d₁.slot.Unwrapped :=
      Nat.le_trans (Slot.tokens_le_after _ m) (after.passes.unwrapped hb)
    have hw := (base.working.trans (sent.before hg)).trans (sent.after hg)
    have h := Slot.Path.through hw hi hb tells.unsent (tells.allowed holds) (after.keeps hb).slot
    exact h.2.2.1

/-- The transport is called for a request exactly if it holds the slot at its first turn, and then
before anything else. -/
theorem Went.calls (h : Went r draft d last d' response) :
    (d.slot.state.holds r = false ∧ d'.callsFor r = d.callsFor r) ∨
      d.slot.state.holds r = true ∧
        d'.callsFor r = (d.called ⟨r, draft, .claimed⟩).callsFor r := by
  cases h with
  | unsent lost _ quiet _ => exact .inl ⟨lost, quiet.callsFor r⟩
  | held began sent _ _ after => exact .inr ⟨began, after.passes.calls.trans sent.calls⟩
  | lost began sent _ quiet _ _ => exact .inr ⟨began, (quiet.callsFor r).trans sent.calls⟩

theorem Went.reached (h : Went r draft d last d' response) (hb : d'.slot.Unwrapped) :
    Slot.Path (Slot.Working r) d.slot last.slot := by
  cases h with
  | unsent _ start _ _ => exact start ▸ .refl
  | @held d₁ m _ sent _ _ after =>
    exact sent.before (Nat.le_trans (Slot.tokens_le_after _ m) (after.passes.unwrapped hb))
  | lost _ sent _ quiet _ _ => exact sent.before (quiet.slot ▸ hb)

/-- What an execution tells of a request that was cancelled before its end. -/
theorem Went.cancelled (h : Went r draft d last d' response) (hs : s.Sound)
    (hb : d'.slot.Unwrapped) (base : Slot.Path (Slot.Others r) s d.slot) (hi : s.Issued r)
    (hc : ∃ c ∈ d'.slot.changesSince s, c.cancels r = true) :
    (response.outcome = .cancelled ∧ response.text = "") ∨
      (∀ c ∈ last.slot.changesSince s, c.cancels r = false) ∧
        ∃ error, response.outcome = .failed error := by
  cases h with
  | unsent _ _ _ empty =>
    subst empty
    exact .inl ⟨rfl, rfl⟩
  | lost began sent lost quiet tells heeds =>
    rw [quiet.slot] at hb
    refine tells.imp_right fun ⟨f, ho⟩ => ⟨fun c hcm => ?_, _, ho⟩
    have hbl : last.slot.Unwrapped := Nat.le_trans (sent.after hb).tokens_le hb
    have hbd : d.slot.Unwrapped := Nat.le_trans (sent.before hb).tokens_le hbl
    by_contra hcr
    rw [Bool.not_eq_false] at hcr
    rw [base.changesSince_trans (sent.before hb), List.mem_append] at hcm
    rcases hcm with hcm | hcm
    -- a cancellation before the last turn would have tripped the token
    · have hpath := (sent.before hb).unsent (base.issued hi) hbl
      rw [heeds ((hpath.token (base.sound hs) began).2 ⟨c, hcm, hcr⟩)] at ho
      cases ho
    · rw [((base.working.sentOnce hi hbd).cancelled.2 ⟨c, hcm, hcr⟩).1] at began
      cases began
  | @held d₁ m _ sent holds tells after =>
    have hg : d₁.slot.Unwrapped :=
      Nat.le_trans (Slot.tokens_le_after _ m) (after.passes.unwrapped hb)
    have hw := (base.working.trans (sent.before hg)).trans (sent.after hg)
    obtain ⟨hst, htv, _, hchg⟩ :=
      Slot.Path.through hw hi hb tells.unsent (tells.allowed holds) (after.keeps hb).slot
    obtain ⟨c, hcm, hcr⟩ := hc
    rw [hchg, List.mem_append, List.mem_cons] at hcm
    -- the cancellation can only be the move of the execution itself
    rcases hcm with hcm | rfl | hcm
    · have hne := (htv.lost (tells.not_holds d₁.slot)).2 c hcm
      simp [Change.cancels, hne] at hcr
    · cases tells with
      | cancelled ho ht => exact .inl ⟨ho, ht⟩
      | completed _ | failed f _ => simp [Change.cancels, Move.result] at hcr
    · rw [(hst.cancelled.2 ⟨c, hcm, hcr⟩).1] at holds
      cases holds

theorem quiet_ready (d : Desk) (q : Request) (r : String) (parts : List Part) :
    Quiet d (d.ready q r parts).1 := quiet_prepare d _ _ _

theorem ready_requestId (d : Desk) (q : Request) (r : String) (parts : List Part) :
    (d.ready q r parts).2.requestId = some r := by
  cases q
  rfl

/-- A claimed request is given back, refused its execution, or enters it. Then it keeps the slot, or
it is sent again. -/
theorem Pursued.cases {q : Request} {parts : Except Mishap (List Part)} {launched ended : Desk}
    {answer : Except Mishap Response} (h : Pursued q r d parts launched last ended answer) :
    (∃ m, parts = .error m ∧ answer = .error m ∧ launched = d ∧ ended = d.turnBack (some r) m) ∨
      (∃ response : Response, answer = .ok response ∧ response.outcome = .cancelled ∧
        response.text = "" ∧ d.slot.state.isFor r = true ∧ d.Quiet launched ∧ d.Quiet ended) ∨
      ∃ ps response d₁ draft, parts = .ok ps ∧ answer = .ok response ∧
        (d.slot.state.isFor r = true → d.slot.state.cancelRequested = false) ∧
        (d₁.slot = d.slot ∧ d.slot.state.isFor r = true ∨
          d₁.slot = (Move.send (some r)).after d.slot) ∧
        Passes (fun _ _ => True) r d d₁ ∧ d₁.LeavesAlone r launched ∧
        Course r launched ⟨r, draft, .claimed⟩ last ended response := by
  cases h with
  | returned m => exact .inl ⟨m, rfl, rfl, rfl, rfl⟩
  | @executed ps _ _ _ response run =>
    have hq := quiet_ready d q r ps
    have hr := ready_requestId d q r ps
    cases run with
    | refused entry =>
      obtain ⟨rfl, _, hf, _⟩ := enter_error entry
      rw [hq.slot] at hf
      have hl := hq.trans (quiet_withSlot_self _)
      exact .inr (.inl ⟨_, rfl, rfl, rfl, hf, hl, hl.trans (quiet_cancelledBeforeStart _ r)⟩)
    | @entered d₁ _ _ _ draft _ entry others course =>
      refine .inr (.inr ⟨ps, response, d₁, draft, rfl, rfl, ?_⟩)
      rcases enter_cases hr with ⟨_, _, he⟩ | ⟨hf, hc, _, he⟩ | ⟨hc, he⟩
      · rw [he] at entry
        cases entry
      · rw [he] at entry
        cases entry
        rw [hq.slot] at hf hc
        have hp := hq.trans (quiet_withSlot_self _)
        exact ⟨fun _ => hc, .inl ⟨hp.slot, hf⟩, .of_quiet hp, others, course⟩
      · rw [he] at entry
        cases entry
        rw [hq.slot] at hc
        refine ⟨fun hf => (hc hf).1, .inr (by rw [moved_slot, hq.slot]), ?_, others, course⟩
        exact (Passes.of_quiet hq).trans (.of_move (m := .send (some r)) trivial trivial)

end Desk

def Turn.ending? : Turn → Option Ending
  | waiting _ => none
  | ended e => some e

namespace Submission

variable {r : String}

theorem claimed_slot (x : Submission r) :
    r = x.opened.slot.nextId ∧ x.claimed.slot = (Move.send none).after x.opened.slot ∧
      x.claimed.Minds r := by
  have hs := x.reach.sound Slot.sound_new
  obtain ⟨_, hid, hq⟩ := Desk.claim_allowed hs.closed x.claim
  have hp : Desk.Passes (fun _ _ => True) r x.opened x.claimed :=
    (Desk.Passes.of_move (m := .send none) trivial trivial).trans (.of_quiet hq)
  have hi : x.claimed.slot.Issued x.opened.slot.nextId :=
    hq.slot ▸ (x.reach.counted Slot.counted_new).issued_nextId
  rw [← Option.some.inj hid] at hi
  exact ⟨Option.some.inj hid, hq.slot, hp.slot.sound hs, hi, hp.labelled x.labelled,
    hp.behaves x.behaves⟩

theorem keeps_answered (x : Submission r) :
    Desk.Keeps (Slot.Others r) r x.claimed x.answered := by
  have hm := x.claimed_slot.2.2
  have hg := (Desk.conduct_considerate r).manner.gather _ x.asked x.considerate (x.waits.minds hm)
  rw [x.gathers] at hg
  exact (Desk.Keeps.of_passes x.waits).trans hg

/-- What comes of a request that is never sent again and that nobody calls the transport for. -/
theorem final_of_path {x : Submission r} (h : Slot.Path (Slot.Unsent r) x.claimed.slot x.later.slot)
    (hc : x.later.callsFor r = x.claimed.callsFor r)
    (ho : ∀ response, x.answer = .ok response →
      response.outcome = .cancelled ∧ response.text = "") : x.Final where
  outcome := ho
  uncalled _ := hc
  called := .inl hc
  released := h.cancelled.1

/-- A request that was superseded is sent again, and holds the slot once more. -/
theorem not_final_of_superseded {x : Submission r} (hc : x.CancelledBy x.answered) {t : Slot}
    (hp : Slot.Path (Slot.Others r) x.claimed.slot x.answered.slot)
    (ht : t = (Move.send (some r)).after x.answered.slot)
    (h : Slot.Path (Slot.Unsent r) t x.later.slot) : ¬ x.Final := by
  intro hf
  obtain ⟨c, hcm, hcr⟩ := hc
  subst ht
  have hs : Slot.Path (fun _ _ => True) x.claimed.slot ((Move.send (some r)).after x.answered.slot) :=
    (hp.mono fun _ _ _ => trivial).trans (.single (m := .send (some r)) trivial rfl)
  have hr := hf.released
  rw [hs.changesSince_trans h, hp.changesSince_after, List.pairwise_append] at hr
  have hh := (List.pairwise_cons.1 hr.2.1).1 c hcm hcr
  simp [PhaseState.holds, PhaseState.isFor, Move.result, PhaseState.isInFlight,
    Phase.isInFlight] at hh

/-- What comes of a request that entered its execution before it was cancelled. -/
theorem final_of_entered {x : Submission r} {d₁ : Desk} {draft : Draft} {response : Response}
    (hans : x.answer = .ok response) (hm : d₁.Minds r) (hcalls : d₁.callsFor r = x.claimed.callsFor r)
    (hbase : Slot.Path (fun _ _ => True) x.claimed.slot d₁.slot)
    (hpre : ∀ c ∈ d₁.slot.changesSince x.claimed.slot, c.cancels r = false)
    (hothers : d₁.LeavesAlone r x.launched)
    (hw : Desk.Went r draft x.launched x.last x.ended response) (h : x.CancelledBy x.later) :
    x.Final ↔ ¬ x.Faulted := by
  have hbe : x.ended.slot.Unwrapped := x.afterwards.unwrapped x.unwrapped
  have hp := hw.sentOnce hbe hothers.slot hm.issued
  have hpl := x.afterwards.slot.working.sentOnce (hp.issued hm.issued) x.unwrapped
  have hl := (hw.gaveBack hbe hothers.slot hm.issued).released
  -- the cancellation came while the execution went on
  have hcan : ∃ c ∈ x.ended.slot.changesSince d₁.slot, c.cancels r = true := by
    obtain ⟨c, hcm, hcr⟩ := h
    rw [hbase.changesSince_trans (hp.trans hpl), hp.changesSince_trans hpl, List.append_assoc,
      List.mem_append, List.mem_append] at hcm
    rcases hcm with hcm | hcm | hcm
    · simp [Change.cancels, (hpl.lost hl).2 c hcm] at hcr
    · exact ⟨c, hcm, hcr⟩
    · simp [hpre c hcm] at hcr
  have hlater : x.later.callsFor r = x.ended.callsFor r := x.afterwards.calls
  have hlaunched : x.launched.callsFor r = x.claimed.callsFor r := hothers.calls.trans hcalls
  have hfinal : response.outcome = .cancelled ∧ response.text = "" → x.Final := fun ho => by
    refine ⟨fun response' hr => ?_, fun hcl => ?_, ?_, ?_⟩
    · obtain rfl : response = response' := Except.ok.inj (hans.symm.trans hr)
      exact ho
    · obtain ⟨c, hcm, hcr⟩ := hcl
      rw [hbase.changesSince_trans hothers.slot, List.mem_append] at hcm
      have hcm' := hcm.resolve_right fun hcm => by simp [hpre c hcm] at hcr
      have hbl : x.launched.slot.Unwrapped := Nat.le_trans hw.moves.tokens_le hbe
      have hnh := (hothers.slot.working.sentOnce hm.issued hbl).cancelled.2 ⟨c, hcm', hcr⟩
      rcases hw.calls with ⟨_, hc⟩ | ⟨hh, _⟩
      · rw [hlater, hc, hlaunched]
      · rw [hnh.1] at hh
        cases hh
    · rcases hw.calls with ⟨_, hc⟩ | ⟨_, hc⟩
      · exact .inl (by rw [hlater, hc, hlaunched])
      · exact .inr ⟨draft, hlater.trans hc⟩
    · rw [hbase.changesSince_trans (hp.trans hpl), List.pairwise_append]
      refine ⟨(hp.trans hpl).cancelled.1, ?_, fun c _ c' hc' hcr => ?_⟩
      · exact List.pairwise_of_forall_mem_list fun c _ c' hc' hcr => by simp [hpre c' hc'] at hcr
      · simp [hpre c' hc'] at hcr
  rcases hw.cancelled hm.sound hbe hothers.slot hm.issued hcan with ho | ⟨hlate, error, ho⟩
  · refine iff_of_true (hfinal ho) fun hfault => ?_
    obtain ⟨_, response', error, hr, he⟩ := hfault
    obtain rfl : response = response' := Except.ok.inj (hans.symm.trans hr)
    rw [ho.1] at he
    cases he
  · refine iff_of_false (fun hf => ?_) (not_not_intro ⟨fun hcl => ?_, response, error, hans, ho⟩)
    · rw [(hf.outcome response hans).1] at ho
      cases ho
    · obtain ⟨c, hcm, hcr⟩ := hcl
      have hs := hothers.slot.working.trans (hw.reached hbe)
      rw [hbase.changesSince_trans hs, List.mem_append] at hcm
      rcases hcm with hcm | hcm
      · simp [hlate c hcm] at hcr
      · simp [hpre c hcm] at hcr

/-- A cancellation is final unless the request had been superseded before its execution began, or
came in a turn that failed. -/
theorem final_iff (x : Submission r) (h : x.CancelledBy x.later) :
    x.Final ↔ ¬ x.Superseded ∧ ¬ x.Faulted := by
  have hm := x.claimed_slot.2.2
  have hk := x.keeps_answered
  have hbe : x.ended.slot.Unwrapped := x.afterwards.unwrapped x.unwrapped
  have hlater : Slot.Path (Slot.Unsent r) x.claimed.slot x.ended.slot →
      Slot.Path (Slot.Unsent r) x.claimed.slot x.later.slot := fun hp =>
    hp.trans (x.afterwards.slot.working.sentOnce (hp.issued hm.issued) x.unwrapped)
  rcases x.pursued.cases with ⟨m, hparts, hans, _, he⟩ | ⟨response, hans, ho, ht, hf, _, hq⟩ |
    ⟨ps, response, d₁, draft, hparts, hans, hcr, hd₁, hp, hothers, hcourse⟩
  · have hback : Desk.Passes (Slot.Unsent r) r x.answered x.ended := he ▸ .turnBack fun _ => trivial
    have hpath := (hk.keeps (hback.unwrapped hbe)).slot.working.sentOnce hm.issued
      (hback.unwrapped hbe)
    have hcalls := x.afterwards.calls.trans (hback.calls.trans hk.passes.calls)
    refine iff_of_true (final_of_path (hlater (hpath.trans hback.slot)) hcalls fun _ hr => ?_)
      ⟨fun ⟨⟨_, hps⟩, _⟩ => ?_, fun ⟨_, _, _, hr, _⟩ => ?_⟩
    · rw [hans] at hr
      cases hr
    · rw [hparts] at hps
      cases hps
    · rw [hans] at hr
      cases hr
  · have hba : x.answered.slot.Unwrapped := hq.slot ▸ hbe
    have hpath := (hk.keeps hba).slot.working.sentOnce hm.issued hba
    rw [← hq.slot] at hpath
    have hcalls := x.afterwards.calls.trans ((hq.callsFor r).trans hk.passes.calls)
    refine iff_of_true (final_of_path (hlater hpath) hcalls fun response' hr => ?_)
      ⟨fun ⟨_, _, hs⟩ => ?_, fun ⟨_, response', error, hr, he⟩ => ?_⟩
    · obtain rfl : response = response' := Except.ok.inj (hans.symm.trans hr)
      exact ⟨ho, ht⟩
    · rw [hf] at hs
      cases hs
    · obtain rfl : response = response' := Except.ok.inj (hans.symm.trans hr)
      rw [ho] at he
      cases he
  · have hmd := hp.minds (hk.minds hm)
    have hw := hcourse.went (hothers.minds hmd)
    have hend := hw.sentOnce hbe hothers.slot hmd.issued
    have hbd : d₁.slot.Unwrapped := Nat.le_trans hend.tokens_le hbe
    have hpath := (hk.keeps (hp.unwrapped hbd)).slot
    by_cases hc : x.CancelledBy x.answered
    · have hgone := (hpath.working.sentOnce hm.issued (hp.unwrapped hbd)).cancelled.2 hc
      have hnf : x.answered.slot.state.isFor r = false := by
        by_contra hfor
        rw [Bool.not_eq_false] at hfor
        have := hgone.2 hfor
        rw [hcr hfor] at this
        cases this
      have hsent := hd₁.resolve_left fun h => by simp [hnf] at h
      have hl := x.afterwards.slot.working.sentOnce (hend.issued hmd.issued) x.unwrapped
      exact iff_of_false (not_final_of_superseded hc hpath hsent (hend.trans hl))
        fun hs => hs.1 ⟨⟨ps, hparts⟩, hc, hnf⟩
    · rw [final_of_entered hans hmd (hp.calls.trans hk.passes.calls)
        (hk.passes.slot.trans hp.slot) ?_ hothers hw h]
      · exact (and_iff_right fun hs => hc hs.2.1).symm
      · intro c hcm
        by_contra hcr'
        rw [Bool.not_eq_false] at hcr'
        rcases hd₁ with ⟨hs, _⟩ | hs
        · exact hc ⟨c, hs ▸ hcm, hcr'⟩
        · rw [hs, hpath.changesSince_after, List.mem_cons] at hcm
          rcases hcm with rfl | hcm
          · simp [Change.cancels, Move.result] at hcr'
          · exact hc ⟨c, hcm, hcr'⟩

/-- A claimed request that is done in its first turn is a submission. -/
theorem exists_of_turn {opened claimed : Desk} {source : String} {q : Request}
    {response : Response} (reach : Slot.Path (fun _ _ => True) {} opened.slot)
    (labelled : opened.Labelled) (behaves : opened.Behaves (Step.isConsiderate r))
    (considerate : Source.allIn (Step.isConsiderate r) q.sources = true)
    (claim : opened.claim source = (claimed, .allowed (some r)))
    (ending : (claimed.turn (.request (q.claimed (some r)) .respond)).2.ending? =
      some (.success (.response response)))
    (unwrapped : (claimed.turn (.request (q.claimed (some r)) .respond)).1.slot.Unwrapped) :
    ∃ x : Submission r, x.claimed = claimed ∧ x.answered = (gather q.sources claimed).1 ∧
      (∃ parts, x.parts = .ok parts) ∧ x.answer = .ok response ∧
      x.later = (claimed.turn (.request (q.claimed (some r)) .respond)).1 := by
  generalize ht : claimed.turn (.request (q.claimed (some r)) .respond) = t at ending unwrapped ⊢
  obtain ⟨ended, _ | e⟩ := t
  · cases ending
  obtain rfl : e = .success (.response response) := Option.some.inj ending
  have hq : (q.claimed (some r)).sources = q.sources ∧ (q.claimed (some r)).prompt = q.prompt := by
    cases q
    exact ⟨rfl, rfl⟩
  rw [Desk.turn, Desk.run, hq.1, hq.2] at ht
  generalize hg : gather q.sources claimed = g at ht ⊢
  obtain ⟨answered, m | parts⟩ := g
  · cases m <;> cases ht
  · have hp : answered.prepare (answered.draftFor (q.claimed (some r))) q.prompt parts =
        answered.ready q r parts := rfl
    have hid := Desk.ready_requestId answered q r parts
    generalize hrd : answered.ready q r parts = rd at hp hid
    obtain ⟨ready, draft⟩ := rd
    have hsent : ∃ launched last, Desk.Executes r ready draft launched last ended response := by
      rcases Desk.enter_cases (d := ready) hid with ⟨_, _, he⟩ | ⟨_, _, _, he⟩ | ⟨_, he⟩
      · simp only [hp, Desk.send, he, Desk.proceed] at ht
        cases ht
        exact ⟨_, _, .refused he⟩
      all_goals
        simp only [hp, Desk.send, he] at ht
        refine ⟨_, _, .entered he (.refl _) (.last ?_)⟩
        revert ht
        generalize Desk.execute _ _ = x
        obtain ⟨d, p⟩ := x
        cases p <;> simp [Desk.proceed]
    obtain ⟨launched, last, hsent⟩ := hsent
    exact ⟨⟨opened, claimed, claimed, answered, launched, last, ended, ended, source, q, .ok parts,
      .ok response, reach, labelled, behaves, considerate, claim, .refl _, hg, .executed (hrd ▸ hsent),
      .refl _, unwrapped⟩, rfl, rfl, ⟨parts, rfl⟩, rfl, rfl⟩

/-- A source cancels its own request and submits another one, which is in flight when the cancelled
request is sent all the same. -/
theorem superseded_not_final :
    ∃ x : Submission "req-1", x.CancelledBy x.later ∧ x.Superseded ∧
      x.answered.slot.state.holds "req-2" = true ∧ ¬ x.Final := by
  let cancel : Call := .mk "cancel" (.command (.work (.cancelCurrent "esc")))
  let submit : Call := .mk "submit" (.submit (.mk "b" [] none none ∅) "k2" "h2")
  let q : Request := .mk "a" [.mk (.mk [cancel, submit] (.ok [])) []] none none ∅
  let claimed := (({} : Desk).claim "k1").1
  let out := claimed.turn (.request (q.claimed (some "req-1")) .respond)
  let response : Response := ⟨"req-1", .ofText .assistant "Mock response" claimed.now, .completed⟩
  have claim : ({} : Desk).claim "k1" = (claimed, .allowed (some "req-1")) :=
    Prod.ext rfl (by decide +kernel)
  have ending : out.2.ending? = some (.success (.response response)) := by decide +kernel
  have labelled : ({} : Desk).Labelled := nofun
  obtain ⟨x, hclaimed, hanswered, hparts, _, hlater⟩ :=
    exists_of_turn .refl labelled ⟨nofun, nofun⟩ rfl claim ending
      (by rw [Slot.Unwrapped]; decide +kernel)
  have hc : x.CancelledBy x.later := by
    rw [CancelledBy, hclaimed, hlater]
    decide +kernel
  have hs : x.Superseded := by
    rw [Superseded, CancelledBy, hclaimed, hanswered]
    exact ⟨hparts, by decide +kernel⟩
  refine ⟨x, hc, hs, ?_, fun hf => ((x.final_iff hc).1 hf).1 hs⟩
  rw [hanswered]
  decide +kernel

/-- The transport cancels a request and fails in the same turn, which is told as a failure. -/
theorem faulted_not_final :
    ∃ (x : Submission "req-1") (response : Response), x.CancelledBy x.later ∧
      x.later.slot.state.phase = .cancelled ∧ x.answer = .ok response ∧
        response.outcome = .failed "Transport error: reset" ∧ ¬ x.Final := by
  let cancel : Call := .mk "cancel" (.command (.work (.cancelCurrent "esc")))
  let opened : Desk := { replies := [⟨[], [.calls [cancel], .fail (.transport "reset")]⟩] }
  let q : Request := .mk "a" [] none none ∅
  let claimed := (opened.claim "k").1
  let out := claimed.turn (.request (q.claimed (some "req-1")) .respond)
  let response : Response := .empty "req-1" (.failed "Transport error: reset") claimed.now
  have claim : opened.claim "k" = (claimed, .allowed (some "req-1")) :=
    Prod.ext rfl (by decide +kernel)
  have ending : out.2.ending? = some (.success (.response response)) := by decide +kernel
  have labelled : opened.Labelled := nofun
  have behaves : opened.Behaves (Step.isConsiderate "req-1") :=
    ⟨nofun, fun x hx => by rw [List.mem_singleton.1 hx]; rfl⟩
  obtain ⟨x, hclaimed, _, _, hanswer, hlater⟩ :=
    exists_of_turn .refl labelled behaves rfl claim ending
      (by rw [Slot.Unwrapped]; decide +kernel)
  refine ⟨x, response, ?_, ?_, hanswer, rfl, fun hf => ?_⟩
  · rw [CancelledBy, hclaimed, hlater]
    decide +kernel
  · rw [hlater]
    decide +kernel
  · cases (hf.outcome response hanswer).1

end Submission

end PromptDesk
