import PromptDesk.Proofs.Desk.Speech
import PromptDesk.Proofs.Desk.Turns

/-! What is said in a turn. The reply of another request is said only once that request is completed, and
then it had held the slot itself; a directive is followed by one more request, which is prepared and
sent like any other. -/
namespace PromptDesk

open Slot (Move)

/-- What is still to be sent, or was sent before. -/
def Progress.prepared : Progress → List TransportRequest
  | .waiting e => [e.call]
  | .ended _ | .panicked _ => []

def Turn.prepared : Turn → List TransportRequest
  | .waiting t => t.prepared?.toList
  | .ended _ => []

namespace Desk

variable {r id : String} {d d' : Desk} {e : Execution} {K : List TransportRequest}

/-- If the response is that of a completed request, the slot is with nobody whom it was with before. -/
def Quits (r : String) (d : Desk) (response : Response) : Prop :=
  response.isCompleted = true → d.slot.Unwrapped → d.slot.state.holds r = false

theorem Quits.of_not_completed {response : Response} (h : response.isCompleted = false) :
    Quits r d response := fun hc => by
  rw [h] at hc
  cases hc

/-- What is said before an execution ends. -/
theorem work_talks (r id : String) : Work (fun d d' => d.InUse r → Talks r d [] d' [])
    (fun d d' => d.InUse r → Talks r d [] d' []) id where
  conduct h := h
  trans h h' hd := (h hd).trans (h' ((h hd).inUse hd))
  stream ha _ := .of_move ha fun _ _ => trivial

theorem conversation_called (d : Desk) (e : Execution) : (d.called e).conversation = d.conversation := by
  have hb : (d.beginAttempt e.requestId e.draft.axes).1.conversation = d.conversation := by
    simp only [beginAttempt]
    split
    · split <;> rfl
    · rfl
  exact hb

/-- Calling the transport says nothing. What was sent counts as what was to be sent. -/
theorem talks_called (d : Desk) (e : Execution) :
    Talks r d [e.call] (d.called e) [e.call] := by
  obtain ⟨hs, hset, hr, hc, hl, l, hj, hp⟩ := called_eq d e
  have hn : l.filterMap Job.prepared? = [] :=
    List.filterMap_eq_nil_iff.2 fun j hj => Job.prepared?_of_isPlain (hp j hj)
  have hsend : (d.called e).sendings = e.call :: d.sendings := by
    rw [sendings, hc, hj, List.filterMap_append, hn, List.append_nil, sendings]
    rfl
  exact {
    inUse := fun hd => {
      sound := hs ▸ hd.sound
      issued := hs ▸ hd.issued
      labelled := hl hd.labelled
      behaves := ⟨fun w hw => hd.behaves.history w (by rwa [hset] at hw),
        fun x hx => hd.behaves.replies x (List.mem_of_mem_tail (hr ▸ hx))⟩
      threaded := by rw [hset]; exact hd.threaded }
    path := fun _ => hs ▸ .refl
    speech := fun _ _ => .of_thread (congrArg _ (conversation_called d e))
      (fun h => hs ▸ ⟨hs ▸ h, rfl⟩)
      fun c hcm => by simpa [hsend] using hcm }

theorem conversation_finish {d' : Desk} {response : Response} {id : String} {attempt : Nat}
    {outcome : ReadOutcome} (h : d.finish id attempt outcome = (d', .ended response))
    (hn : response.isCompleted = false) : d'.conversation = d.conversation := by
  cases outcome with
  | completed text =>
    simp only [finish] at h
    split at h
    · cases h
      rfl
    · split at h
      · split at h <;> cases h
        cases hn
      · cases h
        cases hn
  | cancelled text =>
    cases h
    split <;> rfl
  | failed f =>
    cases h
    rw [Desk.failOwned]
    split <;> rfl

/-- An execution that ends says nothing itself; when it is completed others may, since the slot is
free. -/
theorem talks_finish (hd : d.InUse r) (id : String) (attempt : Nat) (outcome : ReadOutcome) :
    Talks r d [] (d.finish id attempt outcome).1 [] ∧
      ∀ response, (d.finish id attempt outcome).2 = .ended response →
        Quits r (d.finish id attempt outcome).1 response := by
  have hf := finishes_finish (manner_talks r) hd.behaves id attempt outcome
  have hconv : ∀ d' response, d.finish id attempt outcome = (d', .ended response) →
      response.isCompleted = false → d'.conversation = d.conversation :=
    fun _ _ => conversation_finish
  generalize d.finish id attempt outcome = x at hf hconv ⊢
  have hmoved : d.slot.state.holds id = true → Talks r d [] (d.moved (.complete id)) [] := fun holds =>
    .of_move (m := .complete id) holds fun _ _ => trivial
  cases hf with
  | completes holds after _ =>
    have hin := (hmoved holds).inUse hd
    refine ⟨(hmoved holds).trans (after hin), ?_⟩
    rintro response ⟨⟩ _ hb
    by_contra hr
    have hr' := (((after hin).speech hin hb).hush (by simpa using hr)).1
    simp [PhaseState.holds, Move.result, PhaseState.isInFlight, Phase.isInFlight] at hr'
  | panics holds after =>
    exact ⟨(hmoved holds).trans (after ((hmoved holds).inUse hd)), by rintro _ ⟨⟩⟩
  | @fails f holds =>
    refine ⟨.of_move (m := .fail id f.message) holds fun _ _ => trivial, ?_⟩
    rintro response ⟨⟩
    exact .of_not_completed rfl
  | cancels holds after =>
    refine ⟨(Talks.of_move (m := .cancel id) holds fun _ _ => trivial).trans
      (.of_quiet after (congrArg _ (hconv _ _ rfl rfl))), ?_⟩
    rintro response ⟨⟩
    exact .of_not_completed rfl
  | faults _ =>
    refine ⟨.refl d, ?_⟩
    rintro response ⟨⟩
    exact .of_not_completed rfl
  | drops _ after _ =>
    refine ⟨.of_quiet after (congrArg _ (hconv _ _ rfl rfl)), ?_⟩
    rintro response ⟨⟩
    exact .of_not_completed rfl

theorem prepared_finish (d : Desk) (id : String) (attempt : Nat) (outcome : ReadOutcome) :
    (d.finish id attempt outcome).2.prepared = [] := by
  generalize h : d.finish id attempt outcome = x
  obtain ⟨d', e | response | message⟩ := x
  · exact (finish_ne_waiting _ _ _ _ _ _ h).elim
  · rfl
  · rfl

/-- What is said in a turn of an execution: the messages that it sends were prepared before. -/
structure Plays (r : String) (d : Desk) (e : Execution) (x : Desk × Progress) : Prop where
  talks : Talks r d [e.call] x.1 x.2.prepared
  quits : ∀ response, x.2 = .ended response → Quits r x.1 response

theorem plays_of_turned {x : Desk × Progress} (hd : d.InUse r)
    (h : Turned (Step.isCivil r) (fun d d' => d.InUse r → Talks r d [] d' []) d e x) :
    Plays r d e x := by
  cases h with
  | @waits d' e' work hid hdraft _ _ =>
    have hsame : e'.call = e.call := by rw [Execution.call, hid, hdraft, Execution.call]
    refine ⟨?_, by rintro _ ⟨⟩⟩
    rw [Progress.prepared, hsame]
    exact (work hd).beside [e.call]
  | panics work => exact ⟨(work hd).mono (by simp) (by simp [Progress.prepared]), by rintro _ ⟨⟩⟩
  | @ends d₁ attempt outcome work _ =>
    have hw := work hd
    obtain ⟨hf, hq⟩ := talks_finish (hw.inUse hd) e.requestId attempt outcome
    refine ⟨?_, hq⟩
    rw [prepared_finish]
    exact (hw.trans hf).mono (by simp) (by simp)

theorem plays_execute (hd : d.InUse r) (hb : e.stage.all (Step.isCivil r) = true) :
    Plays r d e (d.execute e) := by
  have hm := manner_talks r
  have hw := work_talks r e.requestId
  obtain ⟨id, draft, stage⟩ := e
  cases stage with
  | claimed =>
    have hlaunch : d.execute ⟨id, draft, .claimed⟩ = d.launch ⟨id, draft, .claimed⟩ := rfl
    rw [hlaunch]
    cases ht : d.slot.tokenFor? id with
    | none =>
      have hconv : (d.launch ⟨id, draft, .claimed⟩).1.conversation = d.conversation := by
        simp only [launch, ht]
        split <;> rfl
      obtain ⟨d', hl, hq⟩ := launch_of_none (e := ⟨id, draft, .claimed⟩) ht
      rw [hl] at hconv ⊢
      have hto : Talks r d [] d' [] := .of_quiet hq (congrArg _ hconv)
      refine ⟨hto.mono (by simp) (by simp [Progress.prepared]), ?_⟩
      rintro _ ⟨⟩
      exact .of_not_completed rfl
    | some token =>
      obtain ⟨stage, hs, hall, hl⟩ := launch_of_token (e := ⟨id, draft, .claimed⟩) ht hd.behaves
      have hcalled := talks_called (r := r) d ⟨id, draft, .claimed⟩
      have hrest := plays_of_turned (hcalled.inUse hd)
        (.execute hm hw (e := ⟨id, draft, stage⟩) hs hall)
      rw [hl]
      exact ⟨hcalled.trans hrest.talks, hrest.quits⟩
  | opening attempt token limit playback items => exact plays_of_turned hd (.execute hm hw rfl hb)
  | collecting attempt token limit playback => exact plays_of_turned hd (.execute hm hw rfl hb)
  | reading reader => exact plays_of_turned hd (.continueReading hm hw hb rfl)

/-- A reply is said when its request does not hold the slot any more, and neither does any other that
held it before. -/
theorem talks_conclude {response : Response} (h : Quits r d response) (destination : Destination) :
    Talks r d [] (d.conclude destination response).1 [] := by
  cases hc : response.isCompleted with
  | false =>
    rw [conclude_of_not_completed hc]
    exact .refl d
  | true =>
    have hq := quiet_conclude d destination response
    have hgrows : d.conversation.thread <+: (d.conclude destination response).1.conversation.thread := by
      simp only [conclude]
      split
      · rw [Conversation.pushReply]
        split
        · exact List.prefix_rfl
        · exact List.prefix_append _ _
      · exact List.prefix_rfl
    refine ⟨fun hd => hd.quiet hq, fun _ => hq.slot ▸ .refl, fun _ hb => ⟨hgrows, fun hr => ?_,
      fun c hcm => .inl (by rwa [hq.sendings] at hcm)⟩⟩
    rw [hq.slot] at hb hr
    rw [h hc hb] at hr
    cases hr

theorem talks_proceedToResult {p : Progress} (h : ∀ response, p = .ended response → Quits r d response)
    (destination : Destination) :
    Talks r d p.prepared (d.proceedToResult destination p).1
      (d.proceedToResult destination p).2.prepared := by
  cases p with
  | waiting e => exact .refl d
  | panicked message => exact .refl d
  | ended response => exact talks_conclude (h response rfl) destination

/-- What a run that was begun has prepared. -/
def prepared : Except Mishap (Draft × Progress) → List TransportRequest
  | .ok (_, p) => p.prepared
  | .error _ => []

theorem talks_run {q : Request} (hd : d.InUse r) (hid : q.id = some id)
    (hne : d.slot.Unwrapped → id ≠ r) (hq : q.all (Step.isCivil r) = true) :
    Talks r d [] (d.run q).1 (prepared (d.run q).2) ∧
      ∀ draft response, (d.run q).2 = .ok (draft, .ended response) →
        Quits r (d.run q).1 response := by
  have hs : Source.allIn (Step.isCivil r) q.sources = true := by
    cases q
    exact hq
  have hg := (manner_talks r).gather q.sources d hs hd
  rw [run]
  generalize gather q.sources d = g at hg ⊢
  obtain ⟨d₁, f | parts⟩ := g
  · exact ⟨hg, by rintro _ _ ⟨⟩⟩
  · have hd₁ := hg.inUse hd
    dsimp only at hg hd₁ ⊢
    generalize he : (d₁.prepare (d₁.draftFor q) q.prompt parts).1.enter
      (d₁.prepare (d₁.draftFor q) q.prompt parts).2 = x
    obtain ⟨d₂, draft, entry⟩ := x
    obtain ⟨hto, hentry, _⟩ :=
      Talks.enter hid (fun hb => hne (Nat.le_trans (hg.path hd).tokens_le hb)) he
    have hto' := hg.trans hto
    rw [send, he]
    rcases hentry with rfl | rfl
    · obtain ⟨hplays, hquits⟩ :=
        plays_execute (e := ⟨id, draft, .claimed⟩) (hto.inUse hd₁) rfl
      refine ⟨hto'.trans hplays, fun draft' response h => ?_⟩
      obtain ⟨_, hp⟩ := Prod.mk.inj (Except.ok.inj h)
      exact hquits response hp
    · refine ⟨(hto'.mono (by simp) (by simp [prepared, Progress.prepared])).trans
        (.of_quiet (quiet_cancelledBeforeStart d₂ id) rfl), fun draft' response h => ?_⟩
      obtain ⟨_, hp⟩ := Prod.mk.inj (Except.ok.inj h)
      rw [← Progress.ended.inj hp]
      exact .of_not_completed rfl

theorem talks_runLast {q : Request} (hd : d.InUse r) (hid : q.id = some id)
    (hne : d.slot.Unwrapped → id ≠ r) (hq : q.all (Step.isCivil r) = true) :
    Talks r d [] (d.runLast q).1 (d.runLast q).2.prepared := by
  obtain ⟨hto, hquits⟩ := talks_run hd hid hne hq
  rw [runLast]
  generalize d.run q = x at hto hquits ⊢
  obtain ⟨d₁, f | ⟨draft, p⟩⟩ := x
  · exact hto
  · exact hto.trans (talks_proceedToResult (fun response hp => hquits draft response (hp ▸ rfl))
      draft.destination)

theorem talks_follow {q : Request} (hd : d.InUse r) (hq : q.all (Step.isCivil r) = true)
    (result : PromptResult) :
    Talks r d [] (d.follow q true result).1 (d.follow q true result).2.prepared := by
  rw [follow]
  split
  · exact .refl d
  · split
    · exact .refl d
    · simp only [if_true]
      split
      · rename_i hc
        refine .of_quiet (claim_rejected hc) ?_
        rw [← conversation_claim d delegateSource, hc]
      · rename_i hc
        obtain ⟨hto, rfl, hne⟩ := Talks.claim hd hc
        exact hto.trans (talks_runLast (hto.inUse hd) rfl hne (Request.all_follow hq _ _ _))

theorem talks_proceed {sequel : Sequel} {p : Progress} (hd : d.InUse r)
    (h : ∀ response, p = .ended response → Quits r d response)
    (hs : sequel.all (Step.isCivil r) = true) (hg : sequel.isGated = true)
    (destination : Destination) :
    Talks r d p.prepared (d.proceed destination sequel p).1
      (d.proceed destination sequel p).2.prepared := by
  cases p with
  | waiting e => cases sequel <;> exact .refl d
  | panicked message => cases sequel <;> exact .refl d
  | ended response =>
    have hc := talks_conclude (h response rfl) destination
    cases sequel with
    | respond => exact .refl d
    | conclude => exact hc
    | delegate q gated =>
      obtain rfl : gated = true := hg
      exact hc.trans (talks_follow (hc.inUse hd) hs _)

theorem turn_of_isPlain (d : Desk) {t : Task} (h : t.isPlain = true) :
    (d.turn t).1.conversation = d.conversation ∧ (d.turn t).2.prepared = [] := by
  have hexport : d.exportCounts.1.conversation = d.conversation := by
    simp only [exportCounts]
    split <;> rfl
  cases t with
  | await handle limit =>
    rw [turn]
    split
    · exact ⟨rfl, rfl⟩
    · split <;> exact ⟨rfl, rfl⟩
  | sleep due =>
    rw [turn]
    split <;> exact ⟨rfl, rfl⟩
  | present handle quiet =>
    rw [turn]
    split
    · exact ⟨rfl, rfl⟩
    · exact ⟨rfl, rfl⟩
    · refine ⟨?_, rfl⟩
      dsimp only
      split <;> rfl
  | exports interval due =>
    simp only [turn]
    split
    · exact ⟨hexport, rfl⟩
    · split
      · exact ⟨rfl, rfl⟩
      · split
        · exact ⟨rfl, rfl⟩
        · split
          · exact ⟨hexport, rfl⟩
          · exact ⟨rfl, rfl⟩
  | request | execution | collect | read => cases h

/-- What is said in a turn of a task on another request. -/
theorem talks_turn {t : Task} {E : List String} (hd : d.InUse r) (ht : t.IsProper (Step.isCivil r) E)
    (hne : d.slot.Unwrapped → t.claim? ≠ some r) :
    Talks r d t.prepared?.toList (d.turn t).1 (d.turn t).2.prepared := by
  obtain ⟨behaves, gated, holds⟩ := ht
  by_cases hplain : t.isPlain = true
  · obtain ⟨hconv, hnone⟩ := turn_of_isPlain d hplain
    rw [hnone, Task.prepared?_of_isPlain hplain]
    exact .of_quiet (quiet_turn d hplain).1 (congrArg _ hconv)
  cases t with
  | request q sequel =>
    obtain ⟨id, hid⟩ := Option.isSome_iff_exists.1 holds
    simp only [Task.all, Bool.and_eq_true] at behaves
    obtain ⟨hto, hquits⟩ := talks_run hd hid
      (fun hb he => hne hb (hid.trans (congrArg some he))) behaves.1
    rw [turn]
    generalize d.run q = x at hto hquits ⊢
    obtain ⟨d₁, f | ⟨draft, p⟩⟩ := x
    · exact hto
    · exact hto.trans (talks_proceed (hto.inUse hd)
        (fun response hp => hquits draft response (hp ▸ rfl)) behaves.2 gated draft.destination)
  | execution e sequel =>
    simp only [Task.all, Bool.and_eq_true] at behaves
    obtain ⟨hto, hquits⟩ := plays_execute hd behaves.1
    rw [turn]
    generalize d.execute e = x at hto hquits ⊢
    obtain ⟨d₁, p⟩ := x
    exact hto.trans (talks_proceed (hto.inUse hd) hquits behaves.2 gated e.draft.destination)
  | collect limit playback | read reader => exact holds.elim
  | await | sleep | present | exports => exact absurd rfl hplain

theorem talks_settle (d : Desk) (j : Job) (e : Ending) : Talks r d [] (d.settle j e) [] := by
  have hend : ∀ (d' : Desk) i report, Talks r d' [] (d'.resolve i report) [] := fun d' i report => by
    refine .of_quiet (quiet_resolve d' i report) ?_
    rw [resolve]
    split <;> rfl
  unfold settle
  split
  · rename_i f id _
    have hf := Talks.failOwned (r := r) (d := d) (K := []) id f
    dsimp only
    split
    · exact hf.trans (hend _ _ _)
    · exact hf
  · dsimp only
    split
    · exact hend _ _ _
    · exact .refl d

/-- A job comes to do something else. -/
theorem talks_setJob (d : Desk) (i : Nat) (j : Job) :
    Talks r d j.prepared?.toList { d with jobs := d.jobs.set i j } [] where
  inUse hd := ⟨hd.sound, hd.issued, hd.labelled, ⟨hd.behaves.history, hd.behaves.replies⟩, hd.threaded⟩
  path _ := .refl
  speech _ _ := .of_thread rfl (fun h => ⟨h, rfl⟩) fun c hc => by
    simp only [List.nil_append, sendings, calls, List.mem_append, List.mem_filterMap] at hc ⊢
    rcases hc with hc | ⟨k, hk, hkc⟩
    · exact .inr (.inl hc)
    · rcases List.mem_or_eq_of_mem_set hk with hk | rfl
      · exact .inr (.inr ⟨k, hk, hkc⟩)
      · exact .inl (by simp [hkc])

/-- A job has its turn, and what it is to send is at hand. -/
theorem talks_takeJob {i : Nat} {t : Task} (ht : (d.job i).task = some t) :
    Talks r d [] { d with jobs := d.jobs.set i { d.job i with task := none } } t.prepared?.toList where
  inUse := (talks_setJob d i _).inUse
  path := (talks_setJob d i _).path
  speech hd hb := by
    have h := (talks_setJob (r := r) d i { d.job i with task := none }).speech hd hb
    refine .of_thread rfl (fun h => ⟨h, rfl⟩) fun c hc => ?_
    rcases List.mem_append.1 hc with hc | hc
    · refine List.mem_append_right _ (List.mem_append_right _ (List.mem_filterMap.2 ?_))
      refine ⟨d.job i, List.mem_of_getElem? (getElem?_of_task ht), ?_⟩
      rwa [Job.prepared?_of_task ht, ← Option.mem_toList]
    · exact (h.heeds c hc).resolve_right fun hlt => absurd hlt.2 (Nat.lt_irrefl _)

/-- What is said in a turn of a job on another request. -/
theorem talks_turnOfJob {E : List String} (hd : d.InUse r) (i : Nat)
    (hj : ∀ j ∈ d.jobs, j.IsProper (Step.isCivil r) E)
    (hne : d.slot.Unwrapped → r ∉ d.claimed) : Talks r d [] (d.turnOfJob i) [] := by
  rw [turnOfJob]
  cases ht : (d.job i).task with
  | none => exact .refl d
  | some t =>
    have hmem : d.job i ∈ d.jobs := List.mem_of_getElem? (getElem?_of_task ht)
    have hclaim : d.slot.Unwrapped → t.claim? ≠ some r := fun hb hcl => hne hb <|
      List.mem_flatMap.2 ⟨d.job i, hmem, by simp [Job.claim?_of_task ht, hcl]⟩
    have htake := talks_takeJob (r := r) ht
    have hturn := htake.trans (talks_turn (htake.inUse hd) ((hj _ hmem).task t ht) hclaim)
    dsimp only
    generalize Desk.turn _ t = out at hturn ⊢
    obtain ⟨d₁, t' | e⟩ := out
    · have hput := hturn.trans (talks_setJob d₁ i { d.job i with task := some t' })
      dsimp only
      split <;> exact hput.trans (.of_quiet (.of_eq rfl rfl rfl rfl rfl rfl) rfl)
    · have hwait : Talks r d₁ [] (d₁.await i []) [] := .of_quiet (.of_eq rfl rfl rfl rfl rfl rfl) rfl
      exact (hturn.trans hwait).trans (talks_settle _ (d.job i) e)

end Desk

end PromptDesk
