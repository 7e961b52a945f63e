import PromptDesk.Proofs.Desk.Indoors
import PromptDesk.Proofs.Desk.Returned
import PromptDesk.Proofs.Slot.History

/-! Submissions that follow directives. A submission is the run of its request and, where the result
of that asks for it and the slot is free, the run of one more request in the same turn. Either run
calls the transport once at most, and the second one is never followed by a third. -/
namespace PromptDesk

namespace Desk

/-- The calls that were made since an earlier moment, the latest first. -/
def callsSince (d' d : Desk) : List TransportRequest :=
  d'.calls.take (d'.calls.length - d.calls.length)

variable {d d' d'' : Desk} {made made' : List TransportRequest}

theorem callsSince_eq (h : d'.calls = made ++ d.calls) : d'.callsSince d = made := by
  simp [callsSince, h]

theorem callsSince_of_eq (h : d'.calls = d.calls) : d'.callsSince d = [] := callsSince_eq h

/-- Calls are only added. -/
theorem suffix_of_calls (h : d'.calls = d.calls ∨ ∃ c, d'.calls = c :: d.calls) :
    d.calls <:+ d'.calls := by
  rcases h with h | ⟨c, h⟩
  · rw [h]
  · rw [h]
    exact List.suffix_cons c _

theorem callsSince_trans (h : d.calls <:+ d'.calls) (h' : d'.calls <:+ d''.calls) :
    d''.callsSince d = d''.callsSince d' ++ d'.callsSince d := by
  obtain ⟨made, h⟩ := h
  obtain ⟨made', h'⟩ := h'
  rw [callsSince_eq h.symm, callsSince_eq h'.symm]
  exact callsSince_eq (by rw [← h', ← h, List.append_assoc])

end Desk

/-- What a task has come to by its turns so far, with the calls that were made in these turns. The
first turn was had at a given desk; between any two turns everything may have happened. -/
inductive Task.Had (t : Task) (first : Desk) : List TransportRequest → Desk → Turn → Prop
  | once {d : Desk} {out : Turn} (turn : first.turn t = (d, out)) :
      Had t first (d.callsSince first) d out
  | again {made : List TransportRequest} {d d₁ d₂ : Desk} {t' : Task} {out : Turn}
      (past : Had t first made d (.waiting t')) (turn : d₁.turn t' = (d₂, out)) :
      Had t first (d₂.callsSince d₁ ++ made) d₂ out

/-- Sources give what their next visits come to, whatever is done meanwhile. -/
theorem answers_of_gather {ss : List Source} (d : Desk) : (gather ss d).2 = Source.answers ss := by
  induction ss generalizing d with
  | nil => rfl
  | cons s ss ih =>
    rw [gather_cons, Source.answers]
    cases s.content with
    | error m => rfl
    | ok parts => exact congrArg (Except.map (parts ++ ·)) (ih _)

namespace Request

/-- The task of a request that nothing follows. -/
def alone (q : Request) : Task := .request q .conclude

/-- What the run of a request under an id has done so far: it called the transport once at most, with
the prompt and what the sources gave in the last message, and its result is of the same request and
for the destination that was asked for. -/
structure Ran (q : Request) (id : String) (made : List TransportRequest) (out : Turn) : Prop where
  once : made.length ≤ 1
  sent : ∀ c ∈ made, c.requestId = id ∧ ∃ context parts now, Source.answers q.sources = .ok parts ∧
    c.messages = context ++ [.user q.prompt parts now]
  result : ∀ result, out = .ended (.success (.result result)) →
    result.requestId = id ∧ ∀ destination, q.destination = some destination →
      result.destination = destination

/-- An execution that carries on with a request. -/
structure CarriedBy (q : Request) (id : String) (e : Execution) : Prop where
  requestId : e.requestId = id
  destination : ∀ destination, q.destination = some destination → e.draft.destination = destination

variable {q : Request} {id : String} {d d' first last : Desk} {made : List TransportRequest} {out : Turn}

/-- A draft that was begun is sent as it is, with one call at most. -/
theorem send_cases {draft : Draft} (hid : draft.requestId = some id) (hb : draft.begun = true)
    (d : Desk) : ∃ d' p, d.send draft = (d', draft, p) ∧
      (d'.calls = d.calls ∨ d'.calls = ⟨id, draft.messages⟩ :: d.calls) ∧
      p.GoesOn ⟨id, draft, .claimed⟩ := by
  have hbegin : draft.begin false = draft := by
    obtain ⟨⟩ := draft
    obtain rfl := hb
    rfl
  have hself : { draft with requestId := some id } = draft := by
    rw [← hid]
  have hexec : ∀ d₁ : Desk, d₁.calls = d.calls →
      ((d₁.execute ⟨id, draft, .claimed⟩).1.calls = d.calls ∨
        (d₁.execute ⟨id, draft, .claimed⟩).1.calls = ⟨id, draft.messages⟩ :: d.calls) ∧
      (d₁.execute ⟨id, draft, .claimed⟩).2.GoesOn ⟨id, draft, .claimed⟩ := fun d₁ hcalls => by
    have hs := Desk.sends_execute d₁ ⟨id, draft, .claimed⟩
    rw [← hcalls]
    exact ⟨hs.calls, hs.goesOn⟩
  rcases Desk.enter_cases (d := d) hid with ⟨_, _, he⟩ | ⟨_, _, _, he⟩ | ⟨_, he⟩
  · simp only [Desk.send, he, hbegin]
    exact ⟨_, _, rfl, .inl (Desk.quiet_cancelledBeforeStart _ _).calls,
      Response.answers_cancelled _ _⟩
  · simp only [Desk.send, he, hbegin, hself]
    exact ⟨_, _, rfl, hexec _ rfl⟩
  · simp only [Desk.send, he, hbegin, hself]
    exact ⟨_, _, rfl, hexec _ rfl⟩

/-- The run of a request comes to nothing with its sources, or it sends a draft that holds the prompt and what
the sources gave. -/
theorem run_cases (hid : q.id = some id) (d : Desk) :
    (∃ d' m, d.run q = (d', .error m) ∧ d'.calls = d.calls) ∨
      ∃ d' draft p, d.run q = (d', .ok (draft, p)) ∧
        (d'.calls = d.calls ∨ d'.calls = ⟨id, draft.messages⟩ :: d.calls) ∧
        (∃ context parts now, Source.answers q.sources = .ok parts ∧
          draft.messages = context ++ [.user q.prompt parts now]) ∧
        q.CarriedBy id ⟨id, draft, .claimed⟩ ∧ p.GoesOn ⟨id, draft, .claimed⟩ := by
  have hin := indoors_gather q.sources d
  rw [Desk.run]
  cases hg : gather q.sources d with
  | mk d₁ parts =>
    rw [hg] at hin
    cases parts with
    | error m => exact .inl ⟨d₁, m, rfl, hin.calls⟩
    | ok parts =>
      have hprep := Desk.quiet_prepare d₁ (d₁.draftFor q) q.prompt parts
      have hreq : (d₁.prepare (d₁.draftFor q) q.prompt parts).2.requestId = some id := hid
      obtain ⟨d₂, p, hsend, hcalls, hgoes⟩ :=
        send_cases hreq rfl (d₁.prepare (d₁.draftFor q) q.prompt parts).1
      refine .inr ⟨d₂, _, p, by simp only [hsend], ?_, ?_, ⟨rfl, ?_⟩, hgoes⟩
      · rwa [hprep.calls, hin.calls] at hcalls
      · exact ⟨_, parts, d₁.now, by rw [← answers_of_gather d, hg], rfl⟩
      · intro destination hd
        change q.destination.getD _ = destination
        rw [hd]
        rfl

/-- What a turn of the run of a request comes to. -/
structure Yields (q : Request) (id : String) (out : Turn) : Prop where
  result : ∀ result, out = .ended (.success (.result result)) →
    result.requestId = id ∧ ∀ destination, q.destination = some destination →
      result.destination = destination
  waits : ∀ t, out = .waiting t →
    ∃ e, t = .execution e .conclude ∧ q.CarriedBy id e ∧ e.stage ≠ .claimed

theorem CarriedBy.yields {e : Execution} {p : Progress} (h : q.CarriedBy id e) (hp : p.GoesOn e)
    (d : Desk) : (d.proceed e.draft.destination .conclude p).1.calls = d.calls ∧
      q.Yields id (d.proceed e.draft.destination .conclude p).2 := by
  cases p with
  | waiting e' =>
    obtain ⟨hid, hdraft, hstage⟩ := hp
    simp only [Desk.proceed]
    refine ⟨trivial, by rintro _ ⟨⟩, ?_⟩
    rintro _ ⟨⟩
    exact ⟨e', rfl, ⟨hid.trans h.requestId, hdraft ▸ h.destination⟩, hstage⟩
  | panicked message =>
    simp only [Desk.proceed]
    exact ⟨trivial, by rintro _ ⟨⟩, by rintro _ ⟨⟩⟩
  | ended response =>
    simp only [Desk.proceed, Desk.proceedToResult]
    refine ⟨(Desk.quiet_conclude d e.draft.destination response).calls, ?_, by rintro _ ⟨⟩⟩
    rintro _ ⟨⟩
    exact ⟨hp.requestId.trans h.requestId, h.destination⟩

/-- The first turn of a run calls the transport once at most, with the draft of the request. -/
theorem turn_alone (hid : q.id = some id) (d : Desk) : q.Yields id (d.turn q.alone).2 ∧
    ((d.turn q.alone).1.calls = d.calls ∨ ∃ c, (d.turn q.alone).1.calls = c :: d.calls ∧
      c.requestId = id ∧ ∃ context parts now, Source.answers q.sources = .ok parts ∧
        c.messages = context ++ [.user q.prompt parts now]) := by
  rw [alone, Desk.turn]
  rcases run_cases hid d with ⟨d', m, hrun, hcalls⟩ | ⟨d', draft, p, hrun, hcalls, hsent, hc, hp⟩
  · simp only [hrun]
    refine ⟨⟨?_, by rintro _ ⟨⟩⟩, .inl hcalls⟩
    cases m <;> rintro _ ⟨⟩
  · obtain ⟨hsame, hyields⟩ := hc.yields hp d'
    simp only [hrun]
    refine ⟨hyields, ?_⟩
    rw [hsame]
    exact hcalls.imp_right fun h => ⟨_, h, rfl, hsent⟩

/-- No later turn of a run calls the transport. -/
theorem CarriedBy.turn {e : Execution} (h : q.CarriedBy id e) (hs : e.stage ≠ .claimed) (d : Desk) :
    (d.turn (.execution e .conclude)).1.calls = d.calls ∧
      q.Yields id (d.turn (.execution e .conclude)).2 := by
  have hr := Desk.replies_execute d hs
  obtain ⟨hsame, hyields⟩ := h.yields hr.goesOn (d.execute e).1
  exact ⟨hsame.trans hr.indoors.calls, hyields⟩

theorem ran_of_had (hid : q.id = some id) (had : q.alone.Had first made last out) :
    q.Ran id made out ∧ q.Yields id out := by
  induction had with
  | @once d out turn =>
    obtain ⟨hyields, hcalls⟩ := turn_alone hid first
    rw [turn] at hyields hcalls
    refine ⟨?_, hyields⟩
    rcases hcalls with hcalls | ⟨c, hcalls, hsent⟩
    · rw [Desk.callsSince_of_eq hcalls]
      exact ⟨by simp, by simp, hyields.result⟩
    · have hsince : d.callsSince first = [c] := Desk.callsSince_eq hcalls
      rw [hsince]
      refine ⟨by simp, fun c' hc' => ?_, hyields.result⟩
      rw [List.mem_singleton.1 hc']
      exact hsent
  | @again made d d₁ d₂ t' out _ turn ih =>
    obtain ⟨e, rfl, hcarried, hstage⟩ := ih.2.waits t' rfl
    obtain ⟨hcalls, hyields⟩ := hcarried.turn hstage d₁
    rw [turn] at hcalls hyields
    rw [Desk.callsSince_of_eq hcalls]
    exact ⟨⟨ih.1.once, ih.1.sent, hyields.result⟩, hyields⟩

/-- Why the result of a request stands: it was not completed, it asks for nothing, or the slot was
taken meanwhile; then the slot is left as it is. -/
inductive Stands (d : Desk) : Ending → Desk → Prop
  | undone {e : Ending} (undone : ∀ result, e = .success (.result result) →
      result.isCompleted = false) : Stands d e d
  | plain {result : PromptResult} (completed : result.isCompleted = true)
      (asks : Directive.ofResponse? result.text = none) : Stands d (.success (.result result)) d
  | refused {result : PromptResult} {directive : Directive} {last : Desk} {reason : DropReason}
      {message : String} (completed : result.isCompleted = true)
      (asks : Directive.ofResponse? result.text = some directive)
      (claim : d.claim Desk.delegateSource = (last, .rejected reason message))
      (slot : last.slot = d.slot) : Stands d (.success (.result result)) last

/-- How far a submission has come that took the slot under an id and follows directives. -/
inductive Hops (q : Request) (r : String) (claimed first : Desk) :
    List TransportRequest → Desk → Turn → Prop
  /-- The request is being executed. -/
  | underway {made : List TransportRequest} {last : Desk} {e : Execution}
      (run : (q.claimed (some r)).alone.Had first made last (.waiting (.execution e .conclude)))
      (ran : (q.claimed (some r)).Ran r made (.waiting (.execution e .conclude))) :
      Hops q r claimed first made last
        (.waiting (.execution e (.delegate (q.claimed (some r)) true)))
  /-- The run of the request is all there is. -/
  | stands {made : List TransportRequest} {d last : Desk} {e : Ending}
      (run : (q.claimed (some r)).alone.Had first made d (.ended e))
      (ran : (q.claimed (some r)).Ran r made (.ended e))
      (why : Stands d e last) : Hops q r claimed first made last (.ended e)
  /-- The run of the request was followed by that of another one under a fresh id. -/
  | hop {made made' : List TransportRequest} {d hop last : Desk} {result : PromptResult}
      {directive : Directive} {id : String} {out : Turn}
      (run : (q.claimed (some r)).alone.Had first made d (.ended (.success (.result result))))
      (ran : (q.claimed (some r)).Ran r made (.ended (.success (.result result))))
      (completed : result.isCompleted = true)
      (asks : Directive.ofResponse? result.text = some directive)
      (claim : d.claim Desk.delegateSource = (hop, .allowed (some id)))
      (fresh : ∀ n, n + 1 < 2 ^ 64 → d.slot.issued = claimed.slot.issued + .ofNat n → id ≠ r)
      (run' : (q.follow directive.prompt (directive.destinationOr result.destination)
        (some id)).alone.Had hop made' last out)
      (ran' : (q.follow directive.prompt (directive.destinationOr result.destination)
        (some id)).Ran id made' out) : Hops q r claimed first (made' ++ made) last out

/-- A submission took the slot, and directives are followed. Its task goes into the background, or a
visitor waits for it. -/
inductive Admitted (q : Request) (r : String) (claimed : Desk) : Task → Prop
  | background {d : Desk} {source under : String} {j : Job} {t : Task}
      (claim : d.claim source = (claimed, .allowed (some r)))
      (delegates : claimed.setup.delegates = true)
      (job : ((Step.submit q source under).perform d).1.jobs = claimed.jobs ++ [j])
      (task : j.task = some t) : Admitted q r claimed t
  | visitor {d : Desk} {source : String} {t : Task}
      (claim : d.claim source = (claimed, .allowed (some r)))
      (delegates : claimed.setup.delegates = true)
      (task : (Lobby.guest claimed q (some r)).task = some t) : Admitted q r claimed t

theorem runLast_eq (d : Desk) (q : Request) : d.runLast q = d.turn q.alone := by
  rw [Desk.runLast, alone, Desk.turn]
  cases d.run q with
  | mk d₁ out =>
    cases out with
    | error f => rfl
    | ok x =>
      obtain ⟨draft, p⟩ := x
      cases p <;> rfl

theorem follow_claimed (q : Request) (r : Option String) : (q.claimed r).follow = q.follow := by
  cases q
  rfl

/-- A claim issues the next id. -/
theorem claim_issues {source : String} (h : d.claim source = (d', .allowed (some id))) :
    id = Slot.idText (d.slot.issued + 1) ∧ d'.slot.issued = d.slot.issued + 1 := by
  rcases d.claim_cases source with ⟨_, ha, hs⟩ | ⟨_, _, _, ha⟩
  · rw [h] at ha hs
    exact ⟨Option.some.inj (Admission.allowed.inj ha), congrArg Slot.issued hs⟩
  · rw [h] at ha
    cases ha

/-- An id that is claimed differs from one that was claimed before. -/
theorem claim_fresh {source source' r : String} {hop d₀ claimed : Desk}
    (before : d₀.claim source = (claimed, .allowed (some r)))
    (claim : d.claim source' = (hop, .allowed (some id))) {n : Nat} (hn : n + 1 < 2 ^ 64)
    (issued : d.slot.issued = claimed.slot.issued + .ofNat n) : id ≠ r := by
  obtain ⟨rfl, hr⟩ := claim_issues before
  obtain ⟨rfl, _⟩ := claim_issues claim
  intro he
  have hcount : claimed.slot.issued + .ofNat (n + 1) = claimed.slot.issued + 0 := by
    rw [UInt64.add_zero, UInt64.ofNat_add, ← UInt64.add_assoc, ← issued, hr]
    exact Slot.idText_injective he
  have hzero := congrArg UInt64.toNat ((UInt64.add_right_inj _).1 hcount)
  rw [UInt64.toNat_ofNat_of_lt' hn] at hzero
  cases hzero

variable {r : String} {claimed d₀ : Desk} {source : String}

/-- What follows from the result of the run. -/
theorem follow_hops {result : PromptResult} {mid : Desk}
    (before : d₀.claim source = (claimed, .allowed (some r)))
    (run : (q.claimed (some r)).alone.Had first made mid (.ended (.success (.result result)))) :
    let out := mid.follow (q.claimed (some r)) true result
    mid.calls <:+ out.1.calls ∧
      q.Hops r claimed first (out.1.callsSince mid ++ made) out.1 out.2 := by
  have hid : (q.claimed (some r)).id = some r := by cases q; rfl
  have ran := (ran_of_had hid run).1
  have hstands : ∀ {last : Desk}, last.calls = mid.calls →
      Stands mid (.success (.result result)) last →
      mid.calls <:+ last.calls ∧ q.Hops r claimed first (last.callsSince mid ++ made) last
        (.ended (.success (.result result))) := fun hcalls hstand => by
    rw [Desk.callsSince_of_eq hcalls, hcalls]
    exact ⟨List.suffix_rfl, .stands run ran hstand⟩
  rw [Desk.follow, follow_claimed]
  dsimp only
  cases hdone : result.isCompleted with
  | false =>
    refine hstands rfl (.undone ?_)
    rintro _ ⟨⟩
    exact hdone
  | true =>
    cases hasks : Directive.ofResponse? result.text with
    | none => exact hstands rfl (.plain hdone hasks)
    | some directive =>
      cases hclaim : mid.claim Desk.delegateSource with
      | mk hop admission =>
        have hcalls : hop.calls = mid.calls := by
          have h := (mid.indoors_claim Desk.delegateSource).calls
          rwa [hclaim] at h
        cases admission with
        | rejected reason message =>
          simp only [if_true]
          exact hstands hcalls (.refused hdone hasks hclaim (Desk.claim_rejected hclaim).slot)
        | allowed id? =>
          obtain ⟨id, rfl, _⟩ := Desk.claim_holds hclaim
          simp only [if_true, Bool.not_true, Bool.false_eq_true, if_false, runLast_eq]
          let next := q.follow directive.prompt (directive.destinationOr result.destination) (some id)
          have hfirst : hop.calls <:+ (hop.turn next.alone).1.calls :=
            Desk.suffix_of_calls
              ((turn_alone (show next.id = some id from rfl) hop).2.imp_right
                (Exists.imp fun _ h => h.1))
          have run' : next.alone.Had hop _ _ (hop.turn next.alone).2 := .once rfl
          rw [hcalls] at hfirst
          have hsince : (hop.turn next.alone).1.callsSince hop =
              (hop.turn next.alone).1.callsSince mid := by
            rw [Desk.callsSince, hcalls, Desk.callsSince]
          refine ⟨hfirst, ?_⟩
          rw [← hsince]
          exact .hop run ran hdone hasks hclaim (fun n hn hi => claim_fresh before hclaim hn hi) run'
            (ran_of_had rfl run').1

/-- What follows from a turn of the first execution. -/
theorem proceed_hops (made : List TransportRequest) {start d₁ : Desk} {destination : Destination}
    {p : Progress} (before : d₀.claim source = (claimed, .allowed (some r)))
    (grows : start.calls <:+ d₁.calls)
    (run : ∀ out, d₁.proceed destination .conclude p = out →
      (q.claimed (some r)).alone.Had first (out.1.callsSince start ++ made) out.1 out.2) :
    ∀ out, d₁.proceed destination (.delegate (q.claimed (some r)) true) p = out →
      q.Hops r claimed first (out.1.callsSince start ++ made) out.1 out.2 := by
  have hid : (q.claimed (some r)).id = some r := by cases q; rfl
  rintro _ rfl
  have run := run _ rfl
  cases p with
  | waiting e => exact .underway run (ran_of_had hid run).1
  | panicked message =>
    exact .stands run (ran_of_had hid run).1 (.undone (by rintro _ ⟨⟩))
  | ended response =>
    simp only [Desk.proceed, Desk.proceedToResult] at run ⊢
    have hmid : start.calls <:+ (d₁.conclude destination response).1.calls := by
      rwa [(Desk.quiet_conclude d₁ destination response).calls]
    obtain ⟨hgrows, hops⟩ := follow_hops before run
    rwa [Desk.callsSince_trans hmid hgrows, List.append_assoc]

/-- A submission that follows directives has come that far by its turns. -/
theorem hops_of_had (before : d₀.claim source = (claimed, .allowed (some r)))
    (had : (q.submitted r true).Had first made last out) : q.Hops r claimed first made last out := by
  have hid : (q.claimed (some r)).id = some r := by cases q; rfl
  induction had with
  | @once d out turn =>
    rw [submitted, if_pos rfl, Desk.turn] at turn
    have run : (q.claimed (some r)).alone.Had first _ _ (first.turn (q.claimed (some r)).alone).2 :=
      .once rfl
    rw [alone, Desk.turn] at run
    rcases run_cases hid first with ⟨d', m, hrun, hcalls⟩ | ⟨d', draft, p, hrun, hcalls, _⟩
    · simp only [hrun] at run turn
      cases turn
      refine .stands run (ran_of_had hid run).1 (.undone ?_)
      cases m <;> rintro _ ⟨⟩
    · simp only [hrun] at run turn
      have hgrows : first.calls <:+ d'.calls := Desk.suffix_of_calls (hcalls.imp_right fun h => ⟨_, h⟩)
      have h := proceed_hops [] before hgrows (by
        rintro _ rfl
        rwa [List.append_nil]) _ turn
      rwa [List.append_nil] at h
  | @again made d d₁ d₂ t' out past turn ih =>
    generalize hw : Turn.waiting t' = waiting at ih
    cases ih with
    | @underway _ _ e run ran =>
      cases hw
      rw [Desk.turn] at turn
      obtain ⟨e', he, _, hstage⟩ := (ran_of_had hid run).2.waits _ rfl
      cases he
      have hcalls := (Desk.replies_execute d₁ hstage).indoors.calls
      refine proceed_hops made before (hcalls ▸ List.suffix_rfl) ?_ _ turn
      rintro _ rfl
      exact .again run rfl
    | stands => cases hw
    | @hop made₁ made₂ mid hop last result directive id out' run ran completed asks claim fresh run'
        ran' =>
      subst hw
      have run'' := Task.Had.again run' turn
      rw [← List.append_assoc]
      exact .hop run ran completed asks claim fresh run'' (ran_of_had rfl run'').1

theorem Admitted.task_eq {t : Task} (h : q.Admitted r claimed t) : t = q.submitted r true := by
  cases h with
  | @background d source under j t claim delegates job task =>
    obtain ⟨prompt, sources, destination, id, axes⟩ := q
    simp only [Step.perform, claim, delegates, if_true] at job
    obtain rfl := List.singleton_inj.1 (List.append_cancel_left job)
    exact (Option.some.inj task).symm
  | @visitor d source t claim delegates task =>
    rw [Lobby.guest, delegates, if_pos rfl] at task
    exact (Option.some.inj task).symm

theorem Admitted.claim {t : Task} (h : q.Admitted r claimed t) :
    ∃ d source, Desk.claim d source = (claimed, .allowed (some r)) := by
  cases h with
  | background claim => exact ⟨_, _, claim⟩
  | visitor claim => exact ⟨_, _, claim⟩

/-- However the turns of a submission come between those of others, and whatever the others do, it
calls the transport twice at most. It is the run of its request, the result of which is its own, or it
goes on with one more run: that of the request which a directive in a completed result asks for, once
the slot was claimed again. Then the result of that run is its own, and a directive in it is not
followed. -/
theorem Admitted.at_most_one_hop {t : Task} (h : q.Admitted r claimed t)
    (had : t.Had first made last out) : q.Hops r claimed first made last out ∧ made.length ≤ 2 := by
  obtain ⟨d₀, source, before⟩ := h.claim
  rw [h.task_eq] at had
  have hops := hops_of_had before had
  refine ⟨hops, ?_⟩
  cases hops with
  | underway _ ran => exact Nat.le_succ_of_le ran.once
  | stands _ ran _ => exact Nat.le_succ_of_le ran.once
  | hop _ ran _ _ _ _ _ ran' =>
    rw [List.length_append]
    exact Nat.add_le_add ran'.once ran.once

/-- Waiting for a task is having its turns, others having theirs in between. -/
theorem had_of_finishTask {fuel : Nat} {t t' : Task} {e : Ending}
    (next : ∀ d' out, d.turn t' = (d', out) → ∃ made, t.Had first made d' out)
    (h : Desk.finishTask fuel t' d = (last, some e)) : ∃ made, t.Had first made last (.ended e) := by
  induction fuel generalizing t' d with
  | zero => cases h
  | succ fuel ih =>
    rw [Desk.finishTask] at h
    cases ht : d.turn t' with
    | mk d₁ out =>
      obtain ⟨made, had⟩ := next d₁ out ht
      rw [ht] at h
      cases out with
      | ended e' =>
        cases h
        exact ⟨made, had⟩
      | waiting t₁ =>
        dsimp only at h
        split at h
        · exact ih (fun _ _ ht' => ⟨_, had.again ht'⟩) h
        · cases h

/-- What a visitor waits for who submits a request has come that far, too. -/
theorem submit_hops {e : Ending} (claim : d.claim source = (claimed, .allowed (some r)))
    (waits : claimed.waitForTask (q.submitted r true) = (last, some e)) :
    ∃ made, q.Hops r claimed claimed made last (.ended e) := by
  obtain ⟨made, had⟩ := had_of_finishTask (fun _ _ ht => ⟨_, .once ht⟩) waits
  exact ⟨made, hops_of_had claim had⟩

theorem turn_of_finishTask {t : Task} {e : Ending} (h : Desk.finishTask 1 t d = (last, some e)) :
    d.turn t = (last, .ended e) := by
  rw [Desk.finishTask] at h
  cases ht : d.turn t with
  | mk d₁ out =>
    rw [ht] at h
    cases out with
    | ended e' =>
      cases h
      rfl
    | waiting t₁ =>
      dsimp only at h
      split at h <;> cases h

theorem waitForTask_of_turn {t : Task} {e : Ending} (h : d.turn t = (last, .ended e)) :
    d.waitForTask t = (last, some e) := by
  have hlimit : Desk.turnLimit = (2 ^ 40 - 1) + 1 := rfl
  rw [Desk.waitForTask, hlimit, Desk.finishTask, h]

/-- What a visitor is answered who submits a request and waits for it. -/
theorem submit_eq {e : Ending} (claim : d.claim source = (claimed, .allowed (some r)))
    (waits : claimed.waitForTask (q.submitted r claimed.setup.delegates) = (last, some e))
    (fine : ∀ f, e ≠ .failure f) :
    d.submit q source = (last, Desk.answerTo .completed (some e)) := by
  rw [submitted] at waits
  simp only [Desk.submit, claim, waits]
  cases e with
  | failure f => exact absurd rfl (fine f)
  | success p | panic message => rfl

/-- A directive is followed once; that the response to it is a directive, too, changes nothing. -/
theorem at_most_one_hop_nested :
    let asks (prompt : String) : Item :=
      .chunk ("\x7b\"action\":\"delegate\",\"prompt\":\"" ++ prompt ++ "\"\x7d")
    let q : Request := .mk "a" [.mk (.mk [] (.ok [.text "x"])) []] none none ∅
    let opened := Desk.opened { delegates := true } [⟨[], [asks "b"]⟩, ⟨[], [asks "c"]⟩] true
    let claimed := (opened.claim "k1").1
    ∃ made last result, (opened.submit q "k1") = (last, .completed result) ∧
      (q.submitted "req-1" true).Had claimed made last (.ended (.success (.result result))) ∧
      q.Hops "req-1" claimed claimed made last (.ended (.success (.result result))) ∧
      made.map (fun c => (c.requestId, c.messages.map Message.text)) =
        [("req-2", ["bx"]), ("req-1", ["ax"])] ∧
      result.requestId = "req-2" ∧ (Directive.ofResponse? result.text).isSome = true := by
  intro asks q opened claimed
  have claim : opened.claim "k1" = (claimed, .allowed (some "req-1")) :=
    Prod.ext rfl (by decide +kernel)
  have delegates : claimed.setup.delegates = true := by decide +kernel
  let result : PromptResult :=
    ⟨"req-2", [.ofText .assistant "\x7b\"action\":\"delegate\",\"prompt\":\"c\"\x7d" (.ofMillis 0)],
      .completed, .default⟩
  let last := (Desk.finishTask 1 (q.submitted "req-1" true) claimed).1
  have turn : claimed.turn (q.submitted "req-1" true) =
      (last, .ended (.success (.result result))) :=
    turn_of_finishTask (Prod.ext rfl (by decide +kernel))
  have waits : claimed.waitForTask (q.submitted "req-1" claimed.setup.delegates) =
      (last, some (.success (.result result))) := by
    rw [delegates]
    exact waitForTask_of_turn turn
  have answer := submit_eq claim waits (by rintro _ ⟨⟩)
  have admitted : q.Admitted "req-1" claimed (q.submitted "req-1" true) :=
    .visitor claim delegates (by rw [Lobby.guest, delegates]; rfl)
  have had : (q.submitted "req-1" true).Had claimed _ last _ := .once turn
  exact ⟨_, last, result, answer, had, (admitted.at_most_one_hop had).1, by decide +kernel, rfl,
    by decide +kernel⟩

end Request

end PromptDesk
