import PromptDesk.Proofs.Desk.Hop
import PromptDesk.Proofs.Desk.Outcomes
import PromptDesk.Proofs.Desk.Reading
import PromptDesk.Proofs.Desk.WorkerTurn

/-! Jobs that see to executions. A turn of a job comes to the turn of an execution where the job has one
to see to, and that is a number of steps of a worker. So the turns of a job are a run of a worker, with
all that others do in between, and what holds of such runs holds of the job. -/
namespace PromptDesk

/-- All that a worker has others do in what is left of its turn is what others may do. -/
def Asks (others : Desk → Desk → Prop) (x : Desk × Stance) : Prop :=
  ∀ n calls s, (act^[n] x).2.callback? = some (calls, s) →
    others (act^[n] x).1 (performAll calls (act^[n] x).1)

/-- Others may rearrange the work in the background. -/
def Rearranges (others : Desk → Desk → Prop) : Prop :=
  ∀ (d : Desk) jobs queue waits, others d { d with jobs, queue, waits }

theorem rearranges_goesOn : Rearranges Desk.GoesOn := fun _ _ _ _ => .of_eq rfl rfl

theorem rearranges_keepsStatus (i : Nat) : Rearranges (Desk.KeepsStatus i) :=
  fun _ _ _ _ => Board.KeepsStatus.of_eq rfl

theorem rearranges_glosses (i : Nat) : Rearranges (Desk.Glosses i) :=
  fun _ _ _ _ => ⟨rfl, Nat.le_refl _, fun _ => .refl _⟩

namespace Stance

/-- A property holds of all steps that are still to be made for a worker. -/
def all (p : Step → Bool) : Stance → Bool
  | due e | rests (.waiting e) => e.stage.all p
  | playing c items _ => Item.allIn p items && c.stream?.all (Item.allIn p)
  | reading _ _ _ _ items _ => Item.allIn p items
  | storing _ _ _ _ writer => writer.all p
  | finishing _ _ _ | stored _ _ _ _ _ | unwinding _ _ _ | rests _ => true

end Stance

namespace Desk

variable {p : Step → Bool} {d d' : Desk} {s : Stance} {c : Errand}

theorem Behaves.of_indoors (hd : d.Behaves p) (h : Indoors d d') : d'.Behaves p where
  history w hw := hd.history w (h.setup ▸ hw)
  replies r hr := hd.replies r (h.replies ▸ hr)

theorem all_fault (d : Desk) (c : Errand) (f : Failure) : (d.fault c f).2.all p = true := by
  rw [fault]
  split <;> rfl

theorem all_pause {pb : Playback} (hp : Item.allIn p pb.rest = true)
    (hs : c.stream?.all (Item.allIn p) = true) : (d.pause c pb).2.all p = true := by
  have hw : (c.waiting pb).stage.all p = true := by
    rw [Errand.waiting]
    cases h : c.stream? with
    | none => exact hp
    | some items =>
      rw [h] at hs
      simp only [Stage.all, hp, Bool.true_and]
      exact hs
  rw [pause]
  split
  · split
    · exact all_fault ..
    · exact hw
  · exact hw

theorem all_resume {pb : Playback} (hp : Item.allIn p pb.rest = true)
    (hs : c.stream?.all (Item.allIn p) = true) : (d.resume c pb).2.all p = true := by
  rw [resume]
  split
  · exact all_fault ..
  · split
    · simp only [Stance.all, hp, hs, Bool.true_and]
    · exact all_pause hp hs

theorem all_playOne {items : List Item} (text : String) (hi : Item.allIn p items = true)
    (hs : c.stream?.all (Item.allIn p) = true)
    (free : (Stance.playing c items text).callback? = none) :
    (d.playOne c text items).2.all p = true := by
  cases items with
  | nil =>
    rw [playOne, arrive]
    split
    · rename_i items h
      split
      · rfl
      · rw [h] at hs
        exact hs
    · rfl
  | cons item rest =>
    have hrest : Item.allIn p rest = true := by
      rw [Item.allIn, Bool.and_eq_true] at hi
      exact hi.2
    have hplays : ∀ text, (Stance.playing c rest text).all p = true := fun text => by
      simp only [Stance.all, hrest, hs, Bool.true_and]
    cases item with
    | chunk s => exact hplays _
    | fail f => exact all_fault ..
    | panic payload => rfl
    | calls calls => cases free
    | delay ms | wait name | hang =>
      simp only [playOne]
      split
      · exact all_pause hrest hs
      · exact hplays _

theorem all_readOne {id : String} {draft : Draft} {attempt : Nat} {token : Option Nat}
    {idle : Option Limit} {items : List Item} (hi : Item.allIn p items = true)
    (free : (Stance.reading id draft attempt token items idle).callback? = none) :
    (d.readOne id draft attempt token idle items).2.all p = true := by
  cases items with
  | nil => rfl
  | cons item rest =>
    have hrest : Item.allIn p rest = true := by
      rw [Item.allIn, Bool.and_eq_true] at hi
      exact hi.2
    cases item with
    | chunk s =>
      simp only [readOne]
      split
      · rfl
      · exact hrest
    | fail f | panic payload => rfl
    | calls calls => cases free
    | delay ms | wait name | hang =>
      simp only [readOne]
      split <;> exact hrest

/-- A request that is sent takes an answer of the transport, which behaves like all of them. -/
theorem behaves_setOut (hd : d.Behaves p) (id : String) (draft : Draft) :
    (d.setOut id draft).1.Behaves p ∧ (d.setOut id draft).2.all p = true := by
  simp only [setOut]
  split
  · split
    · exact ⟨hd.of_indoors (.of_quiet (quiet_cancelledBeforeStart d id)), rfl⟩
    · exact ⟨hd, rfl⟩
  · have hb := hd.of_indoors (.of_quiet (quiet_beginAttempt d id draft.axes))
    have hall := hb.head
    rw [Reply.all, Bool.and_eq_true] at hall
    refine ⟨⟨hb.history, fun r hr => hb.replies r (List.mem_of_mem_tail hr)⟩, ?_⟩
    split
    · exact Bool.and_eq_true_iff.2 hall
    · exact (Item.allIn_append.trans (Bool.and_eq_true_iff.2 hall))

theorem behaves_handIn (hd : d.Behaves p) (id : String) (attempt : Nat) (outcome : ReadOutcome) :
    (d.handIn id attempt outcome).1.Behaves p ∧ (d.handIn id attempt outcome).2.all p = true := by
  cases outcome with
  | completed text =>
    rw [handIn]
    split
    · exact ⟨hd.of_indoors (indoors_note ..), rfl⟩
    · rename_i s _
      have hc : Indoors d { d.withSlot s with
          conversation := { d.conversation with lastResponse := Text.trim text } } := ⟨rfl, rfl, rfl⟩
      dsimp only
      split
      · rename_i w hw
        exact ⟨hd.of_indoors (hc.trans (indoors_beginLogEntry ..)), hd.history w hw⟩
      · exact ⟨hd.of_indoors hc, rfl⟩
  | cancelled text => exact ⟨hd.of_indoors (indoors_finish d id attempt (.cancelled text)), rfl⟩
  | failed f => exact ⟨hd.of_indoors (indoors_finish d id attempt (.failed f)), rfl⟩

theorem indoors_noteAll (d : Desk) (attempt : Nat) (notes : List Note) :
    Indoors d (d.noteAll attempt notes) := by
  induction notes generalizing d with
  | nil => exact .refl d
  | cons n notes ih => exact (indoors_note d attempt n).trans (ih _)

/-- The transport and the history writer behave after a step of a worker as they did before. -/
theorem behaves_advance (hd : d.Behaves p) (free : s.callback? = none) :
    (d.advance s).1.Behaves p := by
  have hs := d.advanced free
  generalize d.advance s = x at hs
  cases hs with
  | setsOut id draft => exact (behaves_setOut hd id draft).1
  | works mine refused notes on => exact hd.of_indoors (indoors_noteAll d _ notes)
  | streams text idle opens allowed => exact hd.of_indoors ⟨rfl, rfl, rfl⟩
  | handsIn id attempt outcome => exact (behaves_handIn hd id attempt outcome).1
  | stores id text attempt entry result =>
    exact hd.of_indoors (indoors_endLogEntry d attempt entry result)
  | rests p => exact hd

/-- What is left to be done for a worker after a step of its own is part of what was left before, or
comes from the transport or the history writer. -/
theorem all_advance (hd : d.Behaves p) (hs : s.all p = true) (free : s.callback? = none) :
    (d.advance s).2.all p = true := by
  cases s with
  | due e =>
    obtain ⟨id, draft, stage⟩ := e
    cases stage with
    | claimed => exact (behaves_setOut hd id draft).2
    | opening attempt token limit playback items =>
      have hs : (Item.allIn p playback.rest && Item.allIn p items) = true := hs
      rw [Bool.and_eq_true] at hs
      exact all_resume hs.1 hs.2
    | collecting attempt token limit playback => exact all_resume hs rfl
    | reading r =>
      rw [advance]
      split
      · rfl
      · split <;> exact hs
  | playing c items text =>
    rw [Stance.all, Bool.and_eq_true] at hs
    exact all_playOne text hs.1 hs.2 free
  | reading id draft attempt token items idle => exact all_readOne hs free
  | finishing id attempt outcome => exact (behaves_handIn hd id attempt outcome).2
  | storing id text attempt entry writer => cases writer <;> cases free
  | stored id text attempt entry result | unwinding id attempt message => rfl
  | rests p => exact hs

/-- Callbacks make only steps that are still to be made. -/
theorem all_asked {s' : Stance} {calls : List Call} (hs : s.all p = true)
    (asked : s.callback? = some (calls, s')) : Call.allIn p calls = true ∧ s'.all p = true := by
  unfold Stance.callback? at asked
  split at asked <;> cases asked
  · simp only [Stance.all, Item.allIn, Item.all, Bool.and_eq_true] at hs ⊢
    exact ⟨hs.1.1, hs.1.2, hs.2⟩
  · simpa only [Stance.all, Item.allIn, Item.all, Bool.and_eq_true] using hs
  · exact ⟨hs, rfl⟩
  · exact ⟨hs, rfl⟩

variable {others : Desk → Desk → Prop}

/-- Where the transport and the history writer make certain steps only, and nothing else is left to be
done for a worker, its callbacks make such steps. -/
theorem asks_of_behaves
    (calls : ∀ (cs : List Call) (d : Desk), Call.allIn p cs = true → others d (performAll cs d))
    (hd : d.Behaves p) (hs : s.all p = true) : Asks others (d, s) := by
  have good : ∀ n, (act^[n] (d, s)).1.Behaves p ∧ (act^[n] (d, s)).2.all p = true := by
    intro n
    induction n with
    | zero => exact ⟨hd, hs⟩
    | succ n ih =>
      rw [Function.iterate_succ_apply']
      generalize act^[n] (d, s) = x at ih
      obtain ⟨d₁, s₁⟩ := x
      cases h : s₁.callback? with
      | none =>
        rw [act_of_free h]
        exact ⟨behaves_advance ih.1 h, all_advance ih.1 ih.2 h⟩
      | some asked =>
        rw [act_of_callback h]
        exact ⟨ih.1.of_indoors (indoors_performAll ..), (all_asked ih.2 h).2⟩
  exact fun n cs s' asked => calls cs _ (all_asked (good n).2 asked).1

theorem asks_goesOn (x : Desk × Stance) : Asks GoesOn x := fun _ _ _ _ => goesOn_performAll _ _

theorem asks_keepsStatus (i : Nat) (hd : d.Behaves Step.isOpenEnded)
    (hs : s.all Step.isOpenEnded = true) : Asks (KeepsStatus i) (d, s) :=
  asks_of_behaves (keepsStatus_performAll i) hd hs

theorem asks_glosses (i : Nat) (hd : d.Behaves Step.isAloof) (hs : s.all Step.isAloof = true) :
    Asks (Glosses i) (d, s) := asks_of_behaves (glosses_performAll i) hd hs

/-! ### The executions of a turn -/

/-- A request is let in when its sources have answered, and its execution begins. -/
inductive Enters (d : Desk) (q : Request) : Desk → Execution → Prop
  | mk {answered entered : Desk} {parts : List Part} {draft : Draft} {id : String}
      (gathers : gather q.sources d = (answered, .ok parts))
      (entry : (answered.prepare (answered.draftFor q) q.prompt parts).1.enter
        (answered.prepare (answered.draftFor q) q.prompt parts).2 = (entered, draft, .ok id)) :
      Enters d q entered ⟨id, draft, .claimed⟩

/-- The directive in a result is followed: the slot was claimed for another request, if the gate is to be
asked. -/
inductive Follows (d : Desk) (q : Request) (gated : Bool) (result : PromptResult) :
    Desk → Request → Prop
  | mk {claimed : Desk} {directive : Directive} {id : Option String}
      (completed : result.isCompleted = true)
      (asks : Directive.ofResponse? result.text = some directive)
      (claim : (if gated then d.claim delegateSource else (d, .allowed none)) =
        (claimed, .allowed id)) :
      Follows d q gated result claimed
        (q.follow directive.prompt (directive.destinationOr result.destination) id)

/-- A turn of a task comes to a turn of an execution: the task is that already, or its request is let in,
or a directive is followed in the response of an execution that the turn has brought to its end. -/
inductive LeadsTo (d : Desk) : Task → Desk → Execution → Sequel → Prop
  | goesOn (e : Execution) (sequel : Sequel) : LeadsTo d (.execution e sequel) d e sequel
  | enters {q : Request} {d₁ : Desk} {e : Execution} (entry : d.Enters q d₁ e) (sequel : Sequel) :
      LeadsTo d (.request q sequel) d₁ e sequel
  | follows {t : Task} {d₁ ended claimed d₂ : Desk} {e e' : Execution} {q next : Request}
      {gated : Bool} {response : Response} (first : LeadsTo d t d₁ e (.delegate q gated))
      (turn : d₁.execute e = (ended, .ended response))
      (follow : (ended.conclude e.draft.destination response).1.Follows q gated
        (ended.conclude e.draft.destination response).2 claimed next)
      (entry : claimed.Enters next d₂ e') : LeadsTo d t d₂ e' .conclude

variable {d₁ : Desk} {q next : Request} {e e' : Execution} {t : Task} {sequel sequel' : Sequel}
variable {result : PromptResult} {gated : Bool} {destination : Destination} {progress : Progress}

theorem Enters.run (h : d.Enters q d₁ e) :
    d.run q = ((d₁.execute e).1, .ok (e.draft, (d₁.execute e).2)) := by
  cases h with
  | mk gathers entry => simp only [Desk.run, gathers, send, entry]

/-- A request is let in, or its run comes to nothing. -/
theorem run_or (d : Desk) (q : Request) : (∃ d₁ e, d.Enters q d₁ e) ∨
    (∃ d' m, d.run q = (d', .error m)) ∨
      ∃ d' draft response, d.run q = (d', .ok (draft, .ended response)) ∧
        response.isCompleted = false := by
  cases hg : gather q.sources d with
  | mk answered parts =>
    cases parts with
    | error m => exact .inr (.inl ⟨answered, m, by simp only [Desk.run, hg]⟩)
    | ok parts =>
      cases hent : (answered.prepare (answered.draftFor q) q.prompt parts).1.enter
          (answered.prepare (answered.draftFor q) q.prompt parts).2 with
      | mk entered x =>
        obtain ⟨draft, id | id⟩ := x
        · refine .inr (.inr ⟨(entered.cancelledBeforeStart id).1, draft,
            (entered.cancelledBeforeStart id).2, ?_, rfl⟩)
          simp only [Desk.run, hg, send, hent]
        · exact .inl ⟨entered, _, .mk hg hent⟩

theorem Follows.eq (h : d.Follows q gated result d' next) :
    d.follow q gated result = d'.turn next.alone := by
  cases h with
  | mk completed asks claim =>
    simp only [follow, completed, asks, claim, Bool.not_true, Bool.false_eq_true, if_false,
      Request.runLast_eq]

theorem Follows.completed {response : Response} (h : (d.conclude destination response).1.Follows q gated
    (d.conclude destination response).2 d' next) : response.isCompleted = true := by
  cases h with
  | mk completed asks claim => exact completed

/-- A result stands, or the directive in it is followed. -/
theorem follow_or (d : Desk) (q : Request) (gated : Bool) (result : PromptResult) :
    (∃ d', d.follow q gated result = (d', .ended (.success (.result result)))) ∨
      ∃ claimed next, d.Follows q gated result claimed next := by
  cases completed : result.isCompleted with
  | false => exact .inl ⟨d, by simp only [follow, completed, Bool.not_false, if_true]⟩
  | true =>
    cases asks : Directive.ofResponse? result.text with
    | none => exact .inl ⟨d, by simp only [follow, completed, asks, Bool.not_true, Bool.false_eq_true,
        if_false]⟩
    | some directive =>
      cases claim : (if gated then d.claim delegateSource else (d, .allowed none)) with
      | mk claimed admission =>
        cases admission with
        | allowed id => exact .inr ⟨claimed, _, .mk completed asks claim⟩
        | rejected reason message =>
          exact .inl ⟨claimed, by simp only [follow, completed, asks, claim, Bool.not_true,
            Bool.false_eq_true, if_false]⟩

/-- What the turn of a task comes to is what follows the turn of the execution. -/
theorem LeadsTo.turn (h : d.LeadsTo t d₁ e sequel) :
    d.turn t = (d₁.execute e).1.proceed e.draft.destination sequel (d₁.execute e).2 := by
  induction h with
  | goesOn e sequel => rfl
  | enters entry sequel => simp only [Desk.turn, entry.run]
  | follows first turn follow entry ih =>
    rw [ih, turn, proceed]
    exact follow.eq.trans (by simp only [Request.alone, Desk.turn, entry.run])

/-- A request that nothing follows waits in its execution. -/
theorem alone_waiting (h : d.turn q.alone = (d', .waiting (.execution e' sequel))) :
    sequel = .conclude ∧ ∃ d₁ e, d.Enters q d₁ e ∧ d₁.execute e = (d', .waiting e') := by
  rw [Request.alone, Desk.turn] at h
  rcases run_or d q with ⟨d₁, e, entry⟩ | ⟨_, m, hr⟩ | ⟨_, _, response, hr, _⟩
  · rw [entry.run] at h
    generalize hx : d₁.execute e = x at h
    obtain ⟨d₂, p⟩ := x
    cases p <;> cases h
    exact ⟨rfl, d₁, e, entry, hx⟩
  · rw [hr] at h
    cases h
  · rw [hr] at h
    cases h

/-- What waits after a turn of an execution is that execution, or another one that follows it. -/
theorem proceed_waiting
    (h : d.proceed destination sequel progress = (d', .waiting (.execution e' sequel'))) :
    (progress = .waiting e' ∧ sequel = sequel' ∧ d = d') ∨
      ∃ q gated response claimed next d₁ e, sequel = .delegate q gated ∧ sequel' = .conclude ∧
        progress = .ended response ∧ (d.conclude destination response).1.Follows q gated
          (d.conclude destination response).2 claimed next ∧
        claimed.Enters next d₁ e ∧ d₁.execute e = (d', .waiting e') := by
  cases progress with
  | waiting e => cases sequel <;> cases h <;> exact .inl ⟨rfl, rfl, rfl⟩
  | panicked message => cases sequel <;> cases h
  | ended response =>
    cases sequel with
    | respond | conclude => cases h
    | delegate q gated =>
      replace h : (d.conclude destination response).1.follow q gated
        (d.conclude destination response).2 = (d', .waiting (.execution e' sequel')) := h
      rcases follow_or (d.conclude destination response).1 q gated
        (d.conclude destination response).2 with ⟨_, he⟩ | ⟨claimed, next, follow⟩
      · rw [he] at h
        cases h
      · obtain ⟨rfl, d₁, e, entry, turn⟩ := alone_waiting (follow.eq.symm.trans h)
        exact .inr ⟨q, gated, response, claimed, next, d₁, e, rfl, rfl, rfl, follow, entry, turn⟩

/-- Every execution that waits after a turn of a task had its own turn in it. -/
theorem exists_leadsTo (h : d.turn t = (d', .waiting (.execution e' sequel))) :
    ∃ d₁ e, d.LeadsTo t d₁ e sequel ∧ d₁.execute e = (d', .waiting e') := by
  -- The first execution of the turn waits itself, or has ended in a response that is followed.
  have after : ∀ {d₁ : Desk} {e : Execution} {sequel₁ : Sequel}, d.LeadsTo t d₁ e sequel₁ →
      ∃ d₁ e, d.LeadsTo t d₁ e sequel ∧ d₁.execute e = (d', .waiting e') := by
    intro d₁ e sequel₁ leads
    rw [leads.turn] at h
    rcases proceed_waiting h with ⟨hp, rfl, hd⟩ |
      ⟨q, gated, response, claimed, next, d₂, e₂, rfl, rfl, hp, follow, entry, turn⟩
    · exact ⟨d₁, e, leads, Prod.ext hd hp⟩
    · exact ⟨d₂, e₂, .follows leads (Prod.ext rfl hp) follow entry, turn⟩
  cases t with
  | request q sequel₁ =>
    rcases run_or d q with ⟨d₁, e, entry⟩ | ⟨_, m, hr⟩ | ⟨_, draft, response, hr, undone⟩
    · exact after (.enters entry sequel₁)
    · rw [Desk.turn, hr] at h
      cases h
    · rw [Desk.turn, hr] at h
      rcases proceed_waiting h with ⟨hp, _⟩ | ⟨_, _, _, _, _, _, _, _, _, hp, follow, _⟩
      · cases hp
      · cases hp
        rw [follow.completed] at undone
        cases undone
  | execution e sequel₁ => exact after (.goesOn e sequel₁)
  | collect limit playback =>
    rw [Desk.turn] at h
    generalize d.collectWithin limit playback = x at h
    obtain ⟨_, c⟩ := x
    cases c <;> cases h
  | read r =>
    rw [Desk.turn] at h
    generalize d.read r = x at h
    obtain ⟨_, c⟩ := x
    cases c <;> cases h
  | await k limit =>
    rw [Desk.turn] at h
    split at h
    · cases h
    · split at h <;> cases h
  | sleep due | present k quiet =>
    rw [Desk.turn] at h
    split at h <;> cases h
  | exports interval due =>
    simp only [Desk.turn] at h
    split at h
    · cases h
    · split at h
      · cases h
      · split at h
        · cases h
        · split at h <;> cases h

/-! ### The turns of a job -/

variable {i : Nat}

theorem job_settle (d : Desk) (j : Job) (e : Ending) (hi : i < d.jobs.length) :
    (d.settle j e).job i = d.job i := by
  have hback := job_of_grows (dealt_returned d j e).deeds.jobs hi
  rw [settle_eq]
  split
  · rw [resolve]
    split <;> exact hback
  · exact hback

/-- What is done in the turn of a job concerns no job that was there before. -/
theorem job_turn {j : Nat} (t : Task) (hi : i < d.jobs.length) :
    i < ((d.atWork j).turn t).1.jobs.length ∧ ((d.atWork j).turn t).1.job i = (d.atWork j).job i := by
  have hi : i < (d.atWork j).jobs.length := List.length_set.symm ▸ hi
  have hjobs := (deeds_turn (d.atWork j) t).jobs
  exact ⟨Nat.lt_of_lt_of_le hi hjobs.length_le, job_of_grows hjobs hi⟩

/-- A job is left alone while another one has its turn. -/
theorem job_turnOfJob_of_ne {j : Nat} (hi : i < d.jobs.length) (hij : j ≠ i) :
    (d.turnOfJob j).job i = d.job i := by
  cases ht : (d.job j).task with
  | none => rw [turnOfJob_of_none ht]
  | some t =>
    obtain ⟨hlt, hsame⟩ := job_turn (j := j) t hi
    have hwork : (d.atWork j).job i = d.job i := job_of_set_ne rfl hij
    generalize hout : (d.atWork j).turn t = out at hlt hsame
    obtain ⟨d₁, t' | e⟩ := out
    · obtain ⟨queue, waits, he⟩ := turnOfJob_waiting ht hout
      rw [he]
      exact (job_of_set_ne rfl hij).trans (hsame.trans hwork)
    · rw [turnOfJob_ended ht hout]
      exact (job_settle (d₁.await j []) _ e hlt).trans (hsame.trans hwork)

/-- What is left to do for a job after its turn is what the turn has left. -/
theorem turn_of_left {t' : Task} (ht : (d.job i).task = some t)
    (left : ((d.turnOfJob i).job i).task = some t') :
    ∃ d₁, (d.atWork i).turn t = (d₁, .waiting t') ∧
      ∃ jobs queue waits, d.turnOfJob i = { d₁ with jobs, queue, waits } := by
  have hi := lt_of_task ht
  obtain ⟨hlt, hsame⟩ := job_turn (j := i) t hi
  have hwork : ((d.atWork i).job i).task = none := by
    rw [job_of_set (d := d) rfl, if_pos ⟨rfl, hi⟩]
  generalize hout : (d.atWork i).turn t = out at hlt hsame
  obtain ⟨d₁, t₁ | e⟩ := out
  · obtain ⟨queue, waits, he⟩ := turnOfJob_waiting ht hout
    rw [he, job_of_set (d := d₁) rfl, if_pos ⟨rfl, hlt⟩] at left
    obtain rfl : t₁ = t' := Option.some.inj left
    exact ⟨d₁, rfl, _, queue, waits, he⟩
  · rw [turnOfJob_ended ht hout, job_settle (d₁.await i []) _ e hlt] at left
    replace hsame : d₁.job i = (d.atWork i).job i := hsame
    rw [show (d₁.await i []).job i = d₁.job i from rfl, hsame, hwork] at left
    cases left

/-- The turns of a job that sees to an execution, from one of them on: what the execution has come to in
the latest turn, and the desk at which that turn began. Between two turns the job is put back and others
act, and then it is taken up again. -/
inductive SeesTo (others : Desk → Desk → Prop) (i : Nat) (sequel : Sequel) (d₀ : Desk)
    (e₀ : Execution) : Desk → Desk × Progress → Prop
  | first {d : Desk} {t : Task} (task : (d.job i).task = some t)
      (leads : (d.atWork i).LeadsTo t d₀ e₀ sequel) :
      SeesTo others i sequel d₀ e₀ d (d₀.execute e₀)
  | again {d d₁ d' : Desk} {e : Execution} (sees : SeesTo others i sequel d₀ e₀ d (d₁, .waiting e))
      (back : others d₁ (d.turnOfJob i))
      (meanwhile : Relation.ReflTransGen others (d.turnOfJob i) d')
      (task : (d'.job i).task = some (.execution e sequel)) (up : others d' (d'.atWork i))
      (asks : Asks others (d'.atWork i, .due e)) :
      SeesTo others i sequel d₀ e₀ d' ((d'.atWork i).execute e)

variable {d₀ : Desk} {e₀ : Execution} {y : Desk × Progress}

namespace SeesTo

/-- The latest turn came to the turn of the execution, and what follows that. -/
theorem turn (h : SeesTo others i sequel d₀ e₀ d y) : ∃ t destination, (d.job i).task = some t ∧
    (d.atWork i).turn t = y.1.proceed destination sequel y.2 := by
  cases h with
  | first task leads => exact ⟨_, _, task, leads.turn⟩
  | again sees back meanwhile task => exact ⟨_, _, task, (LeadsTo.goesOn _ sequel).turn⟩

/-- As long as the execution waits the job waits with it, and the turn changed nothing else but what the
work in the background waits for. -/
theorem turnOfJob (h : SeesTo others i sequel d₀ e₀ d (d₁, .waiting e)) :
    ((d.turnOfJob i).job i).task = some (.execution e sequel) ∧
      ∃ jobs queue waits, d.turnOfJob i = { d₁ with jobs, queue, waits } := by
  obtain ⟨t, destination, task, turn⟩ := h.turn
  replace turn : (d.atWork i).turn t = (d₁, .waiting (.execution e sequel)) := by
    rw [turn]
    cases sequel <;> rfl
  obtain ⟨queue, waits, he⟩ := turnOfJob_waiting task turn
  have hi := (job_turn (j := i) t (lt_of_task task)).1
  rw [turn] at hi
  rw [he, job_of_set (d := d₁) rfl, if_pos ⟨rfl, hi⟩]
  exact ⟨rfl, _, queue, waits, rfl⟩

/-- Where others may rearrange the work in the background, a job is put back and taken up again. -/
theorem onwards {d' : Desk} (h : SeesTo others i sequel d₀ e₀ d (d₁, .waiting e))
    (rearranges : Rearranges others) (meanwhile : Relation.ReflTransGen others (d.turnOfJob i) d')
    (task : (d'.job i).task = some (.execution e sequel)) (asks : Asks others (d'.atWork i, .due e)) :
    SeesTo others i sequel d₀ e₀ d' ((d'.atWork i).execute e) := by
  obtain ⟨-, jobs, queue, waits, he⟩ := h.turnOfJob
  exact h.again (he ▸ rearranges d₁ jobs queue waits) meanwhile task
    (rearranges d' _ d'.queue d'.waits) asks

end SeesTo

/-- A job sees to the execution that is left after its turn. -/
theorem exists_seesTo (task : (d.job i).task = some t)
    (left : ((d.turnOfJob i).job i).task = some (.execution e sequel)) :
    ∃ d₀ e₀ d₁, SeesTo others i sequel d₀ e₀ d (d₁, .waiting e) := by
  obtain ⟨d₁, turn, -⟩ := turn_of_left task left
  obtain ⟨d₀, e₀, leads, turn⟩ := exists_leadsTo turn
  exact ⟨d₀, e₀, d₁, turn ▸ .first task leads⟩

end Desk

variable {others : Desk → Desk → Prop} {i : Nat} {sequel : Sequel} {d₀ d : Desk} {e₀ : Execution}
variable {x y : Desk × Stance} {z : Desk × Progress} {l : List (Desk × Stance)}

theorem Asks.act (h : Asks others x) : Asks others (act x) := fun n calls s asked => by
  rw [← Function.iterate_succ_apply] at asked ⊢
  exact h (n + 1) calls s asked

/-- A worker is left alone to the end of its turn. -/
theorem Runs.restOfTurn (run : Runs others x l y) (asks : Asks others y) :
    ∃ l, Runs others x l ((y.2.result y.1).1, .rests (y.2.result y.1).2) := by
  obtain ⟨n, hn⟩ := Stance.done y
  rw [← hn]
  exact run.left n fun k _ => asks k

theorem Runs.meanwhile {d d' : Desk} {s : Stance} (run : Runs others x l (d, s))
    (made : Relation.ReflTransGen others d d') : Runs others x l (d', s) := by
  induction made with
  | refl => exact run
  | tail _ made ih => exact ih.others made

namespace Desk

/-- The turns of a job that sees to an execution are a run of a worker, from anywhere in the first of
them. -/
theorem SeesTo.runs_from (h : SeesTo others i sequel d₀ e₀ d z)
    (begins : x.2.result x.1 = d₀.execute e₀) (asks : Asks others x) :
    ∃ l, Runs others x l (z.1, .rests z.2) := by
  induction h with
  | first task leads => exact begins ▸ Runs.start.restOfTurn asks
  | again sees back meanwhile task up asks' ih =>
    obtain ⟨l, run⟩ := ih
    exact ((run.others back).meanwhile meanwhile).others up |>.turn.restOfTurn asks'

theorem SeesTo.runs (h : SeesTo others i sequel d₀ e₀ d z) (asks : Asks others (d₀, .due e₀)) :
    ∃ l, Runs others (d₀, .due e₀) l (z.1, .rests z.2) := h.runs_from rfl asks

/-- The same after the first step of an execution that has just begun. -/
theorem SeesTo.runs_setOut {id : String} {draft : Draft}
    (h : SeesTo others i sequel d₀ ⟨id, draft, .claimed⟩ d z)
    (asks : Asks others (d₀, .due ⟨id, draft, .claimed⟩)) :
    ∃ l, Runs others (d₀.setOut id draft) l (z.1, .rests z.2) :=
  h.runs_from (Stance.result_setOut d₀ id draft) asks.act

/-- An execution that was begun in a turn has had nothing but its claim before. -/
theorem LeadsTo.begins {d₁ : Desk} {e : Execution} {t : Task} (h : d.LeadsTo t d₁ e sequel) :
    e.stage = .claimed ∨ t = .execution e sequel ∧ d₁ = d := by
  cases h with
  | goesOn => exact .inr ⟨rfl, rfl⟩
  | enters entry | follows _ _ _ entry =>
    cases entry
    exact .inl rfl

/-- A run of a worker goes on with the turn of the job that led to it. -/
theorem runs_turnOfJob {d₀ d₁ d₂ : Desk} {e₀ e₁ e : Execution} {l : List (Desk × Stance)}
    {jobs : List Job} {queue : List Nat} {waits : List Wait}
    (run : Runs GoesOn (d₀, .due e₀) l (d₁, .due e₁)) (turn : d₁.execute e₁ = (d₂, .waiting e))
    (back : d.turnOfJob i = { d₂ with jobs, queue, waits }) :
    ∃ l, Runs GoesOn (d₀, .due e₀) l (d.turnOfJob i, .due e) := by
  obtain ⟨l', run'⟩ := run.restOfTurn (asks_goesOn _)
  rw [show (Stance.due e₁).result d₁ = _ from turn] at run'
  exact ⟨l', back ▸ (run'.others (rearranges_goesOn d₂ jobs queue waits)).turn⟩

/-- Whatever happens at a desk, the execution that a job has come to is a worker in the middle of a run
that began with the claim of the execution, if the job had not come further before. -/
theorem Meanwhile.runs {x : Desk} {l : List Ended} {e : Execution} (hx : x.Promised)
    (run : Meanwhile x l d) (hi : i < x.jobs.length)
    (begins : ∀ e sequel, (x.job i).task = some (.execution e sequel) → e.stage = .claimed)
    (task : (d.job i).task = some (.execution e sequel)) :
    ∃ d₀ e₀ l, e₀.stage = .claimed ∧ Runs GoesOn (d₀, .due e₀) l (d, .due e) := by
  have there : ∀ {l d}, Meanwhile x l d → i < d.jobs.length := fun run =>
    (run.respects (R := fun _ d => i < d.jobs.length) hx hi
      fun _ _ _ _ _ hi ha => Nat.lt_of_lt_of_le hi ha.jobs).2
  induction run generalizing e sequel with
  | start => exact ⟨x, e, [], begins e sequel task, .start⟩
  | deals dealing run ih =>
    rw [job_of_grows dealing.deeds.jobs (there run)] at task
    obtain ⟨d₀, e₀, l, claimed, run⟩ := ih task
    exact ⟨d₀, e₀, l, claimed, run.others (.of_deeds dealing.deeds)⟩
  | @turns l d j run ih =>
    by_cases hij : j = i
    · subst hij
      -- The job has come to another execution in this turn, whose run begins in it, or goes on.
      cases ht : (d.job j).task with
      | none =>
        rw [turnOfJob_of_none ht, ht] at task
        cases task
      | some t =>
        obtain ⟨d₁, turn, jobs, queue, waits, back⟩ := turn_of_left ht task
        obtain ⟨d₂, e₂, leads, turn⟩ := exists_leadsTo turn
        rcases leads.begins with claimed | ⟨rfl, rfl⟩
        · obtain ⟨l, run⟩ := runs_turnOfJob .start turn back
          exact ⟨d₂, e₂, l, claimed, run⟩
        · obtain ⟨d₀, e₀, l, claimed, run⟩ := ih ht
          have due : Runs GoesOn (d₀, .due e₀) l (d.atWork j, .due e₂) :=
            run.others (rearranges_goesOn d _ d.queue d.waits)
          obtain ⟨l, run⟩ := runs_turnOfJob due turn back
          exact ⟨d₀, e₀, l, claimed, run⟩
    · rw [job_turnOfJob_of_ne (there run) hij] at task
      obtain ⟨d₀, e₀, l, claimed, run⟩ := ih task
      exact ⟨d₀, e₀, l, claimed, run.others (goesOn_turnOfJob d j)⟩

end Desk

end PromptDesk
