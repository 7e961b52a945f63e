import PromptDesk.Proofs.Desk.Cancellation
import PromptDesk.Proofs.Desk.Chats
import PromptDesk.Proofs.Desk.Still

/-! Replies that are heard. The reply of a request goes to the thread after the slot was given back and
the history was written; whoever is admitted in between by the history writer, and is prepared at once,
does not hear it. Everybody else who is admitted later does. -/
namespace PromptDesk

open Slot (Move)

namespace Desk

variable {r : String} {d d' d'' ended : Desk} {K K' : List TransportRequest} {H E : List String}
variable {e : Execution} {response : Response}

/-- If a request kept the slot, nothing was said meanwhile and nobody was admitted. -/
structure Hushed (r : String) (d d' : Desk) : Prop where
  path : Slot.Path (fun _ _ => True) d.slot d'.slot
  hush : d'.slot.Unwrapped → d'.slot.state.holds r = true → d.slot.state.holds r = true ∧
    d'.slot.issued = d.slot.issued ∧ d'.conversation.thread = d.conversation.thread

theorem Hushed.refl (d : Desk) : Hushed r d d := ⟨.refl, fun _ h => ⟨h, rfl, rfl⟩⟩

theorem Hushed.trans (h : Hushed r d d') (h' : Hushed r d' d'') : Hushed r d d'' where
  path := h.path.trans h'.path
  hush hb hr := by
    obtain ⟨hr', hi', ht'⟩ := h'.hush hb hr
    obtain ⟨hr₀, hi, ht⟩ := h.hush (Nat.le_trans h'.path.tokens_le hb) hr'
    exact ⟨hr₀, hi'.trans hi, ht'.trans ht⟩

theorem Talks.hushed (h : Talks r d K d' K') (hd : d.InUse r) : Hushed r d d' :=
  ⟨h.path hd, fun hb hr => (h.speech hd hb).hush hr⟩

/-- Only a request that holds the slot is completed. -/
theorem finish_of_completed {p : Step → Bool} {R : Desk → Desk → Prop} (hm : Manner p R)
    (hb : d.Behaves p) {attempt : Nat} {outcome : ReadOutcome}
    (h : d.finish r attempt outcome = (ended, .ended response)) (hc : response.isCompleted = true) :
    d.slot.state.holds r = true ∧ R (d.moved (.complete r)) ended := by
  have hf := finishes_finish hm hb r attempt outcome
  rw [h] at hf
  cases hf with
  | completes holds after _ => exact ⟨holds, after⟩
  | fails | cancels | faults | drops => cases hc

/-- The work on a request up to the moment at which it finishes. -/
inductive Done (r : String) (d : Desk) (H E : List String) (ended : Desk) (response : Response) : Prop
  | mk {done : Desk} {attempt : Nat} {outcome : ReadOutcome} {E' : List String} (grows : E ⊆ E')
      (tended : done.Tended (Step.isCivil r) (Met (some r)) H E') (hushed : Hushed r d done)
      (finish : done.finish r attempt outcome = (ended, .ended response)) : Done r d H E ended response

theorem done_of_turned (h : d.Tended (Step.isCivil r) (Met (some r)) H E) (hr : e.requestId = r)
    (ht : Turned (Step.isCivil r) (fun d d' =>
      Serves (Step.isCivil r) (some r) (Met (some r)) e.requestId d d' ∧
        (d.InUse r → Talks r d [] d' [])) d e (ended, .ended response)) :
    Done r d H E ended response := by
  obtain ⟨done, attempt, outcome, ⟨hserves, htalks⟩, hf, _⟩ := ht.ends_cases
  obtain ⟨E', hE, h'⟩ := hserves H E (.inr (hr ▸ rfl)) h
  exact .mk hE h' ((htalks h.inUse).hushed h.inUse) (hr ▸ hf)

/-- The last turn of an execution of a request that is completed. -/
theorem Tended.done (h : d.Tended (Step.isCivil r) (Met (some r)) H E) (hr : e.requestId = r)
    (hb : e.stage.all (Step.isCivil r) = true) (turn : d.execute e = (ended, .ended response))
    (hc : response.isCompleted = true) : Done r d H E ended response := by
  have law := custody_met r (some r)
  have hm := law.conduct.manner.and (manner_talks r)
  have hw := (work_tended law e.requestId).and (work_talks r e.requestId)
  obtain ⟨id, draft, stage⟩ := e
  obtain rfl : id = r := hr
  cases stage with
  | claimed =>
    change d.launch ⟨id, draft, .claimed⟩ = _ at turn
    cases ht : d.slot.tokenFor? id with
    | none =>
      obtain ⟨d', hl, _⟩ := launch_of_none (e := ⟨id, draft, .claimed⟩) ht
      rw [hl] at turn
      cases turn
      cases hc
    | some token =>
      obtain ⟨stage, hs, hall, hl⟩ := launch_of_token (e := ⟨id, draft, .claimed⟩) ht h.behaves
      rw [hl] at turn
      have hcalled := h.called law (e := ⟨id, draft, .claimed⟩) (.inr rfl)
      have hturned := Turned.execute hm hw (d := d.called ⟨id, draft, .claimed⟩)
        (e := ⟨id, draft, stage⟩) hs hall
      rw [turn] at hturned
      obtain ⟨hE, h', hto, hf⟩ := done_of_turned (e := ⟨id, draft, stage⟩) hcalled rfl hturned
      exact .mk hE h' (((talks_called d ⟨id, draft, .claimed⟩).hushed h.inUse).trans hto) hf
  | opening attempt token limit playback items =>
    exact done_of_turned h rfl (turn ▸ Turned.execute hm hw rfl hb)
  | collecting attempt token limit playback =>
    exact done_of_turned h rfl (turn ▸ Turned.execute hm hw rfl hb)
  | reading reader =>
    change d.continueReading ⟨id, draft, .reading reader⟩ reader = _ at turn
    exact done_of_turned (e := ⟨id, draft, .reading reader⟩) h rfl
      (turn ▸ Turned.continueReading hm hw hb rfl)

/-- A reply that is not blank is added to the thread. -/
theorem thread_conclude (hr : response.Answers r) (hc : response.isCompleted = true)
    (hn : Text.isBlankText response.text = false) (ht : d.setup.settings.threadEnabled = true)
    (destination : Destination) : (d.conclude destination response).1.conversation.thread =
      d.conversation.thread ++ [response.message] := by
  obtain ⟨text, now, hm⟩ := hr.speaks hc
  have htext : response.text = text := by
    simp [Response.text, hm, Message.text, Message.ofText, Part.text?]
  have hempty : response.message.isEmpty = false := by
    rw [htext] at hn
    simp [hm, Message.isEmpty, Message.ofText, Part.isEmpty, hn]
  have hrole : { response.message with role := .assistant } = response.message := by
    rw [hm]
    rfl
  simp [conclude, hc, ht, Conversation.pushReply, hempty, Conversation.push, hrole]

end Desk

theorem Desk.execute_of_respond {d : Desk} {e : Execution} {response : Response}
    (h : (d.turn (.execution e .respond)).2.ending? = some (.success (.response response))) :
    d.execute e = ((d.execute e).1, .ended response) := by
  rw [turn] at h
  generalize d.execute e = x at h
  obtain ⟨d', p⟩ := x
  cases p <;> cases h
  rfl

def Turn.task? : Turn → Option Task
  | .waiting t => some t
  | .ended _ => none

namespace Lobby

/-- The turns of an execution that has a desk of its own beside a lobby where something is said in
requests only: the last of them starts at the second lobby. -/
inductive Replies (r : String) : Lobby → Execution → Lobby → Desk → Response → Prop
  | last {x : Lobby} {d : Desk} {e : Execution} {response : Response}
      (turn : x.desk.execute e = (d, .ended response)) : Replies r x e x d response
  | more {x y last : Lobby} {d₁ d : Desk} {e e' : Execution} {response : Response}
      (turn : x.desk.execute e = (d₁, .waiting e')) (others : Chat r ⟨d₁, x.guests⟩ y)
      (rest : Replies r y e' last d response) : Replies r x e last d response

/-- Whoever waits for what follows is a visitor like others from now on. -/
def resume (x : Lobby) (p : Desk × Turn) : Lobby := ⟨p.1, x.guests ++ [⟨p.2.task?, none, none⟩]⟩

variable {r : String} {x y last : Lobby} {d ended : Desk} {E : List String} {e : Execution}
variable {response : Response}

/-- A request that keeps the slot up to the end says nothing itself, and nobody else does. -/
theorem Replies.done (h : Replies r x e last ended response)
    (hx : x.Tended (Step.isCivil r) (Desk.Met (some r)) E) (hr : e.requestId = r)
    (hb : e.stage.all (Step.isCivil r) = true) (hc : response.isCompleted = true) :
    ∃ E', last.Tended (Step.isCivil r) (Desk.Met (some r)) E' ∧ Desk.Hushed r x.desk last.desk ∧
      Desk.Done r last.desk last.claimed E' ended response := by
  induction h generalizing E with
  | last turn => exact ⟨E, hx, .refl _, hx.desk.done hr hb turn hc⟩
  | @more x y last d₁ ended e e' response turn others rest ih =>
    have law := Desk.custody_met r (some r)
    have hplays := (Desk.plays_execute hx.desk.inUse hb).talks.hushed hx.desk.inUse
    obtain ⟨E₁, hE, hd₁, hproper⟩ := hx.desk.execute law (.inr (hr ▸ rfl)) hb
    rw [turn] at hplays hd₁ hproper
    obtain ⟨hid, hall⟩ := hproper
    have h₁ : Lobby.Tended (Step.isCivil r) (Desk.Met (some r)) E₁ ⟨d₁, x.guests⟩ :=
      ⟨hd₁, fun j hj => (hx.guests j hj).mono hE⟩
    obtain ⟨E₂, _, hy⟩ := others.tended h₁
    obtain ⟨E', hlast, hhush, hdone⟩ := ih hy (hid.trans hr) hall hc
    exact ⟨E', hlast, (hplays.trans ((others.talks h₁).hushed h₁.desk.inUse)).trans hhush, hdone⟩

theorem prepared_resume (x : Lobby) (p : Desk × Turn) :
    (x.resume p).prepared = x.prepared ++ p.2.prepared := by
  obtain ⟨d, t | ending⟩ := p
  · cases h : t.prepared? <;> simp [prepared, resume, Turn.task?, Job.prepared?, Turn.prepared, h]
  · simp [prepared, resume, Turn.task?, Job.prepared?, Turn.prepared]

/-- What follows the reply of a request that is followed by one more at most. -/
theorem Tended.resume (destination : Destination) (response : Response) {q : Request}
    {sequel : Sequel} (h : Lobby.Tended (Step.isCivil r) (Desk.Met (some r)) E ⟨d, x.guests⟩)
    (hq : q.all (Step.isCivil r) = true) (hs : sequel = .conclude ∨ sequel = .delegate q true) :
    ∃ E', (x.resume (d.proceed destination sequel (.ended response))).Tended (Step.isCivil r)
        (Desk.Met (some r)) E' ∧
      Desk.Talks r (d.conclude destination response).1 x.prepared
        (x.resume (d.proceed destination sequel (.ended response))).desk
        (x.resume (d.proceed destination sequel (.ended response))).prepared := by
  have law := Desk.custody_met r (some r)
  have hd := h.desk.quiet law (Desk.quiet_conclude d destination response)
  rw [prepared_resume]
  have hfollows : ∃ E', E ⊆ E' ∧ (d.proceed destination sequel (.ended response)).1.Tended
        (Step.isCivil r) (Desk.Met (some r)) x.claimed E' ∧
      (d.proceed destination sequel (.ended response)).2.IsProper (Step.isCivil r) E' ∧
      Desk.Talks r (d.conclude destination response).1 []
        (d.proceed destination sequel (.ended response)).1
        (d.proceed destination sequel (.ended response)).2.prepared := by
    rcases hs with rfl | rfl
    · exact ⟨E, List.Subset.refl E, hd, trivial, .refl _⟩
    · obtain ⟨E', hE, hd', hp⟩ := hd.follow law hq (d.conclude destination response).2
      exact ⟨E', hE, hd', hp, Desk.talks_follow hd.inUse hq _⟩
  obtain ⟨E', hE, hd', hp, hto⟩ := hfollows
  have hbeside := hto.beside x.prepared
  rw [List.append_nil] at hbeside
  refine ⟨E', ?_, hbeside⟩
  have hguests : ∀ j ∈ x.guests, j.IsProper (Step.isCivil r) E' := fun j hj => (h.guests j hj).mono hE
  generalize d.proceed destination sequel (.ended response) = p at hd' hp
  obtain ⟨d', t | ending⟩ := p
  · have hnone : Job.claim? ⟨some t, none, none⟩ = none := hp.2
    refine .sit law ?_ hguests ⟨?_, fun _ _ _ ho => by cases ho⟩
    · rw [Turn.task?, hnone]
      exact hd'
    · rintro _ ⟨⟩
      exact hp.1
  · exact .sit law hd' hguests (Job.isProper_of_task rfl)

end Lobby

/-- A request that was answered in a lobby where something is said in requests only, from before its
claim to any moment after its reply: one that was submitted, or one that a directive asked for. Anything
else may happen before its first turn, between any two of its turns, and afterwards. -/
structure Answered (r : String) where
  /-- Before the claim, when the sources are asked, at the first and at the last turn of the execution,
  and at some moment after it. -/
  (opened asked launched last later : Lobby)
  /-- After the claim, when the sources have answered, when the execution is entered, and at its end. -/
  (claimed answered entered ended : Desk)
  setup : Setup
  replies : List Reply
  reporting : Bool
  source : String
  request : Request
  parts : List Part
  draft : Draft
  response : Response
  destination : Destination
  sequel : Sequel
  threaded : setup.settings.threadEnabled = true
  behaves : (Desk.opened setup replies reporting).Behaves (Step.isCivil r)
  before : Lobby.Reaches r ⟨Desk.opened setup replies reporting, []⟩ opened
  claim : opened.desk.claim source = (claimed, .allowed (some r))
  waits : Lobby.Chat r ⟨claimed, opened.guests⟩ asked
  civil : request.all (Step.isCivil r) = true
  gathers : gather request.sources asked.desk = (answered, .ok parts)
  entry : (answered.ready request r parts).1.enter (answered.ready request r parts).2 =
    (entered, draft, .ok r)
  others : Lobby.Chat r ⟨entered, asked.guests⟩ launched
  turns : Lobby.Replies r launched ⟨r, draft, .claimed⟩ last ended response
  completed : response.isCompleted = true
  spoken : Text.isBlankText response.text = false
  follows : sequel = .conclude ∨ sequel = .delegate (request.claimed (some r)) true
  afterwards : Lobby.Chat r (last.resume (ended.proceed destination sequel (.ended response))) later
  unwrapped : later.desk.slot.Unwrapped

namespace Answered

variable {r : String} (a : Answered r)

/-- The user's message of the request. -/
def user : Message := .user a.request.prompt a.parts a.answered.now

/-- Nothing was said since the user's message when the execution ended. -/
def Silent : Prop :=
  a.ended.conversation.thread = a.answered.conversation.thread ++ [a.user]

/-- Whatever is sent for a request that was not admitted before the last turn has the message of this
one, followed by its reply. -/
def Heard : Prop := ∀ c ∈ a.later.desk.calls, ¬ a.last.desk.slot.Issued c.requestId →
  [a.user, a.response.message] <:+: c.messages

/-- The request is with nobody else when it enters its execution, and its message was said last. -/
theorem tended_entered : ∃ E,
    Lobby.Tended (Step.isCivil r) (Desk.Met (some r)) E ⟨a.entered, a.asked.guests⟩ ∧
      a.entered.conversation.thread = a.answered.conversation.thread ++ [a.user] := by
  have law := Desk.custody_met r (some r)
  have hopened : Lobby.Tended (Step.isCivil r) (Desk.Met none) []
      ⟨Desk.opened a.setup a.replies a.reporting, []⟩ :=
    Lobby.tended_opened ⟨⟨.refl, by simp⟩, by simp [Desk.calls, Desk.opened], a.threaded, nofun, nofun⟩
      a.behaves
  obtain ⟨E₀, hx⟩ := a.before.tended hopened
  obtain ⟨E₁, _, hy⟩ := Lobby.Chat.tended a.waits (hx.meets a.claim)
  have hs : Source.allIn (Step.isCivil r) a.request.sources = true := by
    have hq := a.civil
    revert hq
    cases a.request
    exact id
  obtain ⟨E₂, hE, hd⟩ := law.conduct.manner.gather a.request.sources a.asked.desk hs _ _ hy.desk
  rw [a.gathers] at hd
  have hready := hd.quiet law (Desk.quiet_ready a.answered a.request r a.parts)
  have hthread : (a.answered.ready a.request r a.parts).1.conversation.thread =
      a.answered.conversation.thread ++ [a.user] := by
    rw [Desk.ready, Desk.thread_prepare hd.custody.threaded]
    rfl
  obtain ⟨hentered, _⟩ :=
    Desk.enter_eq (Desk.ready_requestId a.answered a.request r a.parts) a.entry
  have hguests : ∀ j ∈ a.asked.guests, j.IsProper (Step.isCivil r) E₂ :=
    fun j hj => (hy.guests j hj).mono hE
  rcases hentered with ⟨he, _⟩ | he
  · exact ⟨E₂, ⟨he ▸ hready.quiet law (Desk.quiet_withSlot_self _), hguests⟩, he ▸ hthread⟩
  · refine ⟨E₂, ⟨he ▸ hready.moved (List.Subset.refl E₂) (hready.custody.moved trivial ?_ ?_), hguests⟩,
      he ▸ hthread⟩
    · exact fun q hq => (hready.custody.known.issued q hq).after _
    · exact fun q hq hb => hready.custody.apart q hq (Desk.unwrapped_of_moved hb)

/-- The request keeps the slot up to the last turn, in which it finishes. -/
theorem done : ∃ E, a.last.Tended (Step.isCivil r) (Desk.Met (some r)) E ∧
    Desk.Hushed r a.entered a.last.desk ∧
      Desk.Done r a.last.desk a.last.claimed E a.ended a.response := by
  obtain ⟨E, hentered, _⟩ := a.tended_entered
  obtain ⟨E₁, _, hlaunched⟩ := Lobby.Chat.tended a.others hentered
  have hothers := (Lobby.Chat.talks a.others hentered).hushed hentered.desk.inUse
  obtain ⟨E₂, hlast, hturns, hdone⟩ := a.turns.done hlaunched rfl rfl a.completed
  exact ⟨E₂, hlast, hothers.trans hturns, hdone⟩

/-- What is said after the end of the execution, beginning with the reply. -/
theorem talks_after {E : List String}
    (h : Lobby.Tended (Step.isCivil r) (Desk.Met (some r)) E ⟨a.ended, a.last.guests⟩) :
    Desk.Talks r (a.ended.conclude a.destination a.response).1 a.last.prepared a.later.desk
      a.later.prepared := by
  have hcivil : (a.request.claimed (some r)).all (Step.isCivil r) = true := by
    rw [Request.all_claimed]
    exact a.civil
  obtain ⟨_, hresumed, hfollows⟩ := h.resume a.destination a.response hcivil a.follows
  exact hfollows.trans (Lobby.Chat.talks a.afterwards hresumed)

/-- The moment at which the slot is given back: nothing was said since the user's message, and nobody
was admitted in the last turn so far. -/
structure Finish (finishing : Desk) (attempt : Nat) (outcome : ReadOutcome) (E : List String) :
    Prop where
  tended : Lobby.Tended (Step.isCivil r) (Desk.Met (some r)) E ⟨finishing, a.last.guests⟩
  finish : finishing.finish r attempt outcome = (a.ended, .ended a.response)
  last : a.last.desk.conversation.thread = a.answered.conversation.thread ++ [a.user]
  thread : finishing.conversation.thread = a.answered.conversation.thread ++ [a.user]
  old : ∀ id, finishing.slot.Issued id → a.last.desk.slot.Issued id
  unwrapped : a.ended.slot.Unwrapped

theorem exists_finish : ∃ finishing attempt outcome E, a.Finish finishing attempt outcome E := by
  have law := Desk.custody_met r (some r)
  obtain ⟨_, _, hthread⟩ := a.tended_entered
  obtain ⟨E, hlast, hkept, hE, htended, hwork, hfinish⟩ := a.done
  rename_i finishing attempt outcome E'
  have hfinishing : Lobby.Tended (Step.isCivil r) (Desk.Met (some r)) E' ⟨finishing, a.last.guests⟩ :=
    ⟨htended, fun j hj => (hlast.guests j hj).mono hE⟩
  obtain ⟨E'', hE', hended, _⟩ := htended.finish law (.inr rfl) attempt outcome
  obtain ⟨holds, hwrites⟩ :=
    Desk.finish_of_completed (Desk.manner_talks r) htended.behaves hfinish a.completed
  have hmoved : (finishing.moved (.complete r)).InUse r := htended.inUse.moved holds
  rw [hfinish] at hended
  -- ids are not issued twice up to the end, hence not before either
  have hunended : a.ended.slot.Unwrapped := by
    have hq := Desk.quiet_conclude a.ended a.destination a.response
    have hafter := a.talks_after ⟨hended, fun j hj => (hfinishing.guests j hj).mono hE'⟩
    have hle := (hafter.path (hended.inUse.quiet hq)).tokens_le
    rw [hq.slot] at hle
    exact Nat.le_trans hle a.unwrapped
  have hun : finishing.slot.Unwrapped :=
    Desk.unwrapped_of_moved (Nat.le_trans ((hwrites hmoved).path hmoved).tokens_le hunended)
  obtain ⟨hholds, hissued, hsame⟩ := hwork.hush hun holds
  obtain ⟨_, _, hsaid⟩ := hkept.hush (Nat.le_trans hwork.path.tokens_le hun) hholds
  exact ⟨finishing, attempt, outcome, E', {
    tended := hfinishing
    finish := hfinish
    last := hsaid.trans hthread
    thread := hsame.trans (hsaid.trans hthread)
    old := fun id hid => hid.before (hlast.desk.custody.known.reach.counted Slot.counted_new)
      hwork.path.tokens_le hun hissued
    unwrapped := hunended }⟩

/-- A history writer that calls nobody back says nothing. -/
theorem silent_of_mute (h : ∀ w, a.ended.setup.history = some w → w.all Step.isMute = true) :
    a.Silent := by
  obtain ⟨finishing, attempt, outcome, E, hf⟩ := a.exists_finish
  have hset := (Desk.indoors_finish finishing r attempt outcome).setup
  rw [hf.finish] at hset
  have hstill := Desk.still_finish (d := finishing) (fun w hw => h w (hset ▸ hw)) r attempt outcome
  rw [hf.finish] at hstill
  exact hstill.thread.trans hf.thread

/-- Nothing is said by others up to the last turn of a request that is completed. Whoever is admitted
afterwards hears its reply, if nothing was said in the last turn either; and this is so wherever
submissions follow directives, for they are prepared later. -/
theorem reply_heard :
    a.last.desk.conversation.thread = a.answered.conversation.thread ++ [a.user] ∧
      (a.ended.setup.delegates = true ∨ a.Silent → a.Heard) := by
  obtain ⟨finishing, attempt, outcome, E, hf⟩ := a.exists_finish
  have hdesk := hf.tended.desk
  obtain ⟨holds, hwrites, hset, hsilent⟩ := Desk.finish_of_completed
    ((Desk.manner_talks r).and (Desk.manner_silent r)) hdesk.behaves hf.finish a.completed
  have hmoved : (finishing.moved (.complete r)).InUse r := hdesk.inUse.moved holds
  refine ⟨hf.last, fun hquiet c hc hnew => ?_⟩
  have hend : a.ended.conversation.thread = a.answered.conversation.thread ++ [a.user] := by
    rcases hquiet with hdelegates | h
    · rw [hsilent (hset ▸ hdelegates)]
      exact hf.thread
    · exact h
  -- where nothing was said nothing was prepared, hence what is to be sent now was admitted before
  have hold : ∀ c ∈ a.last.prepared ++ a.ended.sendings, a.last.desk.slot.Issued c.requestId := by
    intro c hc
    refine hf.old _ (hf.tended.issued_sendings c ?_)
    refine List.mem_append.2 ((List.mem_append.1 hc).imp_right fun hc => ?_)
    refine (((hwrites hmoved).speech hmoved hf.unwrapped).heeds c hc).resolve_right fun ⟨_, hlt⟩ => ?_
    have hstill : a.ended.conversation.thread = finishing.conversation.thread :=
      hend.trans hf.thread.symm
    exact absurd hlt (by rw [hstill]; exact Nat.lt_irrefl _)
  obtain ⟨E', hE, hended, _⟩ := hdesk.finish (Desk.custody_met r (some r)) (.inr rfl) attempt outcome
  have hanswers := Desk.goesOn_finish finishing ⟨r, a.draft, .claimed⟩ attempt outcome
  rw [hf.finish] at hended hanswers
  have hafter := a.talks_after ⟨hended, fun j hj => (hf.tended.guests j hj).mono hE⟩
  have hq := Desk.quiet_conclude a.ended a.destination a.response
  have hreply := Desk.thread_conclude (d := a.ended) hanswers a.completed a.spoken
    hended.custody.threaded a.destination
  have hheeds := (hafter.speech (hended.inUse.quiet hq) a.unwrapped).heeds c
    (List.mem_append_right _ (List.mem_append_left _ hc))
  rw [hq.sendings] at hheeds
  rcases hheeds with hc | ⟨hc, _⟩
  · exact absurd (hold c hc) hnew
  · rw [hreply, hend, List.append_assoc] at hc
    exact (List.suffix_append _ _).isInfix.trans hc

/-- The history writer submits a request while the reply of another one is stored. -/
def interrupted (delegates : Bool) : Answered "req-1" :=
  let submit : Call := .mk "submit" (.submit (.mk "b" [] none none ∅) "k2" "h2")
  let setup : Setup := {
    settings := { threadEnabled := true }
    history := some (.mk [submit] (.ok none))
    delegates := delegates }
  let replies : List Reply := [⟨[], [.chunk "hi"]⟩, ⟨[], [.fail (.transport "reset")]⟩]
  let request : Request := .mk "a" [] none none ∅
  let claimed := ((Desk.opened setup replies true).claim "k1").1
  let ready := claimed.ready request "req-1" []
  let entered := (ready.1.enter ready.2).1
  let draft := (ready.1.enter ready.2).2.1
  let ended := (entered.execute ⟨"req-1", draft, .claimed⟩).1
  let response : Response := ⟨"req-1", .ofText .assistant "hi" (.ofMillis 0), .completed⟩
  let sequel : Sequel :=
    if delegates then .delegate (request.claimed (some "req-1")) true else .conclude
  let resumed := Lobby.resume ⟨entered, []⟩ (ended.proceed .default sequel (.ended response))
  { opened := ⟨Desk.opened setup replies true, []⟩
    asked := ⟨claimed, []⟩
    launched := ⟨entered, []⟩
    last := ⟨entered, []⟩
    later := ⟨resumed.desk.turnOfJob 0, resumed.guests⟩
    claimed := claimed
    answered := claimed
    entered := entered
    ended := ended
    setup := setup
    replies := replies
    reporting := true
    source := "k1"
    request := request
    parts := []
    draft := draft
    response := response
    destination := .default
    sequel := sequel
    threaded := rfl
    behaves := ⟨by rintro _ ⟨⟩; rfl, by cases delegates <;> decide⟩
    before := .submission .refl
    claim := Prod.ext rfl (by cases delegates <;> decide +kernel)
    waits := .refl
    civil := rfl
    gathers := rfl
    entry := Prod.ext rfl (Prod.ext rfl (by cases delegates <;> decide +kernel))
    others := .refl
    turns := .last (Desk.execute_of_respond (by cases delegates <;> decide +kernel))
    completed := rfl
    spoken := by decide +kernel
    follows := by cases delegates <;> simp [sequel]
    afterwards := .single (.job 0)
    unwrapped := by
      rw [Slot.Unwrapped]
      cases delegates <;> decide +kernel }

/-- The second request is not admitted before the last turn of the first one. -/
theorem not_issued_interrupted (delegates : Bool) :
    ¬ (interrupted delegates).last.desk.slot.Issued "req-2" := by
  have hl : (interrupted delegates).last.desk.slot.tokens.length = 2 := by
    cases delegates <;> decide +kernel
  rintro ⟨n, k, hn, hnk, hk, -, he⟩
  obtain rfl : n = 1 := by omega
  revert he
  decide +kernel

/-- Where submissions follow directives, the request that the history writer submits hears the reply. -/
theorem reply_heard_of_delegates :
    let a := interrupted true
    a.Heard ∧ ¬ a.last.desk.slot.Issued "req-2" ∧
      a.later.desk.calls.map (fun c => (c.requestId, c.messages.map Message.text)) =
        [("req-2", ["a", "hi", "b"]), ("req-1", ["a"])] := by
  refine ⟨(interrupted true).reply_heard.2 (.inl ?_), not_issued_interrupted true, ?_⟩ <;>
    decide +kernel

/-- Where they do not, it is prepared before the reply is said. -/
theorem not_heard_of_writer :
    let a := interrupted false
    ¬ a.Heard ∧ ¬ a.last.desk.slot.Issued "req-2" ∧
      a.later.desk.calls.map (fun c => (c.requestId, c.messages.map Message.text)) =
        [("req-2", ["a", "b"]), ("req-1", ["a"])] := by
  intro a
  have hcalls : a.later.desk.calls.map (fun c => (c.requestId, c.messages.map Message.text)) =
      [("req-2", ["a", "b"]), ("req-1", ["a"])] := by decide +kernel
  refine ⟨fun h => ?_, not_issued_interrupted false, hcalls⟩
  have hmem : ("req-2", ["a", "b"]) ∈
      a.later.desk.calls.map fun c => (c.requestId, c.messages.map Message.text) := by simp [hcalls]
  obtain ⟨c, hc, he⟩ := List.mem_map.1 hmem
  obtain ⟨hid, htexts⟩ := Prod.mk.inj he
  have hpart := (h c hc (hid ▸ not_issued_interrupted false)).map Message.text
  have hsaid : [a.user, a.response.message].map Message.text = ["a", "hi"] := by decide +kernel
  rw [htexts, hsaid] at hpart
  revert hpart
  decide

end Answered

end PromptDesk
