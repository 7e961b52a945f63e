import PromptDesk.Proofs.Desk.Indoors
import PromptDesk.Proofs.Desk.Others

/-! What is said beside a request. Others add messages to the thread when they prepare requests and when
these are completed. A request is prepared and sent at once, hence nothing is said by others as long as
a request keeps the slot, and whatever they prepare has all that was said before. -/
namespace PromptDesk

open Slot (Move)

/-- A command that changes the thread by hand. -/
def Command.isDictation : Command → Bool
  | .conversation (.push _) | .conversation .clear | .draft (.reply _ _) => true
  | _ => false

/-- A step that is considerate of a request, and by which nothing is said but in requests. -/
def Step.isCivil (r : String) : Step → Bool
  | .command c => c.isConsiderate r && !c.isDictation
  | .submit _ _ _ | .logEntry _ _ => true
  | .run _ _ | .dispatch _ _ _ | .prepare _ _ _ => false

theorem Step.isConsiderate_of_isCivil {r : String} {s : Step} (h : s.isCivil r = true) :
    s.isConsiderate r = true := by
  cases s with
  | command c => exact (Bool.and_eq_true _ _ ▸ h : _ ∧ _).1
  | submit | logEntry => rfl
  | run | dispatch | prepare => cases h

/-- What a task is to send, with the messages that were prepared for it. -/
def Task.prepared? : Task → Option TransportRequest
  | .execution e _ => some e.call
  | _ => none

def Job.prepared? (j : Job) : Option TransportRequest := j.task.bind Task.prepared?

theorem Job.prepared?_of_task {j : Job} {t : Task} (h : j.task = some t) :
    j.prepared? = t.prepared? := by
  rw [prepared?, h]
  rfl

theorem Task.prepared?_of_isPlain {t : Task} (h : t.isPlain = true) : t.prepared? = none := by
  cases t <;> first | rfl | cases h

theorem Job.prepared?_of_isPlain {j : Job} (h : j.isPlain = true) : j.prepared? = none := by
  rw [isPlain, Bool.and_eq_true] at h
  cases ht : j.task with
  | none => simp [prepared?, ht]
  | some t =>
    rw [ht, Option.all_some] at h
    simp [prepared?, ht, Task.prepared?_of_isPlain h.2]

namespace Desk

variable {r : String} {d d' d'' : Desk} {K K' K'' : List TransportRequest}

/-- Everything that the transport was called with, and everything that jobs are to send. -/
def sendings (d : Desk) : List TransportRequest := d.calls ++ d.jobs.filterMap Job.prepared?

theorem Quiet.sendings (h : Quiet d d') : d'.sendings = d.sendings := by
  obtain ⟨l, hl, hp⟩ := h.jobs
  have hn : l.filterMap Job.prepared? = [] :=
    List.filterMap_eq_nil_iff.2 fun j hj => Job.prepared?_of_isPlain (hp j hj)
  rw [Desk.sendings, h.calls, hl, List.filterMap_append, hn, List.append_nil, Desk.sendings]

theorem sendings_dispatch (d : Desk) (id : Option String) (t : Task) (owner : Option String) :
    (d.dispatch id t owner).1.sendings = d.sendings ++ t.prepared?.toList := by
  have hj : [Job.mk (some t) (some d.handles.length) owner].filterMap Job.prepared? =
      t.prepared?.toList := by
    cases h : t.prepared? <;> simp [Job.prepared?, h]
  rw [sendings, sendings, List.append_assoc, ← hj, ← List.filterMap_append]
  rfl

/-- What was said between two moments, each with some requests at hand that are prepared: the thread
grew, but not while a request held the slot, when nobody else was admitted either; and whatever came to
be prepared has all that was said before. -/
structure Speech (r : String) (d : Desk) (K : List TransportRequest) (d' : Desk)
    (K' : List TransportRequest) : Prop where
  grows : d.conversation.thread <+: d'.conversation.thread
  hush : d'.slot.state.holds r = true →
    d.slot.state.holds r = true ∧ d'.slot.issued = d.slot.issued ∧
      d'.conversation.thread = d.conversation.thread
  heeds : ∀ c ∈ K' ++ d'.sendings, c ∈ K ++ d.sendings ∨ d.conversation.thread <:+: c.messages ∧
    d.conversation.thread.length < d'.conversation.thread.length

namespace Speech

/-- Nothing is said. -/
theorem of_thread (ht : d'.conversation.thread = d.conversation.thread)
    (hs : d'.slot.state.holds r = true →
      d.slot.state.holds r = true ∧ d'.slot.issued = d.slot.issued)
    (hc : ∀ c ∈ K' ++ d'.sendings, c ∈ K ++ d.sendings) : Speech r d K d' K' where
  grows := ht ▸ List.prefix_rfl
  hush hr := ⟨(hs hr).1, (hs hr).2, ht⟩
  heeds c hcm := .inl (hc c hcm)

theorem trans (h : Speech r d K d' K') (h' : Speech r d' K' d'' K'') : Speech r d K d'' K'' where
  grows := h.grows.trans h'.grows
  hush hr := by
    obtain ⟨hr', hi', ht'⟩ := h'.hush hr
    obtain ⟨hr₀, hi, ht⟩ := h.hush hr'
    exact ⟨hr₀, hi'.trans hi, ht'.trans ht⟩
  heeds c hc := by
    have hle := h.grows.length_le
    have hle' := h'.grows.length_le
    rcases h'.heeds c hc with hc | ⟨hc, hlt⟩
    · exact (h.heeds c hc).imp_right fun ⟨hc, hlt⟩ => ⟨hc, by omega⟩
    · exact .inr ⟨h.grows.isInfix.trans hc, by omega⟩

/-- More may be at hand. -/
theorem beside (h : Speech r d K d' K') (L : List TransportRequest) :
    Speech r d (L ++ K) d' (L ++ K') where
  grows := h.grows
  hush := h.hush
  heeds c hc := by
    rw [List.append_assoc, List.mem_append] at hc ⊢
    rcases hc with hc | hc
    · exact .inl (.inl hc)
    · exact (h.heeds c hc).imp_left .inr

theorem mono (h : Speech r d K d' K') {L L' : List TransportRequest}
    (hK : ∀ c ∈ K, c ∈ L ++ d.sendings) (hK' : ∀ c ∈ L', c ∈ K' ++ d'.sendings) :
    Speech r d L d' L' where
  grows := h.grows
  hush := h.hush
  heeds c hc := by
    have hc' : c ∈ K' ++ d'.sendings := by
      rcases List.mem_append.1 hc with hc | hc
      · exact hK' c hc
      · exact List.mem_append_right _ hc
    refine (h.heeds c hc').imp_left fun hc => ?_
    rcases List.mem_append.1 hc with hc | hc
    · exact hK c hc
    · exact List.mem_append_right _ hc

end Speech

/-- The desk is in use with its thread, a request got its id here, and everybody is civil. -/
structure InUse (r : String) (d : Desk) : Prop where
  sound : d.slot.Sound
  issued : d.slot.Issued r
  labelled : d.Labelled
  behaves : d.Behaves (Step.isCivil r)
  threaded : d.setup.settings.threadEnabled = true

/-- The desk stays in use, and as long as no id is issued twice something may be said. -/
structure Talks (r : String) (d : Desk) (K : List TransportRequest) (d' : Desk)
    (K' : List TransportRequest) : Prop where
  inUse : d.InUse r → d'.InUse r
  path : d.InUse r → Slot.Path (fun _ _ => True) d.slot d'.slot
  speech : d.InUse r → d'.slot.Unwrapped → Speech r d K d' K'

theorem InUse.quiet (h : d.InUse r) (hq : d.Quiet d') : d'.InUse r where
  sound := hq.slot ▸ h.sound
  issued := hq.slot ▸ h.issued
  labelled := hq.labelled h.labelled
  behaves := hq.behaves h.behaves
  threaded := by rw [hq.setup]; exact h.threaded

theorem InUse.moved (h : d.InUse r) {m : Move} (ha : m.Allowed d.slot.state) :
    (d.moved m).InUse r where
  sound := h.sound.after ha
  issued := h.issued.after m
  labelled := h.labelled
  behaves := ⟨h.behaves.history, h.behaves.replies⟩
  threaded := h.threaded

/-- A move that does not send a request does not give it the slot, and while the request keeps the
slot no id is issued. -/
theorem holds_of_moved {m : Move} (ha : m.Allowed d.slot.state) (hu : Slot.Unsent r d.slot m)
    (h : (d.moved m).slot.state.holds r = true) :
    d.slot.state.holds r = true ∧ (d.moved m).slot.issued = d.slot.issued := by
  constructor
  · by_contra hn
    have hf := Slot.not_isFor_result hu ha (by simpa using hn)
    rw [moved_slot, Slot.Move.after_state, Slot.not_holds_of_not_isFor hf] at h
    cases h
  · cases m with
    | send id =>
      have hne : id.getD d.slot.nextId ≠ r := hu
      simp [PhaseState.holds, hne, Move.target] at h
    | stream | complete | fail | cancel => rfl

namespace Talks

theorem trans (h : Talks r d K d' K') (h' : Talks r d' K' d'' K'') : Talks r d K d'' K'' where
  inUse hd := h'.inUse (h.inUse hd)
  path hd := (h.path hd).trans (h'.path (h.inUse hd))
  speech hd hb :=
    have hp := h'.path (h.inUse hd)
    (h.speech hd (Nat.le_trans hp.tokens_le hb)).trans (h'.speech (h.inUse hd) hb)

theorem beside (h : Talks r d K d' K') (L : List TransportRequest) :
    Talks r d (L ++ K) d' (L ++ K') :=
  { h with speech := fun hd hb => (h.speech hd hb).beside L }

theorem mono (h : Talks r d K d' K') {L L' : List TransportRequest}
    (hK : ∀ c ∈ K, c ∈ L ++ d.sendings) (hK' : ∀ c ∈ L', c ∈ K' ++ d'.sendings) :
    Talks r d L d' L' :=
  { h with speech := fun hd hb => (h.speech hd hb).mono hK hK' }

theorem of_quiet (hq : d.Quiet d') (ht : d'.conversation.thread = d.conversation.thread) :
    Talks r d K d' K where
  inUse hd := hd.quiet hq
  path _ := hq.slot ▸ .refl
  speech _ _ := .of_thread ht (fun h => hq.slot ▸ ⟨hq.slot ▸ h, rfl⟩) fun _ hc => hq.sendings ▸ hc

theorem refl (d : Desk) : Talks r d K d K := .of_quiet (.refl d) rfl

theorem of_move {m : Move} (ha : m.Allowed d.slot.state)
    (hu : d.InUse r → (d.moved m).slot.Unwrapped → Slot.Unsent r d.slot m) :
    Talks r d K (d.moved m) K where
  inUse hd := hd.moved ha
  path _ := .single trivial (Slot.move?_of_allowed ha)
  speech hd hb := .of_thread rfl (holds_of_moved ha (hu hd hb)) fun _ hc => hc

theorem failOwned (id : String) (f : Failure) : Talks r d K (d.failOwned id f) K := by
  rcases failOwned_cases (d := d) id f with ⟨hh, h⟩ | ⟨_, h⟩
  · rw [h]
    exact .of_move (m := .fail id f.message) hh fun _ _ => trivial
  · rw [h]
    exact .refl d

/-- What is prepared goes into the background. -/
theorem dispatch (id : String) (t : Task) (owner : Option String) :
    Talks r d t.prepared?.toList (d.dispatch (some id) t owner).1 [] where
  inUse hd := {
    sound := hd.sound
    issued := hd.issued
    labelled :=
      have hpasses : Passes (fun _ _ => True) r d (d.dispatch (some id) t owner).1 :=
        .dispatch d id t owner
      hpasses.labelled hd.labelled
    behaves := ⟨hd.behaves.history, hd.behaves.replies⟩
    threaded := hd.threaded }
  path _ := .refl
  speech _ _ := .of_thread rfl (fun h => ⟨h, rfl⟩) fun c hc => by
    rw [List.nil_append, sendings_dispatch, List.mem_append] at hc
    exact List.mem_append.2 hc.symm

/-- A claim gives the slot to somebody else. -/
theorem claim {source : String} {id : Option String} (hd : d.InUse r)
    (h : d.claim source = (d', .allowed id)) : Talks r d K d' K ∧ id = some d.slot.nextId ∧
      (d'.slot.Unwrapped → d.slot.nextId ≠ r) := by
  obtain ⟨_, hid, hq⟩ := claim_allowed hd.sound.closed h
  have hne : d'.slot.Unwrapped → d.slot.nextId ≠ r := fun hb => by
    rw [hq.slot] at hb
    exact hd.issued.nextId_ne hb.lt_of_send
  have ht : d'.conversation = d.conversation := by
    rw [← conversation_claim d source, h]
  refine ⟨(of_move (m := .send none) trivial fun _ hb => ?_).trans (.of_quiet hq (congrArg _ ht)),
    hid, hne⟩
  exact hd.issued.nextId_ne hb.lt_of_send

end Talks

/-- A request that is prepared has everything that was said. -/
theorem thread_infix_prepare (hd : d.setup.settings.threadEnabled = true) (draft : Draft)
    (prompt : String) (parts : List Part) (hn : draft.begun = false) :
    d.conversation.thread <:+: (d.prepare draft prompt parts).2.messages := by
  obtain ⟨_, _, _, _, _⟩ := draft
  obtain rfl := hn
  refine ⟨(Message.system? d.setup.system d.now).toList,
    d.conversation.queued ++ [.user prompt parts d.now], ?_⟩
  simp [prepare, Draft.fill, Draft.add, Draft.begin, Draft.context, hd]

theorem thread_prepare (hd : d.setup.settings.threadEnabled = true) (draft : Draft) (prompt : String)
    (parts : List Part) : (d.prepare draft prompt parts).1.conversation.thread =
      d.conversation.thread ++ [.user prompt parts d.now] := by
  simp [prepare, hd, Conversation.push]

/-- A request that enters takes the slot, whatever comes of it. -/
theorem enter_eq {draft draft' : Draft} {id : String} {entry : Except String String}
    (hid : draft.requestId = some id) (h : d.enter draft = (d', draft', entry)) :
    (d' = d.withSlot d.slot ∧ d.slot.state.isFor id = true ∨ d' = d.moved (.send (some id))) ∧
      draft'.messages = (draft.begin false).messages ∧ (entry = .ok id ∨ entry = .error id) := by
  rcases enter_cases (d := d) hid with ⟨hf, _, he⟩ | ⟨hf, _, _, he⟩ | ⟨_, he⟩ <;>
    rw [he] at h <;> cases h
  · exact ⟨.inl ⟨rfl, hf⟩, rfl, .inr rfl⟩
  · exact ⟨.inl ⟨rfl, hf⟩, rfl, .inl rfl⟩
  · exact ⟨.inr rfl, rfl, .inl rfl⟩

/-- Another request is prepared and enters at once. -/
theorem Talks.enter {q : Request} {id : String} {parts : List Part} {draft : Draft}
    {entry : Except String String} (hid : q.id = some id) (hne : d.slot.Unwrapped → id ≠ r)
    (h : (d.prepare (d.draftFor q) q.prompt parts).1.enter
      (d.prepare (d.draftFor q) q.prompt parts).2 = (d', draft, entry)) :
    Talks r d [] d' [⟨id, draft.messages⟩] ∧ (entry = .ok id ∨ entry = .error id) ∧
      (d'.slot.Unwrapped → d'.slot.state.holds r = false) := by
  have hq := quiet_prepare d (d.draftFor q) q.prompt parts
  have hbegun : ((d.prepare (d.draftFor q) q.prompt parts).2.begin false).messages =
      (d.prepare (d.draftFor q) q.prompt parts).2.messages := rfl
  have hthread : d.setup.settings.threadEnabled = true →
      d.conversation.thread <:+: (d.prepare (d.draftFor q) q.prompt parts).2.messages ∧
        (d.prepare (d.draftFor q) q.prompt parts).1.conversation.thread =
          d.conversation.thread ++ [.user q.prompt parts d.now] := fun ht =>
    ⟨thread_infix_prepare ht _ _ _ rfl, thread_prepare ht _ _ _⟩
  have hreq : (d.prepare (d.draftFor q) q.prompt parts).2.requestId = some id := hid
  generalize d.prepare (d.draftFor q) q.prompt parts = x at h hq hbegun hthread hreq
  obtain ⟨d₁, draft₁⟩ := x
  obtain ⟨hd', hm, hentry⟩ := enter_eq hreq h
  -- what enters is named by the slot from then on
  have hfor : d'.slot.state.isFor id = true := by
    rcases hd' with ⟨rfl, hf⟩ | rfl
    · exact hf
    · simp [PhaseState.isFor, Move.result]
  have hframe : (d₁.InUse r → d'.InUse r) ∧ Slot.Path (fun _ _ => True) d₁.slot d'.slot ∧
      d'.conversation = d₁.conversation ∧ d'.sendings = d₁.sendings := by
    rcases hd' with ⟨rfl, _⟩ | rfl
    · exact ⟨fun hd => hd.quiet (quiet_withSlot_self d₁), .refl, rfl, rfl⟩
    · exact ⟨fun hd => hd.moved (m := .send (some id)) trivial,
        .single (m := .send (some id)) trivial rfl, rfl, rfl⟩
  obtain ⟨hin, hpath, hconv, hsend⟩ := hframe
  rw [hq.slot] at hpath
  have hlost : d'.slot.Unwrapped → d'.slot.state.holds r = false := fun hb => by
    refine Slot.not_holds_of_not_isFor ?_
    rw [PhaseState.isFor_iff] at hfor
    simp [PhaseState.isFor, hfor, hne (Nat.le_trans hpath.tokens_le hb)]
  refine ⟨⟨fun hd => hin (hd.quiet hq), fun _ => hpath, fun hd hb => ?_⟩, hentry, hlost⟩
  obtain ⟨hpart, hpush⟩ := hthread hd.threaded
  have hthread' : d'.conversation.thread = d.conversation.thread ++ [.user q.prompt parts d.now] := by
    rw [hconv, hpush]
  refine ⟨hthread' ▸ List.prefix_append _ _, fun hr => ?_, fun c hc => ?_⟩
  · rw [hlost hb] at hr
    cases hr
  · rw [hsend, hq.sendings, List.singleton_append, List.mem_cons] at hc
    refine hc.symm.imp (List.mem_append_right _) ?_
    rintro rfl
    exact ⟨by rw [hm, hbegun]; exact hpart, by rw [hthread']; simp⟩

theorem conclude_of_not_completed {response : Response} (h : response.isCompleted = false)
    (destination : Destination) : (d.conclude destination response).1 = d := by
  simp [conclude, h]

theorem sendDraft_of_ok {draft draft' : Draft} {id : String}
    (h : d.enter draft = (d', draft', .ok id)) (sequel : Sequel) : d.sendDraft draft sequel =
      d'.dispatch (some id) (.execution ⟨id, draft', .claimed⟩ sequel) none := by
  rw [sendDraft, h]

/-- A request that is refused its execution says nothing. -/
theorem sendDraft_of_error {draft draft' : Draft} {id : String}
    (h : d.enter draft = (d', draft', .error id)) :
    d'.Quiet (d.sendDraft draft .conclude).1 ∧
      (d.sendDraft draft .conclude).1.conversation = d'.conversation := by
  have hn : (d'.cancelledBeforeStart id).2.isCompleted = false := rfl
  rw [sendDraft, h]
  dsimp only
  have hq := quiet_cancelledBeforeStart d' id
  rw [conclude_of_not_completed hn]
  exact ⟨hq.trans (quiet_settled _ _), rfl⟩

/-- Another request goes into the background. -/
theorem Talks.runInBackground {q : Request} {id : String} (parts : List Part) (hid : q.id = some id)
    (hne : d.slot.Unwrapped → id ≠ r) : Talks r d [] (d.runInBackground q (.ok parts)).1 [] := by
  have hrun : (d.runInBackground q (.ok parts)).1 =
      ((d.prepare (d.draftFor q) q.prompt parts).1.sendDraft
        (d.prepare (d.draftFor q) q.prompt parts).2 .conclude).1 := rfl
  rw [hrun]
  generalize he : (d.prepare (d.draftFor q) q.prompt parts).1.enter
    (d.prepare (d.draftFor q) q.prompt parts).2 = x
  obtain ⟨d₁, draft, entry⟩ := x
  obtain ⟨hto, hentry, _⟩ := Talks.enter hid hne he
  rcases hentry with rfl | rfl
  · rw [sendDraft_of_ok he]
    exact hto.trans (.dispatch id (.execution ⟨id, draft, .claimed⟩ .conclude) none)
  · obtain ⟨hq, hconv⟩ := sendDraft_of_error he
    exact (hto.mono (by simp) (by simp)).trans (.of_quiet hq (congrArg _ hconv))

theorem conversation_withGate (d : Desk) (g : Gate) (state : PhaseState) (source : String)
    (a : Admission) : (d.withGate g state source a).conversation = d.conversation := by
  cases a with
  | allowed _ => rfl
  | rejected reason message =>
    rw [withGate]
    split <;> rfl

theorem conversation_obeySlot (d : Desk) (c : SlotCommand) :
    (d.obeySlot c).1.conversation = d.conversation := by
  have howned : ∀ s? yes no, (d.owned s? yes no).1.conversation = d.conversation :=
    fun s? yes no => by cases s? <;> rfl
  cases c with
  | beginStreamFor | completeFor | failFor | cancelFor => exact howned _ _ _
  | keepTokenFor id under =>
    rw [obeySlot]
    split
    · rfl
    · cases under <;> rfl
  | read | tokenState | trip | checkWatch =>
    rw [obeySlot]
    split <;> rfl
  | _ => rfl

theorem conversation_obeyGate (d : Desk) (c : GateCommand) :
    (d.obeyGate c).1.conversation = d.conversation := by
  cases c with
  | tryBegin | tryBeginCurrent => exact conversation_withGate d _ _ _ _
  | claim source => exact conversation_claim d source
  | exportCounts =>
    simp only [obeyGate, exportCounts]
    split <;> rfl
  | _ => rfl

theorem conversation_obeyBoard (d : Desk) (c : BoardCommand) :
    (d.obeyBoard c).1.conversation = d.conversation := by
  cases c with
  | add | checkWatch =>
    simp only [obeyBoard]
    split <;> rfl
  | nextText name =>
    rw [obeyBoard]
    split
    · split <;> rfl
    · rfl
  | _ => rfl

theorem conversation_cancelCurrent (d : Desk) (source : String) :
    (d.cancelCurrent source).1.conversation = d.conversation := by
  simp only [cancelCurrent]
  split
  · rfl
  · split
    · rfl
    · split
      · split <;> rfl
      · rfl

theorem conversation_cancelHandle (d : Desk) (i : Nat) :
    (d.cancelHandle i).1.conversation = d.conversation := by
  simp only [cancelHandle]
  split
  · rfl
  · split
    · rfl
    · split <;> rfl

theorem conversation_obeyWork (d : Desk) (c : WorkCommand) :
    (d.obeyWork c).1.conversation = d.conversation := by
  have hhandle : ∀ name (f : Nat → Desk × Answer), (∀ i, (f i).1.conversation = d.conversation) →
      (d.withHandle name f).1.conversation = d.conversation := fun name f h => by
    rw [withHandle]
    split
    · exact h _
    · rfl
  cases c with
  | cancelCurrent source => exact conversation_cancelCurrent d source
  | ready | release => rfl
  | view name | present name quiet => exact hhandle name _ fun _ => rfl
  | cancel name => exact hhandle name _ fun i => conversation_cancelHandle d i

/-- Only dictation changes the thread at once. -/
theorem thread_obey (d : Desk) {c : Command} (hc : c.isConsiderate r = true)
    (hn : c.isDictation = false) : (d.obey c).1.conversation.thread = d.conversation.thread := by
  cases c with
  | slot c => exact congrArg _ (conversation_obeySlot d c)
  | gate c => exact congrArg _ (conversation_obeyGate d c)
  | board c => exact congrArg _ (conversation_obeyBoard d c)
  | attempt name c =>
    rw [obey]
    split
    · cases c <;> rfl
    · rfl
  | conversation c =>
    cases c with
    | queue m | view => rfl
    | push m | clear => cases hn
  | work c => exact congrArg _ (conversation_obeyWork d c)
  | draft c =>
    have hdraft : ∀ name (f : Draft → Desk × Answer),
        (∀ draft, (f draft).1.conversation = d.conversation) →
          (d.withDraft name f).1.conversation = d.conversation := fun name f h => by
      rw [withDraft]
      split
      · exact h _
      · rfl
    cases c with
    | new => rfl
    | begin name | add name | messages name => exact congrArg _ (hdraft name _ fun _ => rfl)
    | reply => cases hn
    | send => cases hc

theorem conversation_turnBack (d : Desk) (id : Option String) (m : Mishap) :
    (d.turnBack id m).conversation = d.conversation := by
  cases m with
  | panic payload => rfl
  | failure f =>
    cases id with
    | none => rfl
    | some id =>
      rw [turnBack, giveBack, Desk.failOwned]
      split <;> rfl

/-- What is said by civil steps. -/
theorem manner_talks (r : String) : Manner (Step.isCivil r)
    fun d d' => d.InUse r → Talks r d [] d' [] where
  refl d _ := .refl d
  trans h h' hd := (h hd).trans (h' ((h hd).inUse hd))
  hush hq ht _ := .of_quiet hq ht
  command := by
    intro c hc d hd
    obtain ⟨hc, hn⟩ := Bool.and_eq_true_iff.1 hc
    have ht := thread_obey d hc (by simpa using hn)
    rcases obey_isConsiderate hc hd.labelled hd.sound with hq | ⟨m, ha, ho, hq⟩
    · exact .of_quiet hq ht
    · refine (Talks.of_move ha fun hd hb => ?_).trans (.of_quiet hq ht)
      exact Slot.Working.unsent (.inl ho) hd.issued hb
  delegated := by
    intro d d' source id q hc _ _ hd
    obtain ⟨hto, rfl, _⟩ := Talks.claim hd hc
    exact hto.trans (.dispatch _ (.request q (.delegate q true)) _)
  sent := by
    intro d d' d'' source id q parts hc _ hR hid hd
    obtain ⟨hto, rfl, hne⟩ := Talks.claim hd hc
    have hgather := hR (hto.inUse hd)
    have hle := (hgather.path (hto.inUse hd)).tokens_le
    exact (hto.trans hgather).trans (.runInBackground parts hid fun hb => hne (Nat.le_trans hle hb))
  returned := by
    intro d d' d'' source id hc hR m hd
    obtain ⟨hto, rfl, _⟩ := Talks.claim hd hc
    refine (hto.trans (hR (hto.inUse hd))).trans ?_
    cases m with
    | failure f => exact .failOwned _ f
    | panic payload => exact .refl d''
  started h := by cases h
  noted h := by cases h
  dispatched _ _ _ := rfl

/-- Where submissions follow directives they are prepared later. -/
theorem manner_silent (r : String) : Manner (Step.isCivil r) fun d d' => d'.setup = d.setup ∧
    (d.setup.delegates = true → d'.conversation.thread = d.conversation.thread) where
  refl d := ⟨rfl, fun _ => rfl⟩
  trans h h' := ⟨h'.1.trans h.1, fun hd => (h'.2 (h.1 ▸ hd)).trans (h.2 hd)⟩
  hush hq ht := ⟨hq.setup, fun _ => ht⟩
  command := by
    intro c hc d
    obtain ⟨hc, hn⟩ := Bool.and_eq_true_iff.1 hc
    exact ⟨(indoors_obey d c).setup, fun _ => thread_obey d hc (by simpa using hn)⟩
  delegated := by
    intro d d' source id q hc _ _
    have hset := (indoors_claim d source).setup
    have hconv := conversation_claim d source
    rw [hc] at hset hconv
    exact ⟨hset, fun _ => congrArg _ hconv⟩
  sent := by
    intro d d' d'' source id q parts hc hn hR _
    have hset := (indoors_claim d source).setup
    rw [hc] at hset
    refine ⟨(indoors_runInBackground d'' q _).setup.trans (hR.1.trans hset), fun hd => ?_⟩
    rw [hset, hd] at hn
    cases hn
  returned := by
    intro d d' d'' source id hc hR m
    have hset := (indoors_claim d source).setup
    have hconv := conversation_claim d source
    rw [hc] at hset hconv
    exact ⟨(indoors_turnBack d'' id m).setup.trans (hR.1.trans hset), fun hd => by
      rw [conversation_turnBack, hR.2 (hset ▸ hd), hconv]⟩
  started h := by cases h
  noted h := by cases h
  dispatched _ _ _ := rfl

end Desk

end PromptDesk
