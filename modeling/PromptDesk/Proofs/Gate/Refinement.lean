import PromptDesk.Proofs.Gate.Protocol

/-! The coarse status of the request that the slot names is what the events attempted for it since
its claim make of a pending one. An event that the slot refuses is one that leaves the status as it
is, so refused attempts count like all others. -/
namespace PromptDesk

open Slot (Move)

/-- Claims, owned events, and retries of whatever request there is. -/
def Command.isAttempt : Command → Bool
  | .gate (.claim _) | .slot (.beginStreamFor _) | .slot (.completeFor _) | .slot (.failFor _ _)
  | .slot (.cancelFor _) | .slot (.retry none) => true
  | _ => false

namespace Exchange

/-- The event of the coarse status that is attempted, with the request that it is attempted for. -/
def attempt? (x : Exchange) : Option (String × Lifecycle.Event) :=
  match x.command with
  | .slot (.beginStreamFor id) => some (id, .streamStart)
  | .slot (.completeFor id) => some (id, .complete)
  | .slot (.failFor id _) => some (id, .error)
  | .slot (.cancelFor id) => some (id, .cancel)
  | .slot (.retry none) => x.before.slot.state.requestId.map fun id => (id, .retry)
  | _ => none

/-- The event that is attempted for one request. -/
def attemptFor? (x : Exchange) (id : String) : Option Lifecycle.Event :=
  x.attempt?.bind fun a => if a.1 = id then some a.2 else none

/-- Only a request that failed or was cancelled is tried again. -/
def isDue (x : Exchange) : Bool :=
  match x.command with
  | .slot (.retry none) =>
    x.before.slot.state.phase = .error || x.before.slot.state.phase = .cancelled
  | _ => true

end Exchange

namespace PhaseState

/-- The request was sent, and nobody asked for its cancellation while it is being sent. -/
structure Underway (s : PhaseState) : Prop where
  sent : s.lifecycle ≠ .pending
  wanted : s.phase = .sending → s.cancelRequested = false

theorem sending_or_streaming {s : PhaseState} (h : s.Underway) (hf : s.isInFlight = true) :
    s.phase = .sending ∨ s.phase = .streaming := by
  have hs := h.sent
  cases hp : s.phase with
  | sending => exact .inl rfl
  | streaming => exact .inr rfl
  | idle | listening | transcribing | confirming => simp [lifecycle, hp, Phase.lifecycle] at hs
  | done | error | cancelled => simp [isInFlight, hp, Phase.isInFlight] at hf

theorem lifecycle_of_ended {s : PhaseState} (h : s.Underway) (hf : s.isInFlight = false) :
    s.lifecycle = .completed ∨ s.lifecycle = .errored ∨ s.lifecycle = .cancelled := by
  have hs := h.sent
  cases hp : s.phase with
  | done | error | cancelled => simp [lifecycle, hp, Phase.lifecycle]
  | idle => simp [lifecycle, hp, Phase.lifecycle] at hs
  | listening | transcribing | confirming | sending | streaming =>
    simp [isInFlight, hp, Phase.isInFlight] at hf

end PhaseState

namespace Slot.Move

/-- The event of the coarse status that a move stands for. -/
def event : Move → Lifecycle.Event
  | send _ => .start
  | stream _ => .streamStart
  | complete _ => .complete
  | fail _ _ => .error
  | cancel _ => .cancel

theorem underway_result (m : Move) (s : Slot) : (m.result s).Underway where
  sent := by cases m <;> simp [result, PhaseState.lifecycle, Phase.lifecycle]
  wanted h := by cases m <;> simp_all [result]

variable {m : Move} {s : Slot}

/-- A move that is made moves the coarse status by its event. -/
theorem lifecycle_of_allowed (h : s.state.Underway) (ha : m.Allowed s.state)
    (hm : ∀ id, m ≠ send id) : (m.result s).lifecycle = s.state.lifecycle.next m.event := by
  have hf := (PhaseState.holds_iff.1 (ha.holds_target hm)).2
  rcases PhaseState.sending_or_streaming h hf with hp | hp
  · cases m with
    | send id => exact absurd rfl (hm id)
    | stream id | complete id | fail id error | cancel id =>
      rw [PhaseState.lifecycle, PhaseState.lifecycle, hp]
      rfl
  · cases m with
    | send id => exact absurd rfl (hm id)
    | stream id | complete id | fail id error | cancel id =>
      rw [PhaseState.lifecycle, PhaseState.lifecycle, hp]
      rfl

/-- The coarse status is not moved by the event of a move that is refused. -/
theorem lifecycle_of_refused (h : s.state.Underway) (hid : s.state.requestId = some (m.target s))
    (ha : ¬ m.Allowed s.state) : s.state.lifecycle.next m.event = s.state.lifecycle := by
  cases hf : s.state.isInFlight with
  | false =>
    rcases PhaseState.lifecycle_of_ended h hf with he | he | he
    · rw [he]
      cases m with
      | send id => exact absurd trivial ha
      | stream id | complete id | fail id error | cancel id => rfl
    · rw [he]
      cases m <;> rfl
    · rw [he]
      cases m <;> rfl
  | true =>
    have hh : s.state.holds (m.target s) = true := PhaseState.holds_iff.2 ⟨hid, hf⟩
    cases m with
    | send id => exact absurd trivial ha
    | complete id | fail id error | cancel id => exact absurd hh ha
    | stream id =>
      rcases PhaseState.sending_or_streaming h hf with hp | hp
      · exact absurd ⟨hh, hp, h.wanted hp⟩ ha
      · rw [PhaseState.lifecycle, hp]
        rfl

end Slot.Move

/-- The status that the events attempted for a request since its latest claim make of a pending
one. -/
def Traced (log : List Exchange) (id : String) (status : Lifecycle) : Prop :=
  ∃ l₁ x l₂, log = l₁ ++ x :: l₂ ∧ x.claimed? = some id ∧ (∀ z ∈ l₂, z.claimed? = none) ∧
    status = (Lifecycle.Event.start :: l₂.filterMap (·.attemptFor? id)).foldl .next .pending

theorem Traced.append {log : List Exchange} {id : String} {status : Lifecycle} {e : Exchange}
    (h : Traced log id status) (hc : e.claimed? = none) :
    Traced (log ++ [e]) id ((e.attemptFor? id).elim status status.next) := by
  obtain ⟨l₁, x, l₂, rfl, hx, hn, rfl⟩ := h
  refine ⟨l₁, x, l₂ ++ [e], by simp, hx, ?_, ?_⟩
  · intro z hz
    rcases List.mem_append.1 hz with hz | hz
    · exact hn z hz
    · rwa [List.mem_singleton.1 hz]
  · cases ha : e.attemptFor? id with
    | none => simp [List.filterMap_append, ha]
    | some event => simp [List.filterMap_append, ha]

/-- What a log tells about the slot that it leads to: the request that the slot names is underway,
and its status can be traced back to its claim. -/
structure Tracing (log : List Exchange) (s : Slot) : Prop where
  closed : s.closed = false
  underway : ∀ id, s.state.requestId = some id → s.state.Underway
  traced : ∀ id, s.state.requestId = some id → Traced log id s.state.lifecycle

namespace Tracing

variable {log : List Exchange} {d : Desk}

/-- What changes nothing about the slot, and is no attempt that would. -/
theorem stays {e : Exchange} (h : Tracing log e.before.slot) (hs : e.after.slot = e.before.slot)
    (hc : e.claimed? = none)
    (ha : ∀ id, e.before.slot.state.requestId = some id → ∀ event, e.attemptFor? id = some event →
      e.before.slot.state.lifecycle.next event = e.before.slot.state.lifecycle) :
    Tracing (log ++ [e]) e.after.slot := by
  rw [hs]
  refine ⟨h.closed, h.underway, fun id hid => ?_⟩
  have ht := (h.traced id hid).append hc
  cases hev : e.attemptFor? id with
  | none =>
    rw [hev] at ht
    exact ht
  | some event =>
    rw [hev, Option.elim_some, ha id hid event hev] at ht
    exact ht

/-- What is attempted for the request of the slot, and moves its status. -/
theorem moves {e : Exchange} (event : Lifecycle.Event) (h : Tracing log e.before.slot)
    (hs : e.after.slot.closed = false) (hu : e.after.slot.state.Underway)
    (hid : e.after.slot.state.requestId = e.before.slot.state.requestId) (hc : e.claimed? = none)
    (ha : ∀ id, e.before.slot.state.requestId = some id → e.attemptFor? id = some event)
    (hl : ∀ id, e.before.slot.state.requestId = some id →
      e.after.slot.state.lifecycle = e.before.slot.state.lifecycle.next event) :
    Tracing (log ++ [e]) e.after.slot := by
  refine ⟨hs, fun _ _ => hu, fun id h' => ?_⟩
  rw [hid] at h'
  have ht := (h.traced id h').append hc
  rw [ha id h', Option.elim_some, ← hl id h'] at ht
  exact ht

/-- An owned event is made or refused; either way its attempt tells what became of the status. -/
theorem owned {c : Command} (m : Move) (yes : PhaseState → Answer) (no : Answer)
    (h : Tracing log d.slot) (ho : d.obey c = d.owned (d.slot.move? m) yes no)
    (hm : ∀ id, m ≠ .send id) (hc : (Exchange.mk d c).claimed? = none)
    (ha : (Exchange.mk d c).attempt? = some (m.target d.slot, m.event)) :
    Tracing (log ++ [⟨d, c⟩]) (d.obey c).1.slot := by
  rcases d.owned_cases m yes no with ⟨hallowed, he⟩ | ⟨hrefused, he⟩
  · have hid := (PhaseState.holds_iff.1 (hallowed.holds_target hm)).1
    have hafter : (Exchange.mk d c).after.slot = m.after d.slot := by
      rw [Exchange.after, ho, he]
      rfl
    refine moves (e := ⟨d, c⟩) m.event h ?_ ?_ ?_ hc ?_ ?_
    · rw [hafter]
      exact h.closed
    · rw [hafter]
      exact m.underway_result d.slot
    · rw [hafter, hid]
      exact PhaseState.isFor_iff.1 (by simp)
    · intro id h'
      obtain rfl := Option.some.inj (hid.symm.trans h')
      simp [Exchange.attemptFor?, ha]
    · intro id h'
      rw [hafter]
      exact Move.lifecycle_of_allowed (h.underway id h') hallowed hm
  · have hafter : (Exchange.mk d c).after.slot = d.slot := by rw [Exchange.after, ho, he]
    refine stays (e := ⟨d, c⟩) h hafter hc ?_
    intro id hid event hev
    rw [Exchange.attemptFor?, ha, Option.bind_some, Option.ite_none_right_eq_some] at hev
    obtain ⟨rfl, hev⟩ := hev
    obtain rfl := Option.some.inj hev
    exact Move.lifecycle_of_refused (h.underway _ hid) hid hrefused

/-- A claim that is let through starts a new trace; one that is rejected is not noticed. -/
theorem claim (h : Tracing log d.slot) (source : String) :
    Tracing (log ++ [⟨d, .gate (.claim source)⟩]) (d.obey (.gate (.claim source))).1.slot := by
  cases hf : d.slot.state.isInFlight with
  | true =>
    obtain ⟨d', reason, message, hclaim, hq⟩ := Desk.claim_of_inFlight h.closed hf source
    have ho : d.obey (.gate (.claim source)) = (d', .admission (.rejected reason message)) := by
      simp [Desk.obey, Desk.obeyGate, hclaim]
    refine stays (e := ⟨d, .gate (.claim source)⟩) h ?_ ?_ ?_
    · rw [Exchange.after, ho]
      exact hq.slot
    · simp [Exchange.claimed?, Exchange.answer, ho]
    · intro id hid event hev
      cases hev
  | false =>
    obtain ⟨d', hclaim, hq⟩ := Desk.claim_of_free h.closed hf source
    have ho : d.obey (.gate (.claim source)) = (d', .admission (.allowed (some d.slot.nextId))) := by
      simp [Desk.obey, Desk.obeyGate, hclaim]
    have hafter : (d.obey (.gate (.claim source))).1.slot = (Move.send none).after d.slot := by
      rw [ho]
      exact hq.slot
    rw [hafter]
    refine ⟨h.closed, fun _ _ => Move.underway_result (.send none) d.slot, fun id hid => ?_⟩
    refine ⟨log, ⟨d, .gate (.claim source)⟩, [], rfl, ?_, by simp, rfl⟩
    obtain rfl : d.slot.nextId = id := Option.some.inj hid
    simp [Exchange.claimed?, Exchange.answer, ho]

/-- The request that failed or was cancelled is sent again. -/
theorem retry (h : Tracing log d.slot)
    (hp : d.slot.state.phase = .error ∨ d.slot.state.phase = .cancelled) :
    Tracing (log ++ [⟨d, .slot (.retry none)⟩]) (d.obey (.slot (.retry none))).1.slot := by
  refine moves (e := ⟨d, .slot (.retry none)⟩) .retry h h.closed ?_ rfl rfl ?_ ?_
  · exact ⟨nofun, fun _ => rfl⟩
  · intro id hid
    have hid' : d.slot.state.requestId = some id := hid
    simp [Exchange.attemptFor?, Exchange.attempt?, hid']
  · intro id hid
    show Lifecycle.running = d.slot.state.lifecycle.next .retry
    rcases hp with hp | hp <;> rw [PhaseState.lifecycle, hp] <;> rfl

/-- One exchange. -/
theorem append {c : Command} (h : Tracing log d.slot) (hc : c.isAttempt = true)
    (hd : (Exchange.mk d c).isDue = true) : Tracing (log ++ [⟨d, c⟩]) (d.obey c).1.slot := by
  cases c with
  | gate c =>
    cases c with
    | claim source => exact h.claim source
    | _ => cases hc
  | slot c =>
    cases c with
    | beginStreamFor id =>
      exact owned (.stream id) (fun _ => .flag true) (.flag false) h rfl nofun rfl rfl
    | completeFor id => exact owned (.complete id) .phase .nothing h rfl nofun rfl rfl
    | failFor id error => exact owned (.fail id error) .phase .nothing h rfl nofun rfl rfl
    | cancelFor id => exact owned (.cancel id) .phase .nothing h rfl nofun rfl rfl
    | retry id =>
      cases id with
      | none => exact h.retry (by simpa [Exchange.isDue] using hd)
      | some id => cases hc
    | _ => cases hc
  | _ => cases hc

end Tracing

namespace Desk

variable {d : Desk} {cs : List Command}

theorem tracing (hc : d.slot.closed = false) (hn : d.slot.state.requestId = none)
    (hcs : ∀ c ∈ cs, c.isAttempt = true) (hdue : ∀ x ∈ d.exchanges cs, x.isDue = true) :
    Tracing (d.exchanges cs) (d.afterEach cs).slot := by
  induction cs using List.reverseRecOn with
  | nil =>
    refine ⟨hc, fun id hid => ?_, fun id hid => ?_⟩
    · exact absurd (hn.symm.trans hid) nofun
    · exact absurd (hn.symm.trans hid) nofun
  | append_singleton cs c ih =>
    rw [exchanges_append] at hdue ⊢
    rw [afterEach_append]
    refine Tracing.append (ih ?_ ?_) (hcs c (by simp)) (hdue _ (by simp))
    · exact fun c hc => hcs c (List.mem_append_left _ hc)
    · exact fun x hx => hdue x (List.mem_append_left _ hx)

/-- Claims, owned events and retries, in whatever order they come: while the slot names a request,
its coarse status is what the events attempted for that request since its claim make of it, those
that were refused among them. -/
theorem lifecycle_exchanges {id : String} (hc : d.slot.closed = false)
    (hn : d.slot.state.requestId = none) (hcs : ∀ c ∈ cs, c.isAttempt = true)
    (hdue : ∀ x ∈ d.exchanges cs, x.isDue = true) (hid : (d.afterEach cs).slot.state.requestId = some id) :
    Traced (d.exchanges cs) id (d.afterEach cs).slot.state.lifecycle :=
  (tracing hc hn hcs hdue).traced id hid

/-- The first request is cancelled and sent again; what comes too late for it is refused, and so is
what is meant for the second before its time. -/
theorem lifecycle_retried :
    let d : Desk := {}
    let cs : List Command :=
      [.slot (.completeFor "req-1"), .gate (.claim "a"), .slot (.beginStreamFor "req-1"),
        .slot (.cancelFor "req-1"), .slot (.failFor "req-1" "late"), .slot (.retry none),
        .gate (.claim "b"), .slot (.completeFor "req-2"), .slot (.completeFor "req-1"),
        .slot (.cancelFor "req-1")]
    (d.afterEach cs).slot.state.phase = .done ∧
      Traced (d.exchanges cs) "req-1" (d.afterEach cs).slot.state.lifecycle := by
  exact ⟨by decide +kernel, lifecycle_exchanges rfl rfl (by decide) (by decide +kernel)
    (by decide +kernel)⟩

end Desk

end PromptDesk
