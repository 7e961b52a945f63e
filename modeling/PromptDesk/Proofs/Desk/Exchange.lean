import PromptDesk.Proofs.Desk.Moves

/-! Exchanges between the desk and those who claim, cancel and own requests. What is answered tells
which move the slot made; an answer that tells of none comes with a slot that stayed as it was. -/
namespace PromptDesk

open Slot (Move)

/-- Claims, owned events and cancellations. -/
def Command.isOwned : Command → Bool
  | .gate (.claim _) | .slot (.beginStreamFor _) | .slot (.completeFor _) | .slot (.failFor _ _)
  | .slot (.cancelFor _) | .work (.cancel _) | .work (.cancelCurrent _) => true
  | _ => false

structure Exchange where
  before : Desk
  command : Command

namespace Exchange

def after (x : Exchange) : Desk := (x.before.obey x.command).1

def answer (x : Exchange) : Answer := (x.before.obey x.command).2

def claimed? (x : Exchange) : Option String :=
  match x.command, x.answer with
  | .gate (.claim _), .admission (.allowed id) => id
  | _, _ => none

/-- The request that an owned event or the cancellation by a handle is meant for. -/
def addressee? (x : Exchange) : Option String :=
  match x.command with
  | .slot (.beginStreamFor id) | .slot (.completeFor id) | .slot (.failFor id _)
  | .slot (.cancelFor id) => some id
  | .work (.cancel name) =>
    (x.before.names.handles.find? name).bind fun i => (x.before.handle i).requestId
  | _ => none

/-- The move of the slot that an answer reports. -/
def move? (x : Exchange) : Option Move :=
  match x.command, x.answer with
  | .gate (.claim _), .admission (.allowed _) => some (.send none)
  | .slot (.beginStreamFor id), .flag true => some (.stream id)
  | .slot (.completeFor id), .phase _ => some (.complete id)
  | .slot (.failFor id error), .phase _ => some (.fail id error)
  | .slot (.cancelFor id), .phase _ => some (.cancel id)
  | .work (.cancel _), .flag true => x.addressee?.map .cancel
  | .work (.cancelCurrent _), .flag true => x.before.slot.state.requestId.map .cancel
  | _, _ => none

def cancelled? (x : Exchange) : Option String :=
  match x.move? with
  | some (.cancel id) => some id
  | _ => none

/-- The request that gave the slot back: it was completed, it failed, or it was cancelled. -/
def released? (x : Exchange) : Option String :=
  match x.move? with
  | some (.complete id) | some (.fail id _) | some (.cancel id) => some id
  | _ => none

/-- What an exchange comes to: a claim is allowed, the request in flight moves on, or nothing
happens to the slot. -/
inductive Effect (x : Exchange) : Prop
  | sends (move : x.move? = some (.send none)) (free : x.before.slot.state.isInFlight = false)
      (after : (x.before.moved (.send none)).Quiet x.after)
      (claimed : x.claimed? = some x.before.slot.nextId)
  | moves (m : Move) (move : x.move? = some m)
      (allowed : m.Allowed x.before.slot.state) (after : (x.before.moved m).Quiet x.after)
      (owned : ∀ id, m ≠ .send id) (claimed : x.claimed? = none)
  | stays (move : x.move? = none) (after : x.before.Quiet x.after) (claimed : x.claimed? = none)

variable {x : Exchange}

theorem effect_of_stays {d d' : Desk} {c : Command} {a : Answer} (ho : d.obey c = (d', a))
    (hq : d.Quiet d') (hm : (Exchange.mk d c).move? = none)
    (hc : (Exchange.mk d c).claimed? = none) : (Exchange.mk d c).Effect :=
  .stays hm (by rwa [after, ho]) hc

theorem effect_of_moves {d d' : Desk} {c : Command} {a : Answer} {m : Move}
    (ho : d.obey c = (d', a)) (hq : (d.moved m).Quiet d')
    (hm : (Exchange.mk d c).move? = some m) (ha : m.Allowed d.slot.state)
    (hn : ∀ id, m ≠ .send id) (hc : (Exchange.mk d c).claimed? = none) :
    (Exchange.mk d c).Effect := .moves m hm ha (by rwa [after, ho]) hn hc

theorem effect_of_owned {d : Desk} {c : Command} (m : Move) (yes : PhaseState → Answer)
    (no : Answer) (ho : d.obey c = d.owned (d.slot.move? m) yes no)
    (hyes : ∀ s, (Exchange.mk d c).answer = yes s → (Exchange.mk d c).move? = some m)
    (hno : (Exchange.mk d c).answer = no → (Exchange.mk d c).move? = none)
    (hn : ∀ id, m ≠ .send id) (hc : (Exchange.mk d c).claimed? = none) :
    (Exchange.mk d c).Effect := by
  rcases d.owned_cases m yes no with ⟨ha, h⟩ | ⟨_, h⟩
  · rw [h] at ho
    exact effect_of_moves ho (.refl _) (hyes (m.result d.slot) (by simp [answer, ho])) ha hn hc
  · rw [h] at ho
    exact effect_of_stays ho (.refl _) (hno (by simp [answer, ho])) hc

theorem effect_gate {d : Desk} {c : GateCommand} (hc : (Command.gate c).isOwned = true)
    (hs : d.slot.Sound) : (Exchange.mk d (.gate c)).Effect := by
  cases c with
  | claim source =>
    cases hf : d.slot.state.isInFlight with
    | true =>
      obtain ⟨d', reason, message, h, hq⟩ := Desk.claim_of_inFlight hs.closed hf source
      have ho : d.obey (.gate (.claim source)) = (d', .admission (.rejected reason message)) := by
        simp [Desk.obey, Desk.obeyGate, h]
      exact effect_of_stays ho hq (by simp [move?, answer, ho]) (by simp [claimed?, answer, ho])
    | false =>
      obtain ⟨d', h, hq⟩ := Desk.claim_of_free hs.closed hf source
      have ho : d.obey (.gate (.claim source)) =
          (d', .admission (.allowed (some d.slot.nextId))) := by
        simp [Desk.obey, Desk.obeyGate, h]
      exact .sends (by simp [move?, answer, ho]) hf (by rwa [after, ho])
        (by simp [claimed?, answer, ho])
  | _ => cases hc

theorem effect_slot {d : Desk} {c : SlotCommand} (hc : (Command.slot c).isOwned = true) :
    (Exchange.mk d (.slot c)).Effect := by
  cases c with
  | beginStreamFor id =>
    exact effect_of_owned (.stream id) (fun _ => .flag true) (.flag false) rfl
      (fun _ h => by simp only [move?, h]) (fun h => by simp only [move?, h]) nofun rfl
  | completeFor id =>
    exact effect_of_owned (.complete id) .phase .nothing rfl
      (fun _ h => by simp only [move?, h]) (fun h => by simp only [move?, h]) nofun rfl
  | failFor id error =>
    exact effect_of_owned (.fail id error) .phase .nothing rfl
      (fun _ h => by simp only [move?, h]) (fun h => by simp only [move?, h]) nofun rfl
  | cancelFor id =>
    exact effect_of_owned (.cancel id) .phase .nothing rfl
      (fun _ h => by simp only [move?, h]) (fun h => by simp only [move?, h]) nofun rfl
  | _ => cases hc

theorem effect_work {d : Desk} {c : WorkCommand} (hc : (Command.work c).isOwned = true)
    (hs : d.slot.Sound) (hl : d.Labelled) : (Exchange.mk d (.work c)).Effect := by
  cases c with
  | cancelCurrent source =>
    rcases Desk.cancelCurrent_cases hs source with ⟨hf, h⟩ | ⟨id, hh, hb, hq⟩
    · have ho : d.obey (.work (.cancelCurrent source)) = (d, .flag false) := by
        simp [Desk.obey, Desk.obeyWork, h]
      exact effect_of_stays ho (.refl d) (by simp [move?, answer, ho]) rfl
    · have ho : d.obey (.work (.cancelCurrent source)) =
          ((d.cancelCurrent source).1, .flag true) := by
        simp [Desk.obey, Desk.obeyWork, hb]
      have hid := (PhaseState.holds_iff.1 hh).1
      exact effect_of_moves ho hq (by simp [move?, answer, ho, hid]) hh (by simp) rfl
  | cancel name =>
    cases hn : d.names.handles.find? name with
    | none =>
      have ho : d.obey (.work (.cancel name)) = (d, .unknownName) := by
        simp [Desk.obey, Desk.obeyWork, Desk.withHandle, hn]
      exact effect_of_stays ho (.refl d) (by simp [move?, answer, ho]) rfl
    | some i =>
      rcases Desk.cancelHandle_cases hl i with ⟨id, hid, hh, h⟩ | ⟨_, h⟩
      · have ho : d.obey (.work (.cancel name)) = (d.moved (.cancel id), .flag true) := by
          simp [Desk.obey, Desk.obeyWork, Desk.withHandle, hn, h]
        exact effect_of_moves ho (.refl _)
          (by simp [move?, answer, ho, addressee?, hn, hid]) hh (by simp) rfl
      · have ho : d.obey (.work (.cancel name)) = (d, .flag false) := by
          simp [Desk.obey, Desk.obeyWork, Desk.withHandle, hn, h]
        exact effect_of_stays ho (.refl d) (by simp [move?, answer, ho]) rfl
  | _ => cases hc

theorem effect (hc : x.command.isOwned = true) (hs : x.before.slot.Sound)
    (hl : x.before.Labelled) : x.Effect := by
  obtain ⟨d, c⟩ := x
  cases c with
  | gate c => exact effect_gate hc hs
  | slot c => exact effect_slot hc
  | work c => exact effect_work hc hs hl
  | _ => cases hc

theorem Effect.labelled (h : x.Effect) (hl : x.before.Labelled) : x.after.Labelled := by
  cases h with
  | sends _ _ after _ | moves _ _ _ after _ _ => exact after.labelled hl
  | stays _ after _ => exact after.labelled hl

/-- What is meant for a request that does not hold the slot changes nothing at all. -/
theorem eq_of_not_holds {id : String} (hl : x.before.Labelled) (ha : x.addressee? = some id)
    (hh : x.before.slot.state.holds id = false) :
    x.after = x.before ∧ (x.answer = .nothing ∨ x.answer = .flag false) := by
  obtain ⟨d, c⟩ := x
  have hn : ∀ m : Move, m.target d.slot = id → (∀ i, m ≠ .send i) → ¬ m.Allowed d.slot.state := by
    rintro m rfl hm h
    rw [h.holds_target hm] at hh
    cases hh
  have howned : ∀ (m : Move) (yes : PhaseState → Answer) (no : Answer), m.target d.slot = id →
      (∀ i, m ≠ .send i) → d.owned (d.slot.move? m) yes no = (d, no) := by
    intro m yes no ht hm
    rcases d.owned_cases m yes no with ⟨h, _⟩ | ⟨_, h⟩
    · exact absurd h (hn m ht hm)
    · exact h
  cases c with
  | slot c =>
    cases c with
    | beginStreamFor i =>
      have h := howned (.stream i) (fun _ => .flag true) (.flag false) (Option.some.inj ha) nofun
      exact ⟨congrArg Prod.fst h, .inr (congrArg Prod.snd h)⟩
    | completeFor i =>
      have h := howned (.complete i) .phase .nothing (Option.some.inj ha) nofun
      exact ⟨congrArg Prod.fst h, .inl (congrArg Prod.snd h)⟩
    | failFor i error =>
      have h := howned (.fail i error) .phase .nothing (Option.some.inj ha) nofun
      exact ⟨congrArg Prod.fst h, .inl (congrArg Prod.snd h)⟩
    | cancelFor i =>
      have h := howned (.cancel i) .phase .nothing (Option.some.inj ha) nofun
      exact ⟨congrArg Prod.fst h, .inl (congrArg Prod.snd h)⟩
    | _ => cases ha
  | work c =>
    cases c with
    | cancel name =>
      obtain ⟨i, hi, hid⟩ := Option.bind_eq_some_iff.1 ha
      have h : d.obey (.work (.cancel name)) = (d, .flag false) := by
        rcases Desk.cancelHandle_cases hl i with ⟨id', hid', hh', _⟩ | ⟨_, h⟩
        · rw [hid] at hid'
          obtain rfl := Option.some.inj hid'
          exact absurd hh' (by simpa using hh)
        · simp [Desk.obey, Desk.obeyWork, Desk.withHandle, hi, h]
      exact ⟨congrArg Prod.fst h, .inr (congrArg Prod.snd h)⟩
    | _ => cases ha
  | _ => cases ha

end Exchange

end PromptDesk
