import PromptDesk.Proofs.Desk.Exchange
import PromptDesk.Proofs.Slot.History
import PromptDesk.Scenario

/-! The protocol between the gate and the slot: claims, owned events and cancellations, in any
order. A log of such commands tells who holds the slot and whose token was tripped, since one claim
is only ever followed by another after the request of the first was released. -/
namespace PromptDesk

open Slot (Move)

namespace Desk

def exchanges (d : Desk) : List Command → List Exchange
  | [] => []
  | c :: cs => ⟨d, c⟩ :: (d.obey c).1.exchanges cs

def afterEach (d : Desk) (cs : List Command) : Desk := (d.performEach (cs.map .command)).1

theorem exchanges_append (d : Desk) (cs : List Command) (c : Command) :
    d.exchanges (cs ++ [c]) = d.exchanges cs ++ [⟨d.afterEach cs, c⟩] := by
  induction cs generalizing d with
  | nil => rfl
  | cons c' cs ih => exact congrArg (⟨d, c'⟩ :: ·) (ih _)

theorem afterEach_append (d : Desk) (cs : List Command) (c : Command) :
    d.afterEach (cs ++ [c]) = ((d.afterEach cs).obey c).1 := by
  induction cs generalizing d with
  | nil => rfl
  | cons c' cs ih => exact ih _

end Desk

/-- The token was made for a request that was cancelled before the next claim was allowed. -/
def Revoked (log : List Exchange) (token : Nat) : Prop :=
  ∃ l₁ x l₂ z l₃ id, log = l₁ ++ x :: l₂ ++ z :: l₃ ∧ x.claimed? = some id ∧
    x.after.slot.armed = token ∧ (∀ w ∈ l₂, w.claimed? = none) ∧ z.cancelled? = some id

/-- What a log of owned commands says about the slot that they lead to. -/
structure Protocol (log : List Exchange) (s : Slot) : Prop where
  /-- Before a claim is allowed, the request of the claim before it was released. -/
  released : ∀ l₁ x l₂ y l₃ id, log = l₁ ++ x :: l₂ ++ y :: l₃ → x.claimed? = some id →
    y.claimed?.isSome = true → ∃ z ∈ l₂, z.released? = some id
  /-- A request in flight is the one of the latest claim. -/
  owner : s.state.isInFlight = true → ∃ l₁ x l₂ id, log = l₁ ++ x :: l₂ ∧ x.claimed? = some id ∧
    s.state.requestId = some id ∧ ∀ z ∈ l₂, z.claimed? = none
  /-- No id is claimed twice. -/
  distinct : (log.filterMap Exchange.claimed?).length < 2 ^ 64 →
    (log.filterMap Exchange.claimed?).Nodup
  /-- The current token belongs to the request in flight. -/
  token : s.state.isInFlight = true → s.isTripped s.armed = false ∧
    ∀ id, s.state.requestId = some id → s.tokenFor? id = some s.armed
  /-- The tripped tokens are those of the cancelled requests. -/
  tripped : ∀ token, s.isTripped token = true ↔ Revoked log token
  /-- What is meant for another request than the one in flight changes nothing. -/
  stale : ∀ x ∈ log, ∀ id, x.addressee? = some id → x.before.slot.state.holds id = false →
    x.after = x.before ∧ (x.answer = .nothing ∨ x.answer = .flag false)

def claims (log : List Exchange) : List String := log.filterMap Exchange.claimed?

/-- The last entry of a log is the one in question, or it comes after it. -/
theorem split_snoc {α : Type} {l l₁ l₂ : List α} {x e : α} (h : l ++ [e] = l₁ ++ x :: l₂) :
    (l = l₁ ∧ e = x ∧ l₂ = []) ∨ ∃ l₃, l₂ = l₃ ++ [e] ∧ l = l₁ ++ x :: l₃ := by
  rcases List.eq_nil_or_concat l₂ with rfl | ⟨l₃, y, rfl⟩
  · obtain ⟨rfl, he⟩ := List.append_inj' h rfl
    exact .inl ⟨rfl, (List.cons.inj he).1, rfl⟩
  · rw [List.concat_eq_append, ← List.cons_append, ← List.append_assoc] at h
    obtain ⟨rfl, he⟩ := List.append_inj' h rfl
    exact .inr ⟨l₃, by rw [List.concat_eq_append, (List.cons.inj he).1], rfl⟩

theorem last_unique {α : Type} {p : α → Prop} {l₁ l₂ l₃ l₄ : List α} {x y : α}
    (h : l₁ ++ x :: l₂ = l₃ ++ y :: l₄) (hx : p x) (hy : p y) (h₂ : ∀ w ∈ l₂, ¬ p w)
    (h₄ : ∀ w ∈ l₄, ¬ p w) : x = y := by
  rcases List.append_eq_append_iff.1 h with ⟨l, _, he⟩ | ⟨l, _, he⟩
  · cases l with
    | nil => exact (List.cons.inj he).1
    | cons w l =>
      obtain ⟨_, rfl⟩ := List.cons.inj he
      exact absurd hy (h₂ y (by simp))
  · cases l with
    | nil => exact (List.cons.inj he).1.symm
    | cons w l =>
      obtain ⟨_, rfl⟩ := List.cons.inj he
      exact absurd hx (h₄ x (by simp))

/-- What a log and the slot that it leads to have in common. -/
structure Ledger (log : List Exchange) (s : Slot) : Prop where
  sound : s.Sound
  issued : s.issued = UInt64.ofNat (claims log).length
  numbered : claims log =
    (List.range (claims log).length).map fun k => Slot.idText (UInt64.ofNat (k + 1))
  standing : ∀ id, s.state.holds id = true → ∃ l₁ x l₂, log = l₁ ++ x :: l₂ ∧
    x.claimed? = some id ∧ x.after.slot.armed = s.armed ∧ ∀ z ∈ l₂, z.claimed? = none
  pending : ∀ l₁ x l₂ id, log = l₁ ++ x :: l₂ → x.claimed? = some id →
    (∃ z ∈ l₂, z.released? = some id) ∨ s.state.holds id = true
  released : ∀ l₁ x l₂ y l₃ id, log = l₁ ++ x :: l₂ ++ y :: l₃ → x.claimed? = some id →
    y.claimed?.isSome = true → ∃ z ∈ l₂, z.released? = some id
  tripped : ∀ token, s.isTripped token = true ↔ Revoked log token

namespace Ledger

variable {log : List Exchange} {s : Slot} {e : Exchange}

theorem new : Ledger [] {} where
  sound := Slot.sound_new
  issued := rfl
  numbered := rfl
  standing _ h := by cases h
  pending _ _ _ _ h := by simp at h
  released _ _ _ _ _ _ h := by simp at h
  tripped token := by
    refine ⟨fun h => ?_, fun ⟨_, _, _, _, _, _, h, _⟩ => by simp at h⟩
    cases token <;> cases h

theorem revoked_append {token : Nat} (h : Revoked log token) : Revoked (log ++ [e]) token := by
  obtain ⟨l₁, x, l₂, z, l₃, id, rfl, h⟩ := h
  exact ⟨l₁, x, l₂, z, l₃ ++ [e], id, by simp, h⟩

theorem revoked_of_append {token : Nat} (hc : e.cancelled? = none)
    (h : Revoked (log ++ [e]) token) : Revoked log token := by
  obtain ⟨l₁, x, l₂, z, l₃, id, hl, hx, ht, hn, hz⟩ := h
  rcases split_snoc hl with ⟨_, rfl, _⟩ | ⟨l, rfl, hl'⟩
  · rw [hc] at hz
    cases hz
  · exact ⟨l₁, x, l₂, z, l, id, hl', hx, ht, hn, hz⟩

/-- Who holds the slot and has not given it back before the latest exchange still holds it, or gave
it back with that exchange. -/
theorem pending_append (h : Ledger log s)
    (hnew : ∀ id, e.claimed? = some id → e.after.slot.state.holds id = true)
    (hkeep : ∀ id, s.state.holds id = true →
      e.released? = some id ∨ e.after.slot.state.holds id = true)
    (l₁ : List Exchange) (x : Exchange) (l₂ : List Exchange) (id : String)
    (hl : log ++ [e] = l₁ ++ x :: l₂) (hx : x.claimed? = some id) :
    (∃ z ∈ l₂, z.released? = some id) ∨ e.after.slot.state.holds id = true := by
  rcases split_snoc hl with ⟨rfl, rfl, rfl⟩ | ⟨l₃, rfl, rfl⟩
  · exact .inr (hnew id hx)
  · rcases h.pending l₁ x l₃ id rfl hx with ⟨z, hz, hr⟩ | hh
    · exact .inl ⟨z, List.mem_append_left _ hz, hr⟩
    · rcases hkeep id hh with hr | hh
      · exact .inl ⟨e, by simp, hr⟩
      · exact .inr hh

theorem released_append (h : Ledger log s)
    (hfree : e.claimed?.isSome = true → s.state.isInFlight = false)
    (l₁ : List Exchange) (x : Exchange) (l₂ : List Exchange) (y : Exchange) (l₃ : List Exchange)
    (id : String) (hl : log ++ [e] = l₁ ++ x :: l₂ ++ y :: l₃) (hx : x.claimed? = some id)
    (hy : y.claimed?.isSome = true) : ∃ z ∈ l₂, z.released? = some id := by
  rcases split_snoc hl with ⟨rfl, rfl, rfl⟩ | ⟨l, rfl, hl'⟩
  · refine (h.pending l₁ x l₂ id rfl hx).resolve_right fun hh => ?_
    rw [(PhaseState.holds_iff.1 hh).2] at hfree
    cases hfree hy
  · exact h.released l₁ x l₂ y l id hl' hx hy

theorem claims_of_none (h : e.claimed? = none) : claims (log ++ [e]) = claims log := by
  simp [claims, List.filterMap_append, h]

theorem claims_of_some {id : String} (h : e.claimed? = some id) :
    claims (log ++ [e]) = claims log ++ [id] := by
  simp [claims, List.filterMap_append, h]

theorem standing_append {id : String} {armed : Nat} (hc : e.claimed? = none)
    (h : ∃ l₁ x l₂, log = l₁ ++ x :: l₂ ∧ x.claimed? = some id ∧ x.after.slot.armed = armed ∧
      ∀ z ∈ l₂, z.claimed? = none) :
    ∃ l₁ x l₂, log ++ [e] = l₁ ++ x :: l₂ ∧ x.claimed? = some id ∧ x.after.slot.armed = armed ∧
      ∀ z ∈ l₂, z.claimed? = none := by
  obtain ⟨l₁, x, l₂, rfl, hx, ha, hn⟩ := h
  refine ⟨l₁, x, l₂ ++ [e], by simp, hx, ha, fun z hz => ?_⟩
  rcases List.mem_append.1 hz with hz | hz
  · exact hn z hz
  · rwa [List.mem_singleton.1 hz]

theorem cancelled_of_move {m : Move} (h : e.move? = some m) (hm : ∀ id, m ≠ .cancel id) :
    e.cancelled? = none := by
  rw [Exchange.cancelled?, h]
  cases m with
  | cancel id => exact absurd rfl (hm id)
  | _ => rfl

theorem isTripped_cancel {id : String} {token : Nat} (h : s.armed < s.tokens.length) :
    ((Move.cancel id).after s).isTripped token = true ↔
      token = s.armed ∨ s.isTripped token = true := by
  by_cases ht : s.armed = token
  · subst ht
    simp [Slot.isTripped, Move.after, Move.tokens, h]
  · simp [Slot.isTripped, Move.after, Move.tokens, ht, Ne.symm ht]

theorem sends (h : Ledger log e.before.slot) (move : e.move? = some (.send none))
    (free : e.before.slot.state.isInFlight = false)
    (slot : e.after.slot = (Move.send none).after e.before.slot)
    (claimed : e.claimed? = some e.before.slot.nextId) : Ledger (log ++ [e]) e.after.slot where
  sound := slot ▸ h.sound.after trivial
  issued := by
    rw [slot, claims_of_some claimed, List.length_append, List.length_singleton, UInt64.ofNat_add,
      ← h.issued]
    rfl
  numbered := by
    rw [claims_of_some claimed, List.length_append, List.length_singleton, List.range_succ,
      List.map_append, ← h.numbered, List.map_singleton, UInt64.ofNat_add, ← h.issued]
    rfl
  standing id hh := by
    rw [slot] at hh
    obtain rfl : e.before.slot.nextId = id := by
      simpa [PhaseState.holds_iff, Move.result, PhaseState.isInFlight, Phase.isInFlight] using hh
    exact ⟨log, e, [], rfl, claimed, rfl, by simp⟩
  pending := by
    refine h.pending_append (fun id hid => ?_) fun id hid => ?_
    · rw [claimed] at hid
      obtain rfl := Option.some.inj hid
      simp [slot, PhaseState.holds_iff, Move.result, PhaseState.isInFlight, Phase.isInFlight]
    · rw [PhaseState.holds_iff, free] at hid
      cases hid.2
  released := h.released_append fun _ => free
  tripped token := by
    have hc := cancelled_of_move move (by simp)
    have ht : e.after.slot.isTripped token = e.before.slot.isTripped token := by
      rw [slot]
      simp only [Slot.isTripped, Move.after, Move.tokens, List.getD_eq_getElem?_getD]
      rcases Nat.lt_trichotomy token e.before.slot.tokens.length with hl | rfl | hl
      · rw [List.getElem?_append_left hl]
      · simp
      · rw [List.getElem?_eq_none (Nat.le_of_lt hl), List.getElem?_eq_none]
        rwa [List.length_append]
    rw [ht, h.tripped]
    exact ⟨revoked_append, revoked_of_append hc⟩

theorem stays (h : Ledger log e.before.slot) (move : e.move? = none)
    (slot : e.after.slot = e.before.slot) (claimed : e.claimed? = none) :
    Ledger (log ++ [e]) e.after.slot where
  sound := slot ▸ h.sound
  issued := by rw [slot, claims_of_none claimed, h.issued]
  numbered := by rw [claims_of_none claimed, ← h.numbered]
  standing id hh := by
    rw [slot] at hh ⊢
    exact standing_append claimed (h.standing id hh)
  pending := by
    refine h.pending_append (fun id hid => ?_) fun id hid => .inr (slot ▸ hid)
    rw [claimed] at hid
    cases hid
  released := h.released_append fun hs => by
    rw [claimed] at hs
    cases hs
  tripped token := by
    have hc : e.cancelled? = none := by rw [Exchange.cancelled?, move]
    rw [slot, h.tripped]
    exact ⟨revoked_append, revoked_of_append hc⟩

theorem moves {m : Move} (h : Ledger log e.before.slot) (move : e.move? = some m)
    (allowed : m.Allowed e.before.slot.state)
    (slot : e.after.slot = m.after e.before.slot) (owned : ∀ id, m ≠ .send id)
    (claimed : e.claimed? = none) : Ledger (log ++ [e]) e.after.slot where
  sound := slot ▸ h.sound.after allowed
  issued := by
    rw [slot, claims_of_none claimed, ← h.issued]
    cases m with
    | send id => exact absurd rfl (owned id)
    | _ => rfl
  numbered := by rw [claims_of_none claimed, ← h.numbered]
  standing id hh := by
    rw [slot] at hh ⊢
    have hid : m.target e.before.slot = id := by
      simpa [PhaseState.isFor_iff, Move.after] using
        PhaseState.isFor_iff.2 (PhaseState.holds_iff.1 hh).1
    have ha : (m.after e.before.slot).armed = e.before.slot.armed := by
      cases m with
      | send id => exact absurd rfl (owned id)
      | _ => rfl
    rw [ha]
    exact standing_append claimed (h.standing id (hid ▸ allowed.holds_target owned))
  pending := by
    refine h.pending_append (fun id hid => ?_) fun id hid => ?_
    · rw [claimed] at hid
      cases hid
    · obtain rfl := PhaseState.holds_unique hid (allowed.holds_target owned)
      cases m with
      | send id => exact absurd rfl (owned id)
      | stream id => exact .inr (by
          simp [slot, PhaseState.holds_iff, Move.target, Move.result, PhaseState.isInFlight,
            Phase.isInFlight])
      | complete id | fail id error | cancel id => exact .inl (by rw [Exchange.released?, move]; rfl)
  released := h.released_append fun hs => by
    rw [claimed] at hs
    cases hs
  tripped token := by
    cases m with
    | send id => exact absurd rfl (owned id)
    | stream id | complete id | fail id error =>
      have hc := cancelled_of_move move (by simp)
      rw [slot]
      exact (h.tripped token).trans ⟨revoked_append, revoked_of_append hc⟩
    | cancel id =>
      have hc : e.cancelled? = some id := by rw [Exchange.cancelled?, move]
      obtain ⟨l₁, x, l₂, hlog, hx, ha, hn⟩ := h.standing id allowed
      rw [slot, isTripped_cancel h.sound.inRange, h.tripped]
      constructor
      · rintro (rfl | hr)
        · exact ⟨l₁, x, l₂, e, [], id, by rw [hlog], hx, ha, hn, hc⟩
        · exact revoked_append hr
      · rintro ⟨l₁', x', l₂', z, l₃, id', hl, hx', ha', hn', hz⟩
        rcases split_snoc hl with ⟨hlog', rfl, _⟩ | ⟨l, rfl, hl'⟩
        · have hsame : x = x' := last_unique (p := fun w => w.claimed?.isSome = true)
            (hlog.symm.trans hlog') (by simp [hx]) (by simp [hx'])
            (fun w hw => by simp [hn w hw]) fun w hw => by simp [hn' w hw]
          exact .inl (by rw [← ha', ← ha, hsame])
        · exact .inr ⟨l₁', x', l₂', z, l, id', hl', hx', ha', hn', hz⟩

theorem append (h : Ledger log e.before.slot) (he : e.Effect) : Ledger (log ++ [e]) e.after.slot := by
  cases he with
  | sends move free after claimed => exact h.sends move free after.slot claimed
  | moves m move allowed after owned claimed =>
    exact h.moves move allowed after.slot owned claimed
  | stays move after claimed => exact h.stays move after.slot claimed

end Ledger

namespace Desk

variable {d : Desk} {cs : List Command}

/-- The log of a run of owned commands agrees with the slot, and handles stay labelled. -/
theorem ledger (hs : d.slot = {}) (hl : d.Labelled) (hcs : ∀ c ∈ cs, c.isOwned = true) :
    Ledger (d.exchanges cs) (d.afterEach cs).slot ∧ (d.afterEach cs).Labelled := by
  induction cs using List.reverseRecOn with
  | nil => exact ⟨hs ▸ Ledger.new, hl⟩
  | append_singleton cs c ih =>
    obtain ⟨hledger, hl'⟩ := ih fun c hc => hcs c (List.mem_append_left _ hc)
    have he := Exchange.effect (x := ⟨d.afterEach cs, c⟩) (hcs c (by simp)) hledger.sound hl'
    rw [exchanges_append, afterEach_append]
    exact ⟨hledger.append he, he.labelled hl'⟩

theorem labelled_of_mem (hs : d.slot = {}) (hl : d.Labelled) (hcs : ∀ c ∈ cs, c.isOwned = true) :
    ∀ x ∈ d.exchanges cs, x.before.Labelled := by
  induction cs using List.reverseRecOn with
  | nil => simp [exchanges]
  | append_singleton cs c ih =>
    have hcs' : ∀ c ∈ cs, c.isOwned = true := fun c hc => hcs c (List.mem_append_left _ hc)
    intro x hx
    rw [exchanges_append] at hx
    rcases List.mem_append.1 hx with hx | hx
    · exact ih hcs' x hx
    · rw [List.mem_singleton.1 hx]
      exact (ledger hs hl hcs').2

theorem nodup_idText {n : Nat} (h : n < 2 ^ 64) :
    ((List.range n).map fun k => Slot.idText (UInt64.ofNat (k + 1))).Nodup := by
  refine List.Nodup.map_on (fun a ha b hb hab => ?_) List.nodup_range
  have ha' := List.mem_range.1 ha
  have hb' := List.mem_range.1 hb
  have he := congrArg UInt64.toNat (Slot.idText_injective hab)
  rw [UInt64.toNat_ofNat_of_lt' (by rw [UInt64.size]; omega),
    UInt64.toNat_ofNat_of_lt' (by rw [UInt64.size]; omega)] at he
  omega

/-- Claims, owned events and cancellations, in whatever order they come, keep to the protocol: one
request at a time, each under an id of its own and with a token of its own. -/
theorem protocol_exchanges (hs : d.slot = {}) (hl : d.Labelled)
    (hcs : ∀ c ∈ cs, c.isOwned = true) : Protocol (d.exchanges cs) (d.afterEach cs).slot := by
  have h := (ledger hs hl hcs).1
  refine ⟨h.released, fun hf => ?_, fun hn => ?_, fun hf => ?_, h.tripped, fun x hx id ha hh => ?_⟩
  · obtain ⟨id, hid⟩ := h.sound.named hf
    obtain ⟨l₁, x, l₂, hlog, hx, _, hn⟩ := h.standing id (PhaseState.holds_iff.2 ⟨hid, hf⟩)
    exact ⟨l₁, x, l₂, id, hlog, hx, hid, hn⟩
  · rw [show (d.exchanges cs).filterMap Exchange.claimed? = claims (d.exchanges cs) from rfl,
      h.numbered]
    exact nodup_idText hn
  · refine ⟨h.sound.untripped hf, fun id hid => ?_⟩
    rw [h.sound.tokenFor?_eq, if_pos (PhaseState.holds_iff.2 ⟨hid, hf⟩)]
  · exact Exchange.eq_of_not_holds (labelled_of_mem hs hl hcs x hx) ha hh

/-- Two requests are claimed; the first is cancelled by its handle, and its worker comes too late. -/
theorem protocol_late_worker :
    let d : Desk :=
      { handles := [⟨some "req-1", true, none⟩]
        names := { handles := (∅ : Keyed Nat).insert "h" 0 } }
    let cs : List Command :=
      [.gate (.claim "a"), .gate (.claim "b"), .slot (.beginStreamFor "req-1"),
        .work (.cancel "h"), .gate (.claim "b"), .slot (.failFor "req-1" "late"),
        .slot (.completeFor "req-2")]
    claims (d.exchanges cs) = ["req-1", "req-2"] ∧ (d.afterEach cs).slot.tokens = [false, true, false] ∧
      Protocol (d.exchanges cs) (d.afterEach cs).slot :=
  ⟨by decide +kernel, by decide +kernel,
    protocol_exchanges rfl (by simp [Labelled]) (by decide)⟩

end Desk

end PromptDesk
