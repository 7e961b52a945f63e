import PromptDesk.Proofs.Desk.Apart
import PromptDesk.Proofs.Desk.Cancellation
import PromptDesk.Proofs.Desk.SingleFlight

/-! Requests and their neighbours. A request that nobody in the lobby has is left alone by whatever
happens there, also between the turns of its own execution. Hence whatever comes of a request at a
desk in use is a submission. -/
namespace PromptDesk

/-- At the front door everybody is considerate of every request. -/
theorem Step.isConsiderate_of_isFrontDoor {s : Step} (r : String) (h : s.isFrontDoor = true) :
    s.isConsiderate r = true := by
  cases s with
  | command c =>
    rw [isFrontDoor, Command.isFrontDoor, Bool.or_eq_true] at h
    rw [isConsiderate, Command.isConsiderate, Bool.or_eq_true]
    refine h.imp_right fun hc => ?_
    cases c with
    | work c => cases c <;> first | rfl | cases hc
    | _ => cases hc
  | submit | prepare | logEntry => rfl
  | run | dispatch => cases h

namespace Lobby

/-- Nobody in the lobby has a request, and everybody is considerate of it. -/
def Spares (r : String) (x : Lobby) : Prop :=
  ∃ E, x.Tended (Step.isConsiderate r) (Desk.Apart r x.desk) E

/-- The turns of an execution that has a desk of its own beside the lobby: the last of them starts at
the second lobby. Between any two of them anything may happen in the lobby. -/
inductive Attends (r : String) : Lobby → Execution → Lobby → Desk → Response → Prop
  | last {x : Lobby} {d : Desk} {e : Execution} {response : Response}
      (turn : x.desk.execute e = (d, .ended response)) : Attends r x e x d response
  | more {x y last : Lobby} {d₁ d : Desk} {e e' : Execution} {response : Response}
      (turn : x.desk.execute e = (d₁, .waiting e'))
      (others : Run (Step.isConsiderate r) ⟨d₁, x.guests⟩ y)
      (rest : Attends r y e' last d response) : Attends r x e last d response

/-- What becomes of a claimed request when its sources have given their answers, while anything may
happen in the lobby before and between the turns of its execution. -/
inductive Pursues (r : String) (q : Request) (x : Lobby) :
    Except Mishap (List Part) → Lobby → Lobby → Desk → Except Mishap Response → Prop
  | returned (m : Mishap) : Pursues r q x (.error m) x x (x.desk.turnBack (some r) m) (.error m)
  | refused {parts : List Part} {d : Desk} {draft : Draft}
      (entry : (x.desk.ready q r parts).1.enter (x.desk.ready q r parts).2 = (d, draft, .error r)) :
      Pursues r q x (.ok parts) ⟨d, x.guests⟩ ⟨d, x.guests⟩ (d.cancelledBeforeStart r).1
        (.ok (d.cancelledBeforeStart r).2)
  | executed {parts : List Part} {d ended : Desk} {draft : Draft} {y last : Lobby}
      {response : Response}
      (entry : (x.desk.ready q r parts).1.enter (x.desk.ready q r parts).2 = (d, draft, .ok r))
      (others : Run (Step.isConsiderate r) ⟨d, x.guests⟩ y)
      (attends : Attends r y ⟨r, draft, .claimed⟩ last ended response) :
      Pursues r q x (.ok parts) y last ended (.ok response)

variable {r : String} {x y last : Lobby} {base d : Desk} {E : List String} {e : Execution}
variable {response : Response}

theorem considerate_of_frontDoor (run : Run Step.isFrontDoor x y) (r : String) :
    Run (Step.isConsiderate r) x y := run_mono (fun _ => Step.isConsiderate_of_isFrontDoor r) run

theorem Tended.imp {p : Step → Bool} {F F' : List String → List String → Desk → Prop}
    (h : x.Tended p F E) (hF : ∀ P, F P E x.desk → F' P E x.desk) : x.Tended p F' E :=
  ⟨{ h.desk with custody := hF _ h.desk.custody }, h.guests⟩

theorem spares_of_tended (h : x.Tended (Step.isConsiderate r) (Desk.Apart r base) E) :
    x.Spares r := ⟨E, h.imp fun _ hf => { hf with grows := .refl }⟩

/-- Whatever happens in a lobby that spares a request, the request stays with its owner. -/
theorem Spares.run (h : x.Spares r) (run : Run (Step.isConsiderate r) x y) :
    y.Spares r ∧ Slot.Path (fun _ _ => True) x.desk.slot y.desk.slot := by
  obtain ⟨E, h⟩ := h
  obtain ⟨E', _, h'⟩ := run.tended (Desk.custody_apart r x.desk) h
  exact ⟨spares_of_tended h', h'.desk.custody.grows⟩

/-- Whatever happens in a lobby that spares a request leaves the request alone. -/
theorem Spares.leavesAlone (h : x.Spares r) (run : Run (Step.isConsiderate r) x y)
    (hb : y.desk.slot.Unwrapped) : x.desk.LeavesAlone r y.desk := by
  obtain ⟨E, h⟩ := h
  obtain ⟨E', _, h'⟩ := run.tended (Desk.custody_spared r x.desk)
    (h.imp fun _ hf => ⟨hf, rfl, fun _ => rfl, fun _ => .refl⟩)
  have hs := h'.desk.custody
  exact ⟨hs.path hb, hs.setup, hs.calls hb, fun _ => h'.desk.labelled, fun _ => h'.desk.behaves⟩

/-- What the owner of a request does keeps it with the owner. -/
theorem Spares.own (h : x.Spares r)
    (ht : Desk.Tends (Step.isConsiderate r) (Desk.Apart r x.desk) x.desk d) :
    Spares r ⟨d, x.guests⟩ ∧ Slot.Path (fun _ _ => True) x.desk.slot d.slot := by
  obtain ⟨E, h⟩ := h
  obtain ⟨E', he, hd⟩ := ht _ E h.desk
  have h' : Lobby.Tended (Step.isConsiderate r) (Desk.Apart r x.desk) E' ⟨d, x.guests⟩ :=
    ⟨hd, fun j hj => (h.guests j hj).mono he⟩
  exact ⟨spares_of_tended h', hd.custody.grows⟩

theorem Spares.execute (h : x.Spares r) (he : e.requestId = r)
    (hb : e.stage.all (Step.isConsiderate r) = true) :
    Spares r ⟨(x.desk.execute e).1, x.guests⟩ ∧
      Slot.Path (fun _ _ => True) x.desk.slot (x.desk.execute e).1.slot ∧
        (x.desk.execute e).2.IsProper (Step.isConsiderate r) r := by
  subst he
  have law := Desk.custody_apart e.requestId x.desk
  have hown := h.own fun _ _ hd => by
    obtain ⟨E', he, hd', _⟩ := hd.execute law (.inr rfl) hb
    exact ⟨E', he, hd'⟩
  obtain ⟨E, h⟩ := h
  obtain ⟨_, _, _, hp⟩ := h.desk.execute law (.inr rfl) hb
  exact ⟨hown.1, hown.2, hp⟩

/-- The turns of an execution in a lobby that spares its request are a course: between them the
request is left alone. -/
theorem Attends.course (h : Attends r x e last d response) (hx : x.Spares r)
    (he : e.requestId = r) (hb : e.stage.all (Step.isConsiderate r) = true) :
    Spares r ⟨d, last.guests⟩ ∧ Slot.Path (fun _ _ => True) x.desk.slot d.slot ∧
      (d.slot.Unwrapped → Desk.Course r x.desk e last.desk d response) := by
  induction h with
  | last turn =>
    have h := hx.execute he hb
    rw [turn] at h
    exact ⟨h.1, h.2.1, fun _ => .last turn⟩
  | more turn others rest ih =>
    have h := hx.execute he hb
    rw [turn] at h
    obtain ⟨hs, hg, hid, hall⟩ := h
    obtain ⟨hy, hgy⟩ := hs.run others
    obtain ⟨hend, hrest, hcourse⟩ := ih hy hid hall
    refine ⟨hend, (hg.trans hgy).trans hrest, fun hun => ?_⟩
    exact .more turn (hs.leavesAlone others (Nat.le_trans hrest.tokens_le hun)) (hcourse hun)

theorem Spares.enter {draft draft' : Draft} (h : x.Spares r) (hid : draft.requestId = some r)
    (entry : x.desk.enter draft = (d, draft', .ok r)) :
    Spares r ⟨d, x.guests⟩ ∧ Slot.Path (fun _ _ => True) x.desk.slot d.slot := by
  have law := Desk.custody_apart r x.desk
  refine h.own fun H E hd => ⟨E, List.Subset.refl E, ?_⟩
  rcases Desk.enter_cases (d := x.desk) hid with ⟨_, _, he⟩ | ⟨_, _, _, he⟩ | ⟨_, he⟩ <;>
    rw [he] at entry <;> cases entry
  · exact hd.quiet law (Desk.quiet_withSlot_self x.desk)
  · exact hd.moved (List.Subset.refl E) (hd.custody.moved trivial fun hb =>
      hd.custody.apart (Desk.unwrapped_of_moved hb))

/-- A claim at a desk in use is with nobody in the lobby. -/
theorem Tended.spares_claim {source : String}
    (h : x.Tended (Step.isConsiderate r) Desk.Known E)
    (claim : x.desk.claim source = (d, .allowed (some r))) : Spares r ⟨d, x.guests⟩ := by
  have hk := h.desk.custody
  obtain ⟨_, hid, hq⟩ := Desk.claim_allowed (hk.reach.sound Slot.sound_new).closed claim
  obtain rfl : r = x.desk.slot.nextId := Option.some.inj hid
  have hm : (x.desk.moved (.send none)).Tended (Step.isConsiderate x.desk.slot.nextId)
      (Desk.Apart x.desk.slot.nextId x.desk) x.claimed E :=
    h.desk.moved (List.Subset.refl E)
      { sound := (hk.reach.sound Slot.sound_new).after trivial
        issued := (hk.reach.counted Slot.counted_new).issued_nextId
        grows := .single (m := .send none) trivial rfl
        apart := fun hb =>
          have hn : ∀ q, x.desk.slot.Issued q → x.desk.slot.nextId ≠ q :=
            fun q hq => hq.nextId_ne (Slot.Unwrapped.lt_of_send hb)
          ⟨fun hp => hn _ (hk.issued _ (.inl hp)) rfl, fun he => hn _ (hk.issued _ (.inr he)) rfl⟩ }
  have ht : Lobby.Tended _ _ E ⟨d, x.guests⟩ :=
    ⟨hm.quiet (Desk.custody_apart _ x.desk) hq, h.guests⟩
  exact spares_of_tended ht

/-- What becomes of a request in a lobby that spares it is what becomes of one that is left alone. -/
theorem Pursues.pursued {q : Request} {parts : Except Mishap (List Part)} {launched : Lobby}
    {ended : Desk} {answer : Except Mishap Response}
    (h : Pursues r q x parts launched last ended answer) (hx : x.Spares r) :
    Spares r ⟨ended, last.guests⟩ ∧ Slot.Path (fun _ _ => True) x.desk.slot ended.slot ∧
      (ended.slot.Unwrapped →
        Desk.Pursued q r x.desk parts launched.desk last.desk ended answer) := by
  have law := Desk.custody_apart r x.desk
  cases h with
  | returned m =>
    obtain ⟨hs, hg⟩ := hx.own fun _ E hd => ⟨E, List.Subset.refl E, hd.turnBack law (.inr rfl) m⟩
    exact ⟨hs, hg, fun _ => .returned m⟩
  | @refused parts d₁ _ entry =>
    have hq : x.desk.Quiet (d₁.cancelledBeforeStart r).1 := by
      obtain ⟨rfl, _⟩ := Desk.enter_error entry
      exact ((Desk.quiet_ready x.desk q r parts).trans (Desk.quiet_withSlot_self _)).trans
        (Desk.quiet_cancelledBeforeStart _ r)
    obtain ⟨hs, hg⟩ := hx.own (law.conduct.quiet hq)
    exact ⟨hs, hg, fun _ => .executed (.refused entry)⟩
  | @executed parts _ _ _ _ _ _ entry others attends =>
    obtain ⟨hr, hgr⟩ := hx.own (law.conduct.quiet (Desk.quiet_ready x.desk q r parts))
    obtain ⟨hd, hgd⟩ := hr.enter (Desk.ready_requestId x.desk q r parts) entry
    obtain ⟨hy, hgy⟩ := hd.run others
    obtain ⟨hs, hg, hcourse⟩ := attends.course hy rfl rfl
    refine ⟨hs, ((hgr.trans hgd).trans hgy).trans hg, fun hb => ?_⟩
    have hby := Nat.le_trans hg.tokens_le hb
    exact .executed (.entered entry (hd.leavesAlone others hby) (hcourse hb))

/-- Whatever comes of a request at a desk in use is a submission: others do anything permitted while
it waits, between its turns and after its end. -/
theorem exists_submission {setup : Setup} {replies : List Reply} {reporting : Bool}
    {x y launched last w : Lobby} {claimed answered ended : Desk} {source : String} {q : Request}
    {parts : Except Mishap (List Part)} {answer : Except Mishap Response}
    (behaves : (Desk.opened setup replies reporting).Behaves (Step.isConsiderate r))
    (before : Run (Step.isConsiderate r) ⟨Desk.opened setup replies reporting, []⟩ x)
    (considerate : Source.allIn (Step.isConsiderate r) q.sources = true)
    (claim : x.desk.claim source = (claimed, .allowed (some r)))
    (waits : Run (Step.isConsiderate r) ⟨claimed, x.guests⟩ y)
    (gathers : gather q.sources y.desk = (answered, parts))
    (pursues : Pursues r q ⟨answered, y.guests⟩ parts launched last ended answer)
    (afterwards : Run (Step.isConsiderate r) ⟨ended, last.guests⟩ w)
    (unwrapped : w.desk.slot.Unwrapped) :
    ∃ s : Submission r, s.claimed = claimed ∧ s.answered = answered ∧ s.launched = launched.desk ∧
      s.last = last.desk ∧ s.parts = parts ∧ s.answer = answer ∧ s.later = w.desk := by
  obtain ⟨E, _, hx⟩ := before.tended (Desk.custody_known r)
    (tended_opened ⟨.refl, by simp⟩ behaves)
  have hclaimed := hx.spares_claim claim
  obtain ⟨hy, _⟩ := hclaimed.run waits
  have hgather := hy.own ((Desk.custody_apart r y.desk).conduct.manner.gather q.sources _ considerate)
  rw [gathers] at hgather
  obtain ⟨hended, hg, hpursued⟩ := pursues.pursued hgather.1
  obtain ⟨_, hgw⟩ := hended.run afterwards
  have hun : ended.slot.Unwrapped := Nat.le_trans hgw.tokens_le unwrapped
  have huny : y.desk.slot.Unwrapped := Nat.le_trans (hgather.2.trans hg).tokens_le hun
  exact ⟨⟨x.desk, claimed, y.desk, answered, launched.desk, last.desk, ended, w.desk, source, q,
    parts, answer, hx.desk.custody.reach, hx.desk.labelled, hx.desk.behaves, considerate, claim,
    hclaimed.leavesAlone waits huny, gathers, hpursued hun,
    hended.leavesAlone afterwards unwrapped, unwrapped⟩, rfl, rfl, rfl, rfl, rfl, rfl, rfl⟩

end Lobby

end PromptDesk
