import PromptDesk.Proofs.Desk.Conduct
import PromptDesk.Proofs.Desk.Exchange
import PromptDesk.Proofs.Slot.Owner

/-! What others may do while a request is under way. They may submit, claim and cancel whatever they
like and send events for requests of their own; callbacks that keep to this leave the request alone,
except that they may cancel it. -/
namespace PromptDesk

open Slot (Move)

/-- The request that a command lets stream, complete or fail. -/
def Command.event? : Command → Option String
  | .slot (.beginStreamFor id) | .slot (.completeFor id) | .slot (.failFor id _) => some id
  | _ => none

/-- A command that sends this request no event but its cancellation. -/
def Command.isConsiderate (r : String) (c : Command) : Bool :=
  c.isQuiet || (c.isOwned && c.event? != some r)

theorem Exchange.others_of_move {x : Exchange} {m : Move} {r : String} {s : Slot}
    (h : x.move? = some m) (hr : x.command.event? ≠ some r) : Slot.Others r s m := by
  unfold Exchange.move? at h
  split at h
  · cases h
    trivial
  · cases h
    rename_i hc _
    simpa [hc, Command.event?, Slot.Others] using hr
  · cases h
    rename_i hc _
    simpa [hc, Command.event?, Slot.Others] using hr
  · cases h
    rename_i hc _
    simpa [hc, Command.event?, Slot.Others] using hr
  · cases h
    trivial
  · obtain ⟨_, _, rfl⟩ := Option.map_eq_some_iff.1 h
    trivial
  · obtain ⟨_, _, rfl⟩ := Option.map_eq_some_iff.1 h
    trivial
  · cases h

/-- A submission, or a command that is considerate of this request. -/
def Step.isConsiderate (r : String) : Step → Bool
  | .command c => c.isConsiderate r
  | .submit _ _ _ | .prepare _ _ _ | .logEntry _ _ => true
  | .run _ _ | .dispatch _ _ _ => false

namespace Desk

/-- The desk is in use, a request got its id here, and everybody is considerate of it. -/
structure Minds (r : String) (d : Desk) : Prop where
  sound : d.slot.Sound
  issued : d.slot.Issued r
  labelled : d.Labelled
  behaves : d.Behaves (Step.isConsiderate r)

/-- From one moment to another the slot made moves that a rule permits, the transport was not called
for a request, and everybody kept being considerate of it. -/
structure Passes (rule : Slot → Move → Prop) (r : String) (d d' : Desk) : Prop where
  slot : Slot.Path rule d.slot d'.slot
  setup : d'.setup = d.setup
  calls : d'.callsFor r = d.callsFor r
  labelled : d.Labelled → d'.Labelled
  behaves : d.Behaves (Step.isConsiderate r) → d'.Behaves (Step.isConsiderate r)

/-- What others may have done between two moments. -/
abbrev LeavesAlone (r : String) (d d' : Desk) : Prop := Passes (Slot.Others r) r d d'

variable {rule rule' : Slot → Move → Prop} {r : String} {d d' d'' : Desk}

theorem Quiet.behaves {p : Step → Bool} (h : Quiet d d') (hb : d.Behaves p) : d'.Behaves p where
  history w hw := hb.history w (by rwa [h.setup] at hw)
  replies x hx := hb.replies x (by rwa [h.replies] at hx)

theorem Quiet.callsFor (h : Quiet d d') (r : String) : d'.callsFor r = d.callsFor r := by
  rw [Desk.callsFor, h.calls, Desk.callsFor]

namespace Passes

theorem of_quiet (h : Quiet d d') : Passes rule r d d' where
  slot := h.slot ▸ .refl
  setup := h.setup
  calls := h.callsFor r
  labelled := h.labelled
  behaves := h.behaves

theorem refl (d : Desk) : Passes rule r d d := of_quiet (.refl d)

theorem trans (h : Passes rule r d d') (h' : Passes rule r d' d'') : Passes rule r d d'' where
  slot := h.slot.trans h'.slot
  setup := h'.setup.trans h.setup
  calls := h'.calls.trans h.calls
  labelled := h'.labelled ∘ h.labelled
  behaves := h'.behaves ∘ h.behaves

theorem mono (h : Passes rule r d d') (hr : ∀ s m, rule s m → rule' s m) : Passes rule' r d d' :=
  { h with slot := h.slot.mono hr }

theorem of_move {m : Move} (hr : rule d.slot m) (ha : m.Allowed d.slot.state) :
    Passes rule r d (d.moved m) where
  slot := .single hr (Slot.move?_of_allowed ha)
  setup := rfl
  calls := rfl
  labelled := id
  behaves h := ⟨h.history, h.replies⟩

theorem dispatch (d : Desk) (id : String) (task : Task) (owner : Option String) :
    Passes rule r d (d.dispatch (some id) task owner).1 where
  slot := .refl
  setup := rfl
  calls := rfl
  labelled h x hx := by
    rcases List.mem_append.1 hx with hx | hx
    · exact h x hx
    · rw [List.mem_singleton.1 hx]
      exact fun _ => rfl
  behaves h := ⟨h.history, h.replies⟩

/-- Sending a request is at most one move. -/
theorem sendDraft {draft : Draft} {id : String} (hid : draft.requestId = some id)
    (hr : rule d.slot (.send (some id))) : Passes rule r d (d.sendDraft draft .conclude).1 := by
  rw [Desk.sendDraft]
  rcases enter_cases (d := d) hid with ⟨_, _, h⟩ | ⟨_, _, _, h⟩ | ⟨_, h⟩
  · rw [h]
    refine of_quiet ((quiet_withSlot_self d).trans ?_)
    exact (quiet_cancelledBeforeStart _ _).trans
      ((quiet_conclude _ (draft.begin false).destination _).trans (quiet_settled _ _))
  · rw [h]
    exact (of_quiet (quiet_withSlot_self d)).trans (dispatch _ _ _ _)
  · rw [h]
    exact (of_move (m := .send (some id)) hr trivial).trans (dispatch _ _ _ _)

theorem giveBack {id : String} {f : Failure} (hr : rule d.slot (.fail id f.message)) :
    Passes rule r d (d.giveBack (some id) f) := by
  rcases failOwned_cases (d := d) id f with ⟨hh, h⟩ | ⟨_, h⟩
  · rw [Desk.giveBack, h]
    exact of_move hr hh
  · rw [Desk.giveBack, h]
    exact refl d

/-- Turning a request back is at most one move, and none if somebody panicked. -/
theorem turnBack {id : String} {m : Mishap} (hr : ∀ error, rule d.slot (.fail id error)) :
    Passes rule r d (d.turnBack (some id) m) := by
  cases m with
  | failure f => exact giveBack (hr f.message)
  | panic payload => exact refl d

theorem minds (h : Passes rule r d d') (hd : d.Minds r) : d'.Minds r where
  sound := h.slot.sound hd.sound
  issued := h.slot.issued hd.issued
  labelled := h.labelled hd.labelled
  behaves := h.behaves hd.behaves

theorem unwrapped (h : Passes rule r d d') (hb : d'.slot.Unwrapped) : d.slot.Unwrapped :=
  Nat.le_trans h.slot.tokens_le hb

end Passes

/-- As long as no id is issued twice, only moves that a rule permits were made. -/
structure Keeps (rule : Slot → Move → Prop) (r : String) (d d' : Desk) : Prop where
  passes : Passes (fun _ _ => True) r d d'
  keeps : d'.slot.Unwrapped → Passes rule r d d'

namespace Keeps

theorem of_passes (h : Passes rule r d d') : Keeps rule r d d' :=
  ⟨h.mono fun _ _ _ => trivial, fun _ => h⟩

theorem trans (h : Keeps rule r d d') (h' : Keeps rule r d' d'') : Keeps rule r d d'' :=
  ⟨h.passes.trans h'.passes, fun hb => (h.keeps (h'.passes.unwrapped hb)).trans (h'.keeps hb)⟩

theorem mono (h : Keeps rule r d d') (hr : ∀ s m, rule s m → rule' s m) : Keeps rule' r d d' :=
  ⟨h.passes, fun hb => (h.keeps hb).mono hr⟩

theorem minds (h : Keeps rule r d d') (hd : d.Minds r) : d'.Minds r := h.passes.minds hd

end Keeps

/-- A command that is considerate of a request makes one move at most, and leaves it alone. -/
theorem obey_isConsiderate {c : Command} (hc : c.isConsiderate r = true) (hl : d.Labelled)
    (hs : d.slot.Sound) : d.Quiet (d.obey c).1 ∨ ∃ m : Move, m.Allowed d.slot.state ∧
      Slot.Others r d.slot m ∧ (d.moved m).Quiet (d.obey c).1 := by
  rw [Command.isConsiderate, Bool.or_eq_true] at hc
  rcases hc with hq | ho
  · exact .inl (quiet_obey d hq)
  · rw [Bool.and_eq_true] at ho
    have hm : ∀ m, (Exchange.mk d c).move? = some m → Slot.Others r d.slot m :=
      fun m h => Exchange.others_of_move h (by simpa using ho.2)
    cases Exchange.effect (x := ⟨d, c⟩) ho.1 hs hl with
    | sends move _ after _ => exact .inr ⟨.send none, trivial, hm _ move, after⟩
    | moves m move allowed after _ _ => exact .inr ⟨m, allowed, hm _ move, after⟩
    | stays _ after _ => exact .inl after

theorem leavesAlone_obey {c : Command} (hc : c.isConsiderate r = true) (hd : d.Minds r) :
    LeavesAlone r d (d.obey c).1 := by
  rcases obey_isConsiderate hc hd.labelled hd.sound with hq | ⟨m, ha, ho, hq⟩
  · exact .of_quiet hq
  · exact (Passes.of_move ho ha).trans (.of_quiet hq)

/-- A claim leaves a request alone that was issued its id before. -/
theorem leavesAlone_claim {source : String} {id : Option String} (hd : d.Minds r)
    (h : d.claim source = (d', .allowed id)) :
    id = some d.slot.nextId ∧ LeavesAlone r d d' ∧
      (d'.slot.Unwrapped → d.slot.nextId ≠ r) := by
  obtain ⟨_, rfl, hq⟩ := claim_allowed hd.sound.closed h
  refine ⟨rfl, (Passes.of_move (m := .send none) trivial trivial).trans (.of_quiet hq), fun hb => ?_⟩
  rw [hq.slot] at hb
  exact hd.issued.nextId_ne hb.lt_of_send

/-- Callbacks that are considerate of a request leave it alone. -/
theorem conduct_considerate (r : String) :
    Conduct (Step.isConsiderate r) fun d d' => d.Minds r → Keeps (Slot.Others r) r d d' where
  refl d _ := .of_passes (.refl d)
  trans h h' hd := (h hd).trans (h' ((h hd).minds hd))
  quiet hq _ := .of_passes (.of_quiet hq)
  command hc _ hd := .of_passes (leavesAlone_obey hc hd)
  delegated hc _ _ hd := by
    obtain ⟨rfl, hl, _⟩ := leavesAlone_claim hd hc
    exact .of_passes (hl.trans (.dispatch _ _ _ _))
  sent := by
    intro d d' d'' source id draft hc hR hid hd
    obtain ⟨rfl, hl, hne⟩ := leavesAlone_claim hd hc
    have h := hR (hl.minds hd)
    have hs : Passes (fun _ _ => True) r d'' (d''.sendDraft draft .conclude).1 :=
      .sendDraft hid trivial
    refine ((Keeps.of_passes hl).trans h).trans ⟨hs, fun hb => .sendDraft hid ?_⟩
    exact hne (h.passes.unwrapped (hs.unwrapped hb))
  returned := by
    intro d d' d'' source id hc hR m hd
    obtain ⟨rfl, hl, hne⟩ := leavesAlone_claim hd hc
    have h := hR (hl.minds hd)
    have hs : Passes (fun _ _ => True) r d'' (d''.turnBack (some d.slot.nextId) m) :=
      .turnBack fun _ => trivial
    refine ((Keeps.of_passes hl).trans h).trans ⟨hs, fun hb => .turnBack fun _ => ?_⟩
    exact hne (h.passes.unwrapped (hs.unwrapped hb))
  started h := by cases h
  dispatched _ _ _ := rfl

end Desk

end PromptDesk
