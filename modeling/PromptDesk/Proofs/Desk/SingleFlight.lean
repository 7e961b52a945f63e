import PromptDesk.Proofs.Desk.Lobby
import PromptDesk.Proofs.Slot.Handover

/-! Single flight. Requests enter by submission only, and are cancelled only by whoever holds a
handle or by cancelling the current one. The slot then goes from a request in flight to another one
only when a request that was cancelled before takes it back. -/
namespace PromptDesk

open Slot (Move)

def Command.isCancel : Command → Bool
  | .work (.cancelCurrent _) | .work (.cancel _) => true
  | _ => false

/-- A command that touches requests by cancelling them at most. -/
def Command.isFrontDoor (c : Command) : Bool := c.isQuiet || c.isCancel

/-- A submission, or a step that touches requests by cancelling them at most. -/
def Step.isFrontDoor : Step → Bool
  | .command c => c.isFrontDoor
  | .submit _ _ _ | .prepare _ _ _ | .logEntry _ _ => true
  | .run _ _ | .dispatch _ _ _ => false

namespace Desk

variable {d : Desk} {P E : List String}

/-- A command at the front door is a cancellation at most. -/
theorem obey_isFrontDoor {c : Command} (hc : c.isFrontDoor = true) (hl : d.Labelled)
    (hs : d.slot.Sound) : d.Quiet (d.obey c).1 ∨ ∃ id, d.slot.state.holds id = true ∧
      (d.moved (.cancel id)).Quiet (d.obey c).1 := by
  rw [Command.isFrontDoor, Bool.or_eq_true] at hc
  rcases hc with hq | hc
  · exact .inl (quiet_obey d hq)
  · cases c with
    | work c =>
      cases c with
      | cancelCurrent source =>
        rcases cancelCurrent_cases hs source with ⟨_, he⟩ | ⟨id, hh, _, hq⟩
        · simp only [obey, obeyWork, he]
          exact .inl (.refl d)
        · exact .inr ⟨id, hh, hq⟩
      | cancel name =>
        simp only [obey, obeyWork, withHandle]
        split
        · rename_i i _
          rcases cancelHandle_cases hl i with ⟨id, _, hh, he⟩ | ⟨_, he⟩
          · rw [he]
            exact .inr ⟨id, hh, .refl _⟩
          · rw [he]
            exact .inl (.refl d)
        · exact .inl (.refl d)
      | _ => cases hc
    | _ => cases hc

/-- Who waits and who is in execution is told apart at the front door. -/
theorem custody_fair : Custody Step.isFrontDoor none fun P E d => d.slot.Fair P E where
  sound h := h.sound
  frame h hs _ _ := hs ▸ h
  of_subperm h hp := h.of_subperm hp
  retire h := h.retire
  claim h hf := h.claim hf
  resend h hp := h.resend hp
  serve h ha hm ht := h.serve ha (.inr ⟨hm, ht.resolve_right nofun⟩)
  called h _ := by rwa [(called_eq _ _).1]
  command := by
    intro c P E d hc hl h
    refine (obey_isFrontDoor hc hl h.sound).imp_right fun ⟨id, hh, hq⟩ => ⟨.cancel id, ?_, hq⟩
    exact h.serve (m := .cancel id) hh (.inl ⟨id, rfl⟩)
  started h := by cases h
  dispatched _ _ _ := rfl

end Desk

namespace Lobby

/-- Single flight: the slot goes from a request in flight to another one exactly if a request that
was cancelled before took it back. -/
theorem singleFlight_iff {setup : Setup} {replies : List Reply} {reporting : Bool} {y : Lobby}
    (behaves : (Desk.opened setup replies reporting).Behaves Step.isFrontDoor)
    (run : Run Step.isFrontDoor ⟨Desk.opened setup replies reporting, []⟩ y)
    (unwrapped : y.desk.slot.Unwrapped) : y.desk.slot.SingleFlight ↔ ¬ y.desk.slot.TookBack := by
  obtain ⟨E, _, h⟩ := run.tended Desk.custody_fair (tended_opened Slot.fair_new behaves)
  refine ⟨fun hf ht => Slot.not_singleFlight_of_tookBack ht hf, fun hn => ?_⟩
  exact ((h.desk.custody.single unwrapped).resolve_right hn).1

/-- A visitor waits for a request that is cancelled. Another one is submitted, and is in flight when
the visitor has a turn. -/
theorem tookBack_by_guest :
    let d := ((Desk.opened {} [] true).claim "k1").1
    let d₁ := ((Step.command (.work (.cancelCurrent "esc"))).perform d).1
    let d₂ := ((Step.submit (.mk "b" [] none none ∅) "k2" "h2").perform d₁).1
    let x : Lobby := ⟨d₂, [guest d (.mk "a" [] none none ∅) (some "req-1")]⟩
    Run Step.isFrontDoor ⟨Desk.opened {} [] true, []⟩ (x.turnOfGuest 0) ∧
      x.desk.slot.SingleFlight ∧ (x.turnOfGuest 0).desk.slot.TookBack := by
  intro d d₁ d₂ x
  have claim : (Desk.opened {} [] true).claim "k1" = (d, .allowed (some "req-1")) :=
    Prod.ext rfl (by decide +kernel)
  have hx : Run Step.isFrontDoor ⟨Desk.opened {} [] true, []⟩ x :=
    (Relation.ReflTransGen.single (.arrival (.mk "a" [] none none ∅) rfl claim)).tail (.step _ rfl)
      |>.tail (.step _ rfl)
  have run := hx.tail (.guest x 0)
  refine ⟨run, by rw [Slot.SingleFlight]; decide +kernel, ?_⟩
  have hb : (x.turnOfGuest 0).desk.slot.Unwrapped := by
    rw [Slot.Unwrapped]
    decide +kernel
  by_contra hn
  have hf := (singleFlight_iff ⟨by simp [Desk.opened], by simp [Desk.opened]⟩ run hb).2 hn
  rw [Slot.SingleFlight] at hf
  revert hf
  decide +kernel

/-- One submission is enough, if its source cancels it and submits another request. -/
theorem not_singleFlight_of_source :
    ∃ y : Lobby, Run Step.isFrontDoor ⟨Desk.opened {} [] true, []⟩ y ∧ y.desk.slot.Unwrapped ∧
      ¬ y.desk.slot.SingleFlight := by
  let cancel : Call := .mk "cancel" (.command (.work (.cancelCurrent "esc")))
  let submit : Call := .mk "submit" (.submit (.mk "b" [] none none ∅) "k2" "h2")
  let s : Step := .submit (.mk "a" [.mk (.mk [cancel, submit] (.ok [])) []] none none ∅) "k1" "h1"
  refine ⟨⟨(s.perform (Desk.opened {} [] true)).1, []⟩, .single (.step s rfl), ?_, ?_⟩
  · rw [Slot.Unwrapped]
    decide +kernel
  · rw [Slot.SingleFlight]
    decide +kernel

end Lobby

end PromptDesk
