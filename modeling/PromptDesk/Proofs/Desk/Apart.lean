import PromptDesk.Proofs.Desk.Custody
import PromptDesk.Proofs.Desk.Others

/-! Requests that are with nobody else. That no task but its owner's has a request is kept by
whatever is done with the requests in custody, and nothing but what its owner does is more to the
request than a move of others. -/
namespace PromptDesk

open Slot (Move)

/-- A move for another request is a move of others. -/
theorem Slot.others_of_target_ne {s : Slot} {m : Move} {r : String} (h : m.target s ≠ r) :
    Others r s m := by
  cases m with
  | send id =>
    cases id with
    | none => trivial
    | some id => exact h
  | cancel id => trivial
  | stream id | complete id | fail id error => exact h

namespace Desk

/-- Nobody else is to send a request, and nobody else has it in execution. -/
structure Apart (r : String) (base : Desk) (P E : List String) (d : Desk) : Prop where
  sound : d.slot.Sound
  issued : d.slot.Issued r
  grows : Slot.Path (fun _ _ => True) base.slot d.slot
  apart : d.slot.Unwrapped → r ∉ P ∧ r ∉ E

/-- A request that is with nobody else was left alone since some moment. -/
structure Spared (r : String) (base : Desk) (P E : List String) (d : Desk) : Prop
    extends Apart r base P E d where
  setup : d.setup = base.setup
  calls : d.slot.Unwrapped → d.callsFor r = base.callsFor r
  path : d.slot.Unwrapped → Slot.Path (Slot.Others r) base.slot d.slot

/-- The requests in custody got their ids at this desk. -/
structure Known (P E : List String) (d : Desk) : Prop where
  reach : Slot.Path (fun _ _ => True) {} d.slot
  issued : ∀ q, q ∈ P ∨ q ∈ E → d.slot.Issued q

variable {r : String} {base d d' : Desk} {P P' E E' : List String} {m : Move}

theorem unwrapped_of_moved (h : (d.moved m).slot.Unwrapped) : d.slot.Unwrapped :=
  Nat.le_trans (Slot.tokens_le_after d.slot m) h

theorem Apart.moved (h : Apart r base P E d) (ha : m.Allowed d.slot.state)
    (hs : (d.moved m).slot.Unwrapped → r ∉ P' ∧ r ∉ E') : Apart r base P' E' (d.moved m) where
  sound := h.sound.after ha
  issued := h.issued.after m
  grows := h.grows.trans (.single trivial (Slot.move?_of_allowed ha))
  apart := hs

theorem Spared.moved (h : Spared r base P E d) (ha : m.Allowed d.slot.state)
    (hs : (d.moved m).slot.Unwrapped → r ∉ P' ∧ r ∉ E')
    (ho : (d.moved m).slot.Unwrapped → Slot.Others r d.slot m) :
    Spared r base P' E' (d.moved m) where
  toApart := h.toApart.moved ha hs
  setup := h.setup
  calls hb := h.calls (unwrapped_of_moved hb)
  path hb := (h.path (unwrapped_of_moved hb)).trans (.single (ho hb) (Slot.move?_of_allowed ha))

namespace Apart

theorem of_eq (h : Apart r base P E d) (hs : d'.slot = d.slot) : Apart r base P E d' where
  sound := hs ▸ h.sound
  issued := hs ▸ h.issued
  grows := hs ▸ h.grows
  apart := hs ▸ h.apart

theorem of_subperm (h : Apart r base P E d) (hp : P'.Subperm P) : Apart r base P' E d :=
  { h with apart := fun hb => (h.apart hb).imp_left fun hn hm => hn (hp.subset hm) }

theorem retire {q : String} (h : Apart r base (q :: P) E d) : Apart r base P (q :: E) d :=
  { h with
    apart := fun hb => by
      obtain ⟨hp, he⟩ := h.apart hb
      rw [List.mem_cons, not_or] at hp
      exact ⟨hp.2, by simp [hp.1, he]⟩ }

/-- Who claims the slot gets a fresh id. -/
theorem not_mem_claimed (h : Apart r base P E d) (hb : (d.moved (.send none)).slot.Unwrapped) :
    r ∉ d.slot.nextId :: P ∧ r ∉ E := by
  obtain ⟨hp, he⟩ := h.apart (unwrapped_of_moved hb)
  exact ⟨by simp [(h.issued.nextId_ne (Slot.Unwrapped.lt_of_send hb)).symm, hp], he⟩

end Apart

/-- What its owner and everybody else do with a request keeps it with the owner. -/
theorem custody_apart (r : String) (base : Desk) :
    Custody (Step.isConsiderate r) (some r) (Apart r base) where
  sound h := h.sound
  frame h hs _ _ := h.of_eq hs
  of_subperm h hp := h.of_subperm hp
  retire h := h.retire
  claim h _ := h.moved trivial h.not_mem_claimed
  resend h _ := h.moved trivial fun hb => h.retire.apart (unwrapped_of_moved hb)
  serve h ha _ _ := h.moved ha fun hb => h.apart (unwrapped_of_moved hb)
  called h _ := h.of_eq (called_eq _ _).1
  command hc hl h := (obey_isConsiderate hc hl h.sound).imp_right fun ⟨m, ha, _, hq⟩ =>
    ⟨m, h.moved ha fun hb => h.apart (unwrapped_of_moved hb), hq⟩
  started h := by cases h
  dispatched _ _ _ := rfl

/-- Whatever anybody but its owner does leaves a request alone. -/
theorem custody_spared (r : String) (base : Desk) :
    Custody (Step.isConsiderate r) none (Spared r base) where
  sound h := h.sound
  frame {_ _ d d'} h hs hc hset := by
    have hcalls : d'.callsFor r = d.callsFor r := by rw [callsFor, hc, callsFor]
    exact ⟨h.toApart.of_eq hs, hset.trans h.setup, fun hb => hcalls.trans (h.calls (hs ▸ hb)),
      hs ▸ h.path⟩
  of_subperm h hp := { h with toApart := h.toApart.of_subperm hp }
  retire h := { h with toApart := h.toApart.retire }
  claim h _ := h.moved trivial h.not_mem_claimed fun _ => trivial
  resend h _ := h.moved trivial (fun hb => h.retire.apart (unwrapped_of_moved hb)) fun hb => by
    have hp := (h.apart (unwrapped_of_moved hb)).1
    exact fun he => hp (by simp [he])
  serve h ha _ ht := h.moved ha (fun hb => h.apart (unwrapped_of_moved hb)) fun hb => by
    have he := (h.apart (unwrapped_of_moved hb)).2
    exact Slot.others_of_target_ne fun h => he (h ▸ ht.resolve_right (by simp))
  called {e} _ _ d h hid := by
    obtain ⟨hs, hset, _, hc, _⟩ := called_eq d e
    refine ⟨h.toApart.of_eq hs, hset.trans h.setup, fun hb => ?_, hs ▸ h.path⟩
    rw [hs] at hb
    have hne : e.requestId ≠ r := fun he => (h.apart hb).2 (he ▸ hid.resolve_right (by simp))
    rw [← h.calls hb, callsFor, hc, callsFor]
    simp [hne]
  command hc hl h := (obey_isConsiderate hc hl h.sound).imp_right fun ⟨m, ha, ho, hq⟩ =>
    ⟨m, h.moved ha (fun hb => h.apart (unwrapped_of_moved hb)) fun _ => ho, hq⟩
  started h := by cases h
  dispatched _ _ _ := rfl

namespace Known

theorem moved (h : Known P E d) (ha : m.Allowed d.slot.state)
    (hs : ∀ q, q ∈ P' ∨ q ∈ E' → (m.after d.slot).Issued q) : Known P' E' (d.moved m) where
  reach := h.reach.trans (.single trivial (Slot.move?_of_allowed ha))
  issued := hs

theorem of_eq (h : Known P E d) (hs : d'.slot = d.slot) : Known P E d' where
  reach := hs ▸ h.reach
  issued := hs ▸ h.issued

theorem retire {q : String} (h : Known (q :: P) E d) : Known P (q :: E) d :=
  { h with
    issued := fun i hi => h.issued i (by simp only [List.mem_cons] at hi ⊢; grind) }

end Known

theorem custody_known (r : String) : Custody (Step.isConsiderate r) none Known where
  sound h := h.reach.sound Slot.sound_new
  frame h hs _ _ := h.of_eq hs
  of_subperm h hp := { h with issued := fun q hq => h.issued q (hq.imp_left fun hm => hp.subset hm) }
  retire h := h.retire
  claim h _ := h.moved trivial fun q hq => by
    rcases hq with hq | hq
    · rcases List.mem_cons.1 hq with rfl | hq
      · exact (h.reach.counted Slot.counted_new).issued_nextId
      · exact (h.issued q (.inl hq)).after _
    · exact (h.issued q (.inr hq)).after _
  resend h _ := h.moved trivial fun q hq => (h.retire.issued q hq).after _
  serve h ha _ _ := h.moved ha fun q hq => (h.issued q hq).after _
  called h _ := h.of_eq (called_eq _ _).1
  command hc hl h :=
    (obey_isConsiderate hc hl (h.reach.sound Slot.sound_new)).imp_right fun ⟨m, ha, _, hq⟩ =>
      ⟨m, h.moved ha fun q hq => (h.issued q hq).after m, hq⟩
  started h := by cases h
  dispatched _ _ _ := rfl

end Desk

end PromptDesk
