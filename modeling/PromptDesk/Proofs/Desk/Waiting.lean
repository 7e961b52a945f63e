import PromptDesk.Proofs.Desk.Delivery
import PromptDesk.Proofs.Desk.Reading
import PromptDesk.Proofs.Desk.Still

/-! How a reader waits. It is woken by its token, by its idle limit or by the end of its pause, and it
looks at them in this order. The clock never jumps over a time that somebody waits for, so a reader that
is woken by the clock is woken at that time. -/
namespace PromptDesk.Desk

namespace Glosses

variable {d d' d'' : Desk} {i : Nat}

theorem of_eq (setup : d'.setup = d.setup) (board : d'.board = d.board) : Glosses i d d' :=
  ⟨setup, board ▸ le_refl _, fun _ => board ▸ .refl _⟩

theorem trans (h : Glosses i d d') (h' : Glosses i d' d'') : Glosses i d d'' where
  setup := h'.setup.trans h.setup
  grows := h.grows.trans h'.grows
  glossed hi := (h.glossed hi).trans (h'.glossed (Nat.lt_of_lt_of_le hi h.grows))

end Glosses

/-- What a waiting reader can count on. Others may cancel it, and on its attempt they log nothing but
what happened beside its request; the clock goes on, but not over a time that the reader waits for. -/
structure Awaits (r : Reader) (d d' : Desk) : Prop where
  glosses : Glosses r.attempt d d'
  forward : d.clock ≤ d'.clock
  punctual : ∀ t, .clock t ∈ r.interests → d.clock < t → d'.clock ≤ t

/-- A run of a reader, turn by turn, with what happens while it waits. -/
inductive ReadsTo : Desk × Drained → Desk → ReadOutcome → Prop
  | ends (d : Desk) (outcome : ReadOutcome) : ReadsTo (d, .ended outcome) d outcome
  | waits {d d₁ d' : Desk} {r : Reader} {outcome : ReadOutcome} (meanwhile : Awaits r d d₁)
      (rest : ReadsTo (d₁.read r) d' outcome) : ReadsTo (d, .waiting r) d' outcome

variable {d d' : Desk} {i : Nat} {token : Option Nat} {idle : Option Limit} {outcome : ReadOutcome}

/-! ### Polls -/

theorem halt?_of_tripped (h : token.any d.slot.isTripped = true) (i : Nat) (idle : Option Limit) :
    d.halt? i token idle = some (d, .cancelled (d.board.attempt i).text) := if_pos h

theorem halt?_of_due {l : Limit} (h : token.any d.slot.isTripped = false) (hl : l.due ≤ d.clock)
    (i : Nat) : d.halt? i token (some l) =
      some (d.note i (.error l.failure.message), .failed l.failure) := by
  unfold halt?
  rw [h, if_neg Bool.false_ne_true]
  exact if_pos hl

/-- A reader that finds its token tripped is through, and has logged nothing more. -/
theorem ReadsTo.of_tripped {r : Reader} (h : ReadsTo (d.read r) d' outcome)
    (tripped : r.token.any d.slot.isTripped = true) :
    d' = d ∧ outcome = .cancelled (d.board.attempt r.attempt).text := by
  rw [read, halt?_of_tripped tripped] at h
  cases h
  exact ⟨rfl, rfl⟩

/-! ### Pauses -/

/-- How a pause of a reader comes to its end. -/
inductive Wakes (i : Nat) (token : Option Nat) (idle : Option Limit) (due : Nat) (rest : List Item)
    (d d' : Desk) (outcome : ReadOutcome) : Prop
  | cancelled (tripped : token.any d.slot.isTripped = true) (desk : d' = d)
      (outcome : outcome = .cancelled (d.board.attempt i).text)
  | late (untripped : token.any d.slot.isTripped = false) (l : Limit) (limit : idle = some l)
      (clock : d.clock = l.due) (desk : d' = d.note i (.error l.failure.message))
      (outcome : outcome = .failed l.failure)
  | passed (untripped : token.any d.slot.isTripped = false) (clock : d.clock = due)
      (ahead : ∀ l ∈ idle, d.clock < l.due) (run : ReadsTo (readItems i token rest idle d) d' outcome)

/-- A reader that pauses waits for its token, for its limit and for the end of its pause. -/
theorem mem_interests {interest : Interest} {due : Nat} {rest : List Item} {text : String} :
    interest ∈ (Reader.mk i token idle ⟨some (.clock due), rest, text⟩).interests ↔
      (∃ t ∈ token, .token t = interest) ∨ (∃ l ∈ idle, .clock l.due = interest) ∨
        interest = .clock due := by
  simp [Reader.interests, Limit.interests, Playback.interests]

/-- A reader that is woken at its limit is through. -/
theorem read_late {l : Limit} (h : token.any d.slot.isTripped = false) (hl : l.due ≤ d.clock)
    (i : Nat) (p : Playback) : d.read ⟨i, token, some l, p⟩ =
      (d.note i (.error l.failure.message), .ended (.failed l.failure)) := by
  rw [read, halt?_of_due h hl]

/-- A reader that is woken before its limit goes on if its pause is over. -/
theorem read_pause (h : token.any d.slot.isTripped = false) (ahead : ∀ l ∈ idle, d.clock < l.due)
    (i due : Nat) (rest : List Item) (text : String) :
    d.read ⟨i, token, idle, ⟨some (.clock due), rest, text⟩⟩ =
      if due ≤ d.clock then readItems i token rest idle d
      else (d, .waiting ⟨i, token, idle, ⟨some (.clock due), rest, text⟩⟩) := by
  rw [read, halt?_eq_none i h ahead]
  simp [isOver, isMet]

/-- A reader that waits is woken for good once: by its token, at its limit or at the end of its pause,
whichever comes first. -/
theorem ReadsTo.wakes {due : Nat} {rest : List Item} {text : String}
    (h : ReadsTo (d, .waiting ⟨i, token, idle, ⟨some (.clock due), rest, text⟩⟩) d' outcome)
    (hdue : d.clock < due) (ahead : ∀ l ∈ idle, d.clock < l.due) :
    ∃ d₁, Glosses i d d₁ ∧ d.clock ≤ d₁.clock ∧ d₁.clock ≤ due ∧ (∀ l ∈ idle, d₁.clock ≤ l.due) ∧
      Wakes i token idle due rest d₁ d' outcome := by
  generalize hx : (d, Drained.waiting ⟨i, token, idle, ⟨some (.clock due), rest, text⟩⟩) = x at h
  induction h generalizing d with
  | ends => cases hx
  | @waits d d₁ d' r outcome meanwhile run ih =>
    cases hx
    have hd : d₁.clock ≤ due :=
      meanwhile.punctual due (mem_interests.2 (.inr (.inr rfl))) hdue
    have hl : ∀ l ∈ idle, d₁.clock ≤ l.due := fun l hl =>
      meanwhile.punctual l.due (mem_interests.2 (.inr (.inl ⟨l, hl, rfl⟩))) (ahead l hl)
    cases tripped : token.any d₁.slot.isTripped with
    | true =>
      obtain ⟨hd', houtcome⟩ := run.of_tripped tripped
      exact ⟨d₁, meanwhile.glosses, meanwhile.forward, hd, hl, .cancelled tripped hd' houtcome⟩
    | false =>
      by_cases late : ∃ l, idle = some l ∧ l.due ≤ d₁.clock
      · obtain ⟨l, rfl, hdue'⟩ := late
        have hclock := Nat.le_antisymm (hl l rfl) hdue'
        rw [read_late tripped hdue'] at run
        cases run
        exact ⟨d₁, meanwhile.glosses, meanwhile.forward, hd, hl, .late tripped l rfl hclock rfl rfl⟩
      · have ahead₁ : ∀ l ∈ idle, d₁.clock < l.due :=
          fun l hl' => Nat.lt_of_not_le fun hle => late ⟨l, hl', hle⟩
        have hread := read_pause tripped ahead₁ i due rest text
        by_cases ended : due ≤ d₁.clock
        · rw [hread, if_pos ended] at run
          exact ⟨d₁, meanwhile.glosses, meanwhile.forward, hd, hl,
            .passed tripped (Nat.le_antisymm hd ended) ahead₁ run⟩
        · rw [if_neg ended] at hread
          obtain ⟨d₂, glosses, forward, hd₂, hl₂, wakes⟩ :=
            ih (Nat.lt_of_not_le ended) ahead₁ hread.symm
          exact ⟨d₂, meanwhile.glosses.trans glosses, meanwhile.forward.trans forward, hd₂, hl₂, wakes⟩

/-! ### The clock -/

theorem mem_dueTimes {interests : List Interest} {t : Nat} : t ∈ d.dueTimes interests ↔
    d.clock < t ∧ (.clock t ∈ interests ∨ ∃ w ∈ d.waits, w.interest = .clock t) := by
  rw [dueTimes, List.mem_filterMap]
  constructor
  · rintro ⟨interest, hm, hdue⟩
    cases interest with
    | clock due =>
      obtain ⟨hlt, heq⟩ := Option.ite_none_right_eq_some.1 hdue
      cases heq
      exact ⟨hlt, by simpa using hm⟩
    | _ => cases hdue
  · rintro ⟨hlt, hm⟩
    exact ⟨.clock t, by simpa using hm, if_pos hlt⟩

/-- The clock goes on to the first of the times that are waited for. -/
theorem exists_tick {interests : List Interest} {t : Nat} (ht : t ∈ d.dueTimes interests) :
    ∃ now, d.tick? interests = some (rouse { d with clock := now }) ∧ now ∈ d.dueTimes interests ∧
      ∀ t' ∈ d.dueTimes interests, now ≤ t' := by
  obtain ⟨now, hnow⟩ : ∃ now, (d.dueTimes interests).min? = some now := by
    rw [← Option.isSome_iff_exists, List.isSome_min?_iff]
    exact List.ne_nil_of_mem ht
  obtain ⟨hmem, hmin⟩ := List.min?_eq_some_iff.1 hnow
  exact ⟨now, by rw [tick?, hnow]; rfl, hmem, hmin⟩

/-! ### Alone at a desk -/

/-- Somebody who is alone waits until the first of the times that he waits for. -/
theorem AtRest.waitFor_clock (h : d.AtRest) {interests : List Interest} {t : Nat}
    (ht : .clock t ∈ interests) (ahead : d.clock < t) (unmet : interests.any d.isMet = false)
    (fuel : Nat) : ∃ now, Desk.waitFor interests (fuel + 2) d = some { d with clock := now } ∧
      .clock now ∈ interests ∧ d.clock < now ∧
      ∀ t', .clock t' ∈ interests → d.clock < t' → now ≤ t' := by
  obtain ⟨now, htick, hmem, hmin⟩ := exists_tick (mem_dueTimes.2 ⟨ahead, .inl ht⟩)
  obtain ⟨hlt, hclock⟩ := mem_dueTimes.1 hmem
  have hclock : .clock now ∈ interests := hclock.resolve_right (by simp [h.waits])
  refine ⟨now, ?_, hclock, hlt, fun t' ht' hlt' => hmin t' (mem_dueTimes.2 ⟨hlt', .inl ht'⟩)⟩
  have hrouse := AtRest.rouse_eq (d := { d with clock := now }) ⟨h.queue, h.waits⟩
  have hmet : interests.any ({ d with clock := now } : Desk).isMet = true :=
    List.any_eq_true.2 ⟨.clock now, hclock, by simp [isMet]⟩
  rw [Desk.waitFor, unmet, if_neg Bool.false_ne_true]
  split
  · rename_i hqueue
    rw [h.queue] at hqueue
    cases hqueue
  · rw [htick, hrouse, Option.bind_some, Desk.waitFor, hmet, if_pos rfl]

/-- What a turn of a reader in the foreground comes to in the end. -/
def goOn (fuel : Nat) : Desk × Drained → Desk × Option Ending
  | (d, .ended outcome) => (d, some (.success (.reading outcome)))
  | (d, .panicked message) => (d, some (.panic message))
  | (d, .waiting r) =>
    match waitFor r.interests turnLimit d.settleDown with
    | some d => finishTask fuel (.read r) d
    | none => (d, none)

theorem finishTask_read (fuel : Nat) (r : Reader) (d : Desk) :
    finishTask (fuel + 1) (.read r) d = goOn fuel (d.read r) := by
  rw [finishTask, turn]
  generalize d.read r = x
  obtain ⟨d₁, outcome | message | r₁⟩ := x
  · rfl
  · rfl
  · rfl

/-- A reader that is alone is woken by the clock, at its limit or at the end of its pause. -/
theorem AtRest.goOn_waiting (h : d.AtRest) (untripped : token.any d.slot.isTripped = false)
    {due : Nat} (hdue : d.clock < due) (ahead : ∀ l ∈ idle, d.clock < l.due) (i : Nat)
    (rest : List Item) (text : String) :
    let r : Reader := ⟨i, token, idle, ⟨some (.clock due), rest, text⟩⟩
    ∃ now, Awaits r d { d with clock := now } ∧
      (∀ fuel, goOn (fuel + 1) (d, .waiting r) =
        goOn fuel (({ d with clock := now } : Desk).read r)) ∧
      (now = due ∨ ∃ l ∈ idle, now = l.due) := by
  intro r
  have unmet : r.interests.any d.isMet = false := by
    rw [List.any_eq_false]
    intro interest hm
    rw [Bool.not_eq_true]
    rcases mem_interests.1 hm with ⟨t, rfl, rfl⟩ | ⟨l, hl, rfl⟩ | rfl
    · exact untripped
    · exact decide_eq_false (Nat.not_le.2 (ahead l hl))
    · exact decide_eq_false (Nat.not_le.2 hdue)
  obtain ⟨now, hwait, hclock, hlt, hmin⟩ :=
    h.waitFor_clock (mem_interests.2 (.inr (.inr rfl))) hdue unmet (Nat.pow 2 40 - 2)
  refine ⟨now, ⟨.of_eq rfl rfl, hlt.le, hmin⟩, fun fuel => ?_, ?_⟩
  · have hlimit : Nat.pow 2 40 - 2 + 2 = turnLimit := rfl
    rw [hlimit] at hwait
    rw [goOn, h.settleDown, hwait]
    exact finishTask_read fuel r _
  · rcases mem_interests.1 hclock with ⟨_, _, ht⟩ | ⟨l, hl, ht⟩ | ht
    · cases ht
    · exact .inr ⟨l, hl, (Interest.clock.inj ht).symm⟩
    · exact .inl (Interest.clock.inj ht)

end PromptDesk.Desk
