import PromptDesk.Proofs.Gate.Uses

/-! The last refusal that a gate keeps for users to read. It is that of the latest attempt, if that one
was refused and nobody has taken the record; but an attempt that is let through because its phase
cannot be read clears nothing, so the refusal before it stays. -/
namespace PromptDesk.Gate

/-- A use of some kind was made, and since then only quiet ones. -/
def Lately (quiet : Use → Prop) (p : Use → List Use → Prop) (us : List Use) : Prop :=
  ∃ since u before, us = since ++ u :: before ∧ p u before ∧ ∀ v ∈ since, quiet v

/-- Neither an attempt nor somebody who takes the last refusal. -/
def Use.Passes (u : Use) : Prop := u.isAttempt = false ∧ u ≠ .takeLastDrop

/-- An attempt came to this refusal. -/
def Refused (r : DropRecord) (u : Use) (before : List Use) : Prop :=
  u.refusal? (after before) = some r

/-- An attempt was let through in a phase that was read. -/
def Admitted (u : Use) (before : List Use) : Prop :=
  u.isBlind = false ∧ ∃ id, u.answer? (after before) = some (.allowed id)

/-- An attempt found no phase to read. -/
def Blind (u : Use) (_ : List Use) : Prop := u.isBlind = true

variable {quiet quiet' : Use → Prop} {p p' : Use → List Use → Prop} {u : Use} {us : List Use}
  {r : DropRecord}

theorem not_lately_nil : ¬ Lately quiet p [] := by
  rintro ⟨since, u, before, h, _⟩
  simp at h

theorem lately_cons : Lately quiet p (u :: us) ↔ p u us ∨ (quiet u ∧ Lately quiet p us) := by
  constructor
  · rintro ⟨since, v, before, h, hp, hq⟩
    cases since with
    | nil =>
      obtain ⟨rfl, rfl⟩ := List.cons.inj h
      exact .inl hp
    | cons w since =>
      obtain ⟨rfl, rfl⟩ := List.cons.inj h
      exact .inr ⟨hq u List.mem_cons_self, since, v, before, rfl, hp, fun x hx =>
        hq x (List.mem_cons_of_mem _ hx)⟩
  · rintro (hp | ⟨hu, since, v, before, rfl, hp, hq⟩)
    · exact ⟨[], u, us, rfl, hp, by simp⟩
    · refine ⟨u :: since, v, before, rfl, hp, fun x hx => ?_⟩
      rcases List.mem_cons.1 hx with rfl | hx
      · exact hu
      · exact hq x hx

theorem Lately.mono (h : Lately quiet p us) (hq : ∀ v, quiet v → quiet' v) : Lately quiet' p us := by
  obtain ⟨since, u, before, he, hp, hs⟩ := h
  exact ⟨since, u, before, he, hp, fun v hv => hq v (hs v hv)⟩

/-- Either there was nothing but what is quiet in one way since, or the latest use that was quiet in
another way only came after it. -/
theorem Lately.split (h : Lately (fun v => quiet v ∨ quiet' v) p us) :
    Lately quiet p us ∨ Lately quiet (fun v _ => quiet' v) us := by
  induction us with
  | nil => exact absurd h not_lately_nil
  | cons u us ih =>
    simp only [lately_cons] at h ⊢
    rcases h with hp | ⟨hq | hq', h⟩
    · exact .inl (.inl hp)
    · exact (ih h).imp (fun h => .inr ⟨hq, h⟩) fun h => .inr ⟨hq, h⟩
    · exact .inr (.inl hq')

/-- There is one latest use that is not quiet, so it is not of two kinds. -/
theorem Lately.false_of_apart (h : Lately quiet p us) (h' : Lately quiet' p' us)
    (hpp : ∀ u us, p u us → ¬ p' u us) (hpq : ∀ u us, p u us → ¬ quiet' u)
    (hqp : ∀ u us, p' u us → ¬ quiet u) : False := by
  induction us with
  | nil => exact not_lately_nil h
  | cons u us ih =>
    rcases lately_cons.1 h with hp | ⟨hq, h⟩
    · rcases lately_cons.1 h' with hp' | ⟨hq', _⟩
      · exact hpp u us hp hp'
      · exact hpq u us hp hq'
    · rcases lately_cons.1 h' with hp' | ⟨_, h'⟩
      · exact hqp u us hp' hq
      · exact ih h h'

/-- A refusal tells the reason, the notice of that reason and the source of an attempt in a phase that
was read. -/
theorem Refused.cases (h : Refused r u us) : u.isAttempt = true ∧ u.isBlind = false ∧
    r = ⟨r.reason, r.reason.message, sourceName u.source⟩ ∧ ¬ Admitted u us := by
  rw [Refused, Use.refusal?] at h
  have ho := (after us).outcome u
  rw [Admitted]
  generalize u.answer? (after us) = a at h ho ⊢
  generalize (after us).use u = g at ho
  cases ho with
  | refuses attempt reads reason =>
    obtain rfl := Option.some.inj h
    exact ⟨attempt, reads, rfl, by simp⟩
  | admits | admitsBlindly | takesCounts | takesLastDrop => cases h

/-- The last refusal that is kept is the latest one, unless an attempt was let through in a phase that
was read or somebody took it. -/
theorem lastDrop_iff (us : List Use) (r : DropRecord) : (after us).lastDrop = some r ↔
    Lately (fun v => v.Passes ∨ v.isBlind = true) (Refused r) us := by
  induction us with
  | nil => exact iff_of_false nofun not_lately_nil
  | cons u us ih =>
    have hr : Refused r u us ↔ u.refusal? (after us) = some r := Iff.rfl
    rw [lately_cons, after, ← ih, hr, Use.refusal?]
    have ho := (after us).outcome u
    generalize u.answer? (after us) = a at ho ⊢
    generalize (after us).use u = g at ho ⊢
    cases ho with
    | refuses attempt reads reason => simp [Use.Passes, attempt, reads, reject]
    | admits attempt reads id => simp [Use.Passes, attempt, reads]
    | admitsBlindly attempt blind id => simp [blind]
    | takesCounts => simp [Use.Passes, Use.isAttempt]
    | takesLastDrop => simp [Use.Passes, Use.isBlind]

/-- The last refusal after any uses of a fresh gate. It is the one that was made last, with the reason,
the notice and the source of its attempt, as long as nobody has taken it and no attempt was let through
since in a phase that was read. So it is that of the latest attempt, unless that one found no phase to
read and there is one to be kept. -/
theorem lastDrop_told (us : List Use) :
    (∀ r, (after us).lastDrop = some r ↔
      Lately (fun v => v.Passes ∨ v.isBlind = true) (Refused r) us) ∧
    ((∀ r, (after us).lastDrop = some r ↔ Lately Use.Passes (Refused r) us) ↔
      ¬ ((after us).lastDrop.isSome = true ∧ Lately (·.isAttempt = false) Blind us)) ∧
    ((after us).lastMessage = "" ↔ (after us).lastDrop = none) ∧
    (Lately (·.isAttempt = false) Admitted us → (after us).lastMessage = "") := by
  have passes_or : ∀ v : Use, v.Passes → v.Passes ∨ v.isBlind = true := fun _ => .inl
  have message : (after us).lastMessage = "" ↔ (after us).lastDrop = none := by
    rw [lastMessage]
    cases hd : (after us).lastDrop with
    | none => simp
    | some r =>
      obtain ⟨_, u, before, _, hr, _⟩ := (lastDrop_iff us r).1 hd
      have hm : r.message ≠ "" := by
        rw [hr.cases.2.2.1]
        exact r.reason.message_ne_empty
      simp [hm]
  refine ⟨lastDrop_iff us, ⟨fun h => ?_, fun h r => ?_⟩, message, fun h => message.2 ?_⟩
  · rintro ⟨hs, hb⟩
    obtain ⟨r, hr⟩ := Option.isSome_iff_exists.1 hs
    refine ((h r).1 hr).false_of_apart hb (fun u us hp hb => ?_) (fun u us hp hq => ?_)
      fun u us hb hq => ?_
    · exact absurd (hp.cases.2.1.symm.trans hb) nofun
    · exact absurd (hp.cases.1.symm.trans hq) nofun
    · exact absurd ((Use.isAttempt_of_isBlind hb).symm.trans hq.1) nofun
  · rw [lastDrop_iff]
    refine ⟨fun hl => hl.split.resolve_right fun hb => h ⟨?_, hb.mono fun _ hq => hq.1⟩,
      fun hl => hl.mono passes_or⟩
    rw [(lastDrop_iff us r).2 hl]
    rfl
  · by_contra hd
    obtain ⟨r, hr⟩ := Option.ne_none_iff_exists'.1 hd
    refine ((lastDrop_iff us r).1 hr).false_of_apart h (fun u us hp ha => hp.cases.2.2.2 ha)
      (fun u us hp hq => absurd (hp.cases.1.symm.trans hq) nofun) fun u us ha hq => ?_
    obtain ⟨reads, id, hid⟩ := ha
    rcases hq with hq | hq
    · exact absurd ((Use.isAttempt_of_answer hid).symm.trans hq.1) nofun
    · exact absurd (reads.symm.trans hq) nofun

/-- A slot is claimed, a second claim is refused, and a third one is let through after the slot was
closed: the refusal of the second one is still there to be read. -/
theorem lastDrop_kept_blindly : ¬ ∀ (us : List Use) (r : DropRecord),
    (after us).lastDrop = some r ↔ Lately Use.Passes (Refused r) us := by
  intro h
  let taken : Slot := (tryClaim {} {} "k1").2.1
  let us : List Use := [.tryClaim taken.close "k3", .tryClaim taken "k2", .tryClaim {} "k1"]
  have hd : (after us).lastDrop = some ⟨.inFlight, DropReason.inFlight.message, "k2"⟩ := by
    decide +kernel
  rcases lately_cons.1 ((h us _).1 hd) with hr | ⟨hp, _⟩
  · exact absurd hr.cases.2.1 nofun
  · exact absurd hp.1 nofun

end PromptDesk.Gate
