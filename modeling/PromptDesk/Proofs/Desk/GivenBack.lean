import PromptDesk.Proofs.Desk.Turns
import PromptDesk.Proofs.Desk.Apart

/-! Requests that are past. When the execution of a request comes to an end that is no panic, the
slot is not in flight under it, and as nobody is left to send it again, it never will be. -/
namespace PromptDesk

open Slot (Move)

/-- A submission, a request that is run under an id of its own, or a command that sends nothing but
events for the request in flight. -/
def Step.isOrderly : Step → Bool
  | .command c => c.isQuiet || c.isOwned
  | .submit _ _ _ | .prepare _ _ _ | .logEntry _ _ => true
  | .run q _ => q.id.isNone
  | .dispatch _ _ _ => false

namespace Desk

/-- Requests that wait are not in execution. One that is past is with nobody who could send it, and
the slot is not in flight under it. -/
structure Sorted (r : String) (past : Prop) (P E : List String) (d : Desk) : Prop
    extends Known P E d where
  distinct : d.slot.Unwrapped → P.Nodup ∧ ∀ q ∈ P, q ∉ E
  past : past → d.slot.Issued r ∧ (d.slot.Unwrapped → r ∉ P ∧ d.slot.state.holds r = false)

variable {r : String} {past past' : Prop} {P P' E E' H : List String} {d d' : Desk} {m : Move}

namespace Sorted

theorem imp (h : Sorted r past P E d) (hp : past' → past) : Sorted r past' P E d :=
  { h with past := fun hpast => h.past (hp hpast) }

theorem of_eq (h : Sorted r past P E d) (hs : d'.slot = d.slot) : Sorted r past P E d' where
  toKnown := h.toKnown.of_eq hs
  distinct := hs ▸ h.distinct
  past := hs ▸ h.past

theorem of_subperm (h : Sorted r past P E d) (hp : P'.Subperm P) : Sorted r past P' E d where
  reach := h.reach
  issued q hq := h.issued q (hq.imp_left fun hm => hp.subset hm)
  distinct hb := by
    obtain ⟨hn, hd⟩ := h.distinct hb
    obtain ⟨l, hl, hs⟩ := hp
    exact ⟨hl.nodup_iff.1 (hn.sublist hs), fun q hm => hd q (hs.subset (hl.mem_iff.2 hm))⟩
  past hpast := (h.past hpast).imp_right fun hr hb => (hr hb).imp_left fun hn hm => hn (hp.subset hm)

theorem retire {q : String} (h : Sorted r past (q :: P) E d) : Sorted r past P (q :: E) d where
  toKnown := h.toKnown.retire
  distinct hb := by
    obtain ⟨hn, hd⟩ := h.distinct hb
    obtain ⟨hq, hn⟩ := List.nodup_cons.1 hn
    refine ⟨hn, fun p hp he => ?_⟩
    rcases List.mem_cons.1 he with rfl | he
    · exact hq hp
    · exact hd p (List.mem_cons_of_mem _ hp) he
  past hpast := (h.past hpast).imp_right fun hr hb =>
    (hr hb).imp_left fun hn hm => hn (List.mem_cons_of_mem _ hm)

/-- A move for another request leaves one that is past alone. -/
theorem moved (h : Sorted r past P E d) (ha : m.Allowed d.slot.state)
    (issued : ∀ q, q ∈ P' ∨ q ∈ E' → (m.after d.slot).Issued q)
    (distinct : (d.moved m).slot.Unwrapped → P'.Nodup ∧ ∀ q ∈ P', q ∉ E')
    (other : past → (d.moved m).slot.Unwrapped → r ∉ P' ∧ m.target d.slot ≠ r) :
    Sorted r past P' E' (d.moved m) where
  toKnown := h.toKnown.moved ha issued
  distinct := distinct
  past hpast := by
    refine ⟨(h.past hpast).1.after m, fun hb => (other hpast hb).imp_right fun hne => ?_⟩
    simp [PhaseState.holds, hne]

theorem distinct_moved (h : Sorted r past P E d) (hb : (d.moved m).slot.Unwrapped) :
    P.Nodup ∧ ∀ q ∈ P, q ∉ E := h.distinct (unwrapped_of_moved hb)

/-- A request that is sent under a fresh id is nobody else's. -/
theorem fresh (h : Sorted r past P E d) (hb : (d.moved (.send none)).slot.Unwrapped) {q : String}
    (hq : q ∈ P ∨ q ∈ E) : d.slot.nextId ≠ q :=
  (h.issued q hq).nextId_ne (Slot.Unwrapped.lt_of_send hb)

theorem issued_nextId (h : Sorted r past P E d) :
    ((Move.send none).after d.slot).Issued d.slot.nextId :=
  (h.reach.counted Slot.counted_new).issued_nextId

theorem other_of_send (h : Sorted r past P E d) (hpast : past)
    (hb : (d.moved (.send none)).slot.Unwrapped) : r ∉ P ∧ d.slot.nextId ≠ r :=
  ⟨((h.past hpast).2 (unwrapped_of_moved hb)).1,
    (h.past hpast).1.nextId_ne (Slot.Unwrapped.lt_of_send hb)⟩

theorem claim (h : Sorted r past P E d) :
    Sorted r past (d.slot.nextId :: P) E (d.moved (.send none)) := by
  refine h.moved trivial (fun q hq => ?_) (fun hb => ?_) fun hpast hb => ?_
  · rw [List.mem_cons, or_assoc] at hq
    exact hq.elim (· ▸ h.issued_nextId) fun hq => (h.issued q hq).after _
  · obtain ⟨hn, hd⟩ := h.distinct_moved hb
    refine ⟨List.nodup_cons.2 ⟨fun hm => h.fresh hb (.inl hm) rfl, hn⟩, fun q hq he => ?_⟩
    rcases List.mem_cons.1 hq with rfl | hq
    · exact h.fresh hb (.inr he) rfl
    · exact hd q hq he
  · obtain ⟨hn, hne⟩ := h.other_of_send hpast hb
    exact ⟨by simp [hne.symm, hn], hne⟩

/-- A request that is run without asking the gate is in execution at once. -/
theorem start (h : Sorted r past P E d) :
    Sorted r past P (d.slot.nextId :: E) (d.moved (.send none)) := h.claim.retire

theorem resend {q : String} (h : Sorted r past (q :: P) E d) :
    Sorted r past P (q :: E) (d.moved (.send (some q))) := by
  refine h.moved trivial (fun p hp => (h.retire.issued p hp).after _)
    (fun hb => h.retire.distinct (unwrapped_of_moved hb)) fun hpast hb => ?_
  obtain ⟨hn, _⟩ := (h.past hpast).2 (unwrapped_of_moved hb)
  rw [List.mem_cons, not_or] at hn
  exact ⟨hn.2, fun he => hn.1 he.symm⟩

/-- A move of the request in flight. -/
theorem serve (h : Sorted r past P E d) (ha : m.Allowed d.slot.state) (hm : ∀ id, m ≠ .send id) :
    Sorted r past P E (d.moved m) := by
  refine h.moved ha (fun q hq => (h.issued q hq).after m) h.distinct_moved fun hpast hb => ?_
  obtain ⟨hn, hh⟩ := (h.past hpast).2 (unwrapped_of_moved hb)
  refine ⟨hn, fun he => ?_⟩
  rw [← he, ha.holds_target hm] at hh
  cases hh

/-- A request in execution is past when the slot is not in flight under it. -/
theorem passed (h : Sorted r past P E d) (he : r ∈ E) (hn : d.slot.state.holds r = false) :
    Sorted r True P E d :=
  { h with past := fun _ =>
      ⟨h.issued r (.inr he), fun hb => ⟨fun hp => (h.distinct hb).2 r hp he, hn⟩⟩ }

end Sorted

theorem custody_sorted (r : String) (past : Prop) :
    Custody Step.isOrderly none (Sorted r past) where
  sound h := h.reach.sound Slot.sound_new
  frame h hs _ _ := h.of_eq hs
  of_subperm h hp := h.of_subperm hp
  retire h := h.retire
  claim h _ := h.claim
  resend h _ := h.resend
  serve h ha hm _ := h.serve ha hm
  called h _ := h.of_eq (called_eq _ _).1
  command {c P E d} hc hl h := by
    rw [Step.isOrderly, Bool.or_eq_true] at hc
    rcases hc with hq | ho
    · exact .inl (quiet_obey d hq)
    · cases Exchange.effect (x := ⟨d, c⟩) ho (h.reach.sound Slot.sound_new) hl with
      | sends _ _ after _ =>
        refine .inr ⟨.send none, ?_, after⟩
        refine h.moved trivial (fun q hq => (h.issued q hq).after _) h.distinct_moved ?_
        exact h.other_of_send
      | moves m _ allowed after owned _ => exact .inr ⟨m, h.serve allowed owned, after⟩
      | stays _ after _ => exact .inl after
  started h := ⟨Option.isNone_iff_eq_none.1 h, fun h => h.start⟩
  dispatched _ _ _ := rfl

/-- The requests in custody are tended to, and one of them may be past. -/
abbrev Orderly (r : String) (past : Prop) (H E : List String) (d : Desk) : Prop :=
  d.Tended Step.isOrderly (Sorted r past) H E

end Desk

def Progress.isEnded : Progress → Bool
  | .ended _ => true
  | .waiting _ | .panicked _ => false

/-- Work on a request that its job gives back if the request is not sent. -/
def Task.isOn (r : String) (owner : Option String) : Task → Prop
  | request q _ => q.id = some r ∧ owner = some r
  | execution e _ => e.requestId = r
  | _ => False

/-- What comes of a turn on a request: it is past, or its execution goes on or ended in a panic. -/
def Turn.Answers (r : String) (past : Prop) : Turn → Prop
  | .waiting (.execution e _) => past ∨ e.requestId = r
  | .ended (.panic _) => True
  | .waiting _ | .ended _ => past

theorem Turn.answers_of_past {r : String} {past : Prop} (h : past) (t : Turn) : t.Answers r past := by
  cases t with
  | waiting t => cases t <;> first | exact h | exact .inl h
  | ended e => cases e <;> first | exact h | trivial

namespace Desk

variable {r : String} {past past' : Prop} {P P' E E' H : List String} {d d' : Desk} {m : Move}

namespace Orderly

theorem imp (h : d.Orderly r past H E) (hp : past' → past) : d.Orderly r past' H E :=
  { h with custody := h.custody.imp hp }

theorem passed (h : d.Orderly r past H E) (he : r ∈ E) (hn : d.slot.state.holds r = false) :
    d.Orderly r True H E := { h with custody := h.custody.passed he hn }

/-- A request is past when its execution has given the slot back. -/
theorem finish (h : d.Orderly r past H E) (he : r ∈ E) (attempt : Nat) (outcome : ReadOutcome) :
    ∃ E', E ⊆ E' ∧ (d.finish r attempt outcome).1.Orderly r True H E' ∧
      (d.finish r attempt outcome).2.IsProper Step.isOrderly r := by
  have law := custody_sorted r True
  have hmoved : ∀ m : Move, m.Allowed d.slot.state → (∀ id, m ≠ .send id) →
      (m.result d.slot).isInFlight = false → (d.moved m).Orderly r True H E := fun m ha hm hn =>
    passed (Tended.moved h (List.Subset.refl E) (h.custody.serve ha hm)) he
      (by simp [PhaseState.holds, hn])
  have hf := finishes_finish law.conduct.manner h.behaves r attempt outcome
  generalize d.finish r attempt outcome = x at hf ⊢
  cases hf with
  | completes holds after _ | panics holds after =>
    obtain ⟨E', hE, h'⟩ := after H E (hmoved (.complete r) holds (by rintro _ ⟨⟩) rfl)
    exact ⟨E', hE, h', trivial⟩
  | @fails f holds =>
    exact ⟨E, List.Subset.refl E, hmoved (.fail r f.message) holds (by rintro _ ⟨⟩) rfl, trivial⟩
  | cancels holds after =>
    have h' := hmoved (.cancel r) holds (by rintro _ ⟨⟩) rfl
    exact ⟨E, List.Subset.refl E, h'.quiet law after, trivial⟩
  | faults lost => exact ⟨E, List.Subset.refl E, passed h he lost, trivial⟩
  | drops lost after _ => exact ⟨E, List.Subset.refl E, (passed h he lost).quiet law after, trivial⟩

theorem turned {e : Execution} {x : Desk × Progress} (h : d.Orderly r False H E) (he : r ∈ E)
    (hid : e.requestId = r)
    (ht : Turned Step.isOrderly (Serves Step.isOrderly none (Sorted r False) e.requestId) d e x) :
    ∃ E', E ⊆ E' ∧ x.1.Orderly r (x.2.isEnded = true) H E' ∧ x.2.IsProper Step.isOrderly r := by
  subst hid
  cases ht with
  | waits work hid' _ _ behaves =>
    obtain ⟨E', hE, h'⟩ := work H E (.inl he) h
    exact ⟨E', hE, Orderly.imp h' nofun, hid', behaves⟩
  | panics work =>
    obtain ⟨E', hE, h'⟩ := work H E (.inl he) h
    exact ⟨E', hE, Orderly.imp h' nofun, trivial⟩
  | ends attempt outcome work _ =>
    obtain ⟨E₁, h₁, hd⟩ := work H E (.inl he) h
    obtain ⟨E₂, h₂, hd', hp⟩ := Orderly.finish hd (h₁ he) attempt outcome
    exact ⟨E₂, List.Subset.trans h₁ h₂, hd'.imp fun _ => trivial, hp⟩

theorem execute {e : Execution} (h : d.Orderly r False H E) (he : r ∈ E) (hid : e.requestId = r)
    (hb : e.stage.all Step.isOrderly = true) :
    ∃ E', E ⊆ E' ∧ (d.execute e).1.Orderly r ((d.execute e).2.isEnded = true) H E' ∧
      (d.execute e).2.IsProper Step.isOrderly r := by
  have law := custody_sorted r False
  have hw := work_tended law e.requestId
  obtain ⟨id, draft, stage⟩ := e
  cases stage with
  | claimed =>
    obtain rfl : id = r := hid
    cases ht : d.slot.tokenFor? id with
    | none =>
      have hn : d.slot.state.holds id = false := by
        have := (law.sound h.custody).tokenFor?_eq id
        rw [ht] at this
        by_contra hh
        rw [Bool.not_eq_false] at hh
        rw [hh] at this
        cases this
      obtain ⟨d', hl, hq⟩ := launch_of_none (e := ⟨id, draft, .claimed⟩) ht
      rw [show d.execute ⟨id, draft, .claimed⟩ = d.launch ⟨id, draft, .claimed⟩ from rfl, hl]
      exact ⟨E, List.Subset.refl E,
        Orderly.imp ((passed h he hn).quiet (custody_sorted id True) hq) fun _ => trivial, trivial⟩
    | some token =>
      obtain ⟨stage, hs, hall, hl⟩ := launch_of_token (e := ⟨id, draft, .claimed⟩) ht h.behaves
      rw [show d.execute ⟨id, draft, .claimed⟩ = d.launch ⟨id, draft, .claimed⟩ from rfl, hl]
      exact turned (h.called law (e := ⟨id, draft, .claimed⟩) (.inl he)) he (e := ⟨id, draft, stage⟩)
        rfl (.execute law.conduct.manner hw hs hall)
  | opening attempt token limit playback items =>
    exact turned h he hid (.execute law.conduct.manner hw rfl hb)
  | collecting attempt token limit playback =>
    exact turned h he hid (.execute law.conduct.manner hw rfl hb)
  | reading reader => exact turned h he hid (.continueReading law.conduct.manner hw hb rfl)

theorem failOwned (h : d.Orderly r past H E) (he : r ∈ E) (f : Failure) :
    (d.failOwned r f).Orderly r True H E := by
  have hn : (d.failOwned r f).slot.state.holds r = false := by
    rw [← Bool.not_eq_true, holds_failOwned]
    exact fun h => h.1 rfl
  exact passed (Tended.failOwned (custody_sorted r past) h (.inl he) f) he hn

/-- A claimed request is past when it is refused, or when its execution has ended at once. -/
theorem send {draft : Draft} (h : d.Orderly r False (r :: H) E) (hid : draft.requestId = some r) :
    ∃ E', E ⊆ E' ∧ r ∈ E' ∧ (d.send draft).1.Orderly r ((d.send draft).2.2.isEnded = true) H E' ∧
      (d.send draft).2.2.IsProper Step.isOrderly r := by
  have law := custody_sorted r False
  have hkept := (h.retire law).quiet law (quiet_withSlot_self d)
  have hexec : ∀ {d' : Desk} (draft' : Draft), d'.Orderly r False H (r :: E) → ∃ E', E ⊆ E' ∧ r ∈ E' ∧
      (d'.execute ⟨r, draft', .claimed⟩).1.Orderly r
        ((d'.execute ⟨r, draft', .claimed⟩).2.isEnded = true) H E' ∧
      (d'.execute ⟨r, draft', .claimed⟩).2.IsProper Step.isOrderly r := fun draft' h' => by
    obtain ⟨E', hE, hd, hp⟩ :=
      execute h' (e := ⟨r, draft', .claimed⟩) List.mem_cons_self rfl rfl
    exact ⟨E', fun x hx => hE (List.mem_cons_of_mem r hx), hE List.mem_cons_self, hd, hp⟩
  rw [Desk.send]
  rcases enter_cases (d := d) hid with ⟨hf, hc, he⟩ | ⟨_, _, _, he⟩ | ⟨hn, he⟩
  · have hn : d.slot.state.holds r = false := by
      by_contra hh
      rw [Bool.not_eq_false] at hh
      have hw := (law.sound h.custody).wanted (PhaseState.holds_iff.1 hh).2
      rw [hc] at hw
      cases hw
    rw [he]
    refine ⟨r :: E, List.subset_cons_self r E, List.mem_cons_self, ?_, trivial⟩
    exact imp ((passed hkept List.mem_cons_self hn).quiet (custody_sorted r True)
      (quiet_cancelledBeforeStart _ r)) fun _ => trivial
  · rw [he]
    exact hexec _ hkept
  · rw [he]
    refine hexec _ (Tended.moved h (List.subset_cons_self r E) ?_)
    exact law.resend h.custody fun hf => (hn hf).2

/-- A request that was run is past when its execution has ended at once. If its sources fail, the
slot is still to be given back. -/
theorem run {q : Request} (h : d.Orderly r False (r :: H) E) (hid : q.id = some r)
    (hq : q.all Step.isOrderly = true) :
    ∃ E', E ⊆ E' ∧ r ∈ E' ∧ (d.run q).1.Orderly r False H E' ∧
      ∀ draft progress, (d.run q).2 = .ok (draft, progress) →
        (d.run q).1.Orderly r (progress.isEnded = true) H E' ∧
          progress.IsProper Step.isOrderly r := by
  have law := custody_sorted r False
  have hs : Source.allIn Step.isOrderly q.sources = true := by
    cases q
    exact hq
  obtain ⟨E₁, he₁, h₁⟩ := law.conduct.manner.gather q.sources d hs _ _ h
  rw [Desk.run]
  generalize gather q.sources d = g at h₁ ⊢
  obtain ⟨d₁, f | parts⟩ := g
  · dsimp only
    refine ⟨r :: E₁, fun x hx => List.mem_cons_of_mem r (he₁ hx), List.mem_cons_self,
      h₁.retire law, ?_⟩
    intro draft progress he
    cases he
  · have h₂ := h₁.quiet law (quiet_prepare d₁ (d₁.draftFor q) q.prompt parts)
    have hdraft : (d₁.prepare (d₁.draftFor q) q.prompt parts).2.requestId = some r := hid
    generalize hprep : d₁.prepare (d₁.draftFor q) q.prompt parts = prepared at h₂ hdraft
    obtain ⟨d₂, draft⟩ := prepared
    obtain ⟨E₂, he₂, hr, h₃, hp⟩ := send h₂ hdraft
    simp only [hprep]
    generalize d₂.send draft = out at h₃ hp ⊢
    obtain ⟨d₃, draft', progress⟩ := out
    refine ⟨E₂, List.Subset.trans he₁ he₂, hr, imp h₃ False.elim, fun draft'' progress' he => ?_⟩
    obtain ⟨_, rfl⟩ := Prod.mk.inj (Except.ok.inj he)
    exact ⟨h₃, hp⟩

/-- What follows a turn on a request that may be past. -/
theorem proceed {sequel : Sequel} {progress : Progress}
    (h : d.Orderly r (progress.isEnded = true) H E) (he : r ∈ E)
    (hp : progress.IsProper Step.isOrderly r) (hs : sequel.all Step.isOrderly = true)
    (hg : sequel.isGated = true) (destination : Destination) :
    ∃ E', E ⊆ E' ∧ (d.proceed destination sequel progress).1.Orderly r (progress.isEnded = true) H E' ∧
      (d.proceed destination sequel progress).2.IsProper Step.isOrderly E' ∧
        (d.proceed destination sequel progress).2.Answers r (progress.isEnded = true) := by
  obtain ⟨E', hE, h', hturn⟩ := Tended.proceed (custody_sorted r _) h he hp hs hg destination
  refine ⟨E', hE, h', hturn, ?_⟩
  cases progress with
  | waiting e => cases sequel <;> exact .inr hp.1
  | panicked message => cases sequel <;> trivial
  | ended response => exact Turn.answers_of_past rfl _

/-- A turn on a request. If it fails, the request is past, unless its own sources failed; if they
panicked, so does the turn. -/
theorem turn {t : Task} {owner : Option String} (h : d.Orderly r False (t.claim?.toList ++ H) E)
    (ht : t.IsProper Step.isOrderly E) (on : t.isOn r owner) :
    ∃ E' past, E ⊆ E' ∧ (∀ q, t.claim? = some q → q ∈ E') ∧ r ∈ E' ∧
      (d.turn t).1.Orderly r past H E' ∧ (d.turn t).2.IsProper Step.isOrderly E' ∧
        ((d.turn t).2.Answers r past ∨ owner = some r ∧ ∃ f, (d.turn t).2 = .ended (.failure f)) := by
  obtain ⟨behaves, gated, holds⟩ := ht
  cases t with
  | request q sequel =>
    obtain ⟨hid, howner⟩ := on
    simp only [Task.all, Bool.and_eq_true] at behaves
    have hcl : (Task.request q sequel).claim? = some r := hid
    rw [hcl] at h ⊢
    obtain ⟨E₁, he₁, hr, h₁, hok⟩ := run h hid behaves.1
    rw [Desk.turn]
    generalize d.run q = x at h₁ hok ⊢
    obtain ⟨d₁, m | ⟨draft, progress⟩⟩ := x
    · refine ⟨E₁, False, he₁, by rintro _ ⟨⟩; exact hr, hr, h₁, trivial, ?_⟩
      cases m with
      | failure f => exact .inr ⟨howner, f, rfl⟩
      | panic payload => exact .inl trivial
    · obtain ⟨h₂, hp⟩ := hok draft progress rfl
      obtain ⟨E₂, he₂, h₃, hturn, hans⟩ := proceed h₂ hr hp behaves.2 gated draft.destination
      exact ⟨E₂, _, List.Subset.trans he₁ he₂, by rintro _ ⟨⟩; exact he₂ hr, he₂ hr, h₃, hturn,
        .inl hans⟩
  | execution e sequel =>
    obtain rfl : e.requestId = r := on
    simp only [Task.all, Bool.and_eq_true] at behaves
    obtain ⟨E₁, he₁, h₁, hp⟩ := execute h holds rfl behaves.1
    obtain ⟨E₂, he₂, h₂, hturn, hans⟩ :=
      proceed h₁ (he₁ holds) hp behaves.2 gated e.draft.destination
    exact ⟨E₂, _, List.Subset.trans he₁ he₂, by rintro _ ⟨⟩, he₂ (he₁ holds), h₂, hturn, .inl hans⟩
  | _ => exact on.elim

end Orderly

end Desk

end PromptDesk
