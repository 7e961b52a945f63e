import PromptDesk.Proofs.Desk.Resolved

/-! The tokens that executions heed. An execution takes up the token that is current when its transport
is called. As nobody sends the request of an execution again, that token is the current one whenever
the slot holds the request. -/
namespace PromptDesk

open Slot (Move)

namespace Task

/-- The request that a task works on. -/
def under? : Task → Option String
  | request q _ => q.id
  | execution e _ => some e.requestId
  | _ => none

/-- The token that a task heeds in the work on its request. -/
def token? : Task → Option Nat
  | execution e _ => e.stage.token?
  | _ => none

/-- The token that a task heeds is known to be that of its request. -/
def Watches (T : List (String × Nat)) (t : Task) : Prop :=
  ∀ id n, t.under? = some id → t.token? = some n → (id, n) ∈ T

variable {T T' : List (String × Nat)} {t : Task}

theorem Watches.mono (h : t.Watches T) (ht : T ⊆ T') : t.Watches T' :=
  fun id n hid hn => ht (h id n hid hn)

theorem watches_of_token? (h : t.token? = none) : t.Watches T := fun _ _ _ hn => by
  rw [h] at hn
  cases hn

theorem token?_of_isFor {id owner : Option String} (h : t.isFor id owner) : t.token? = none := by
  cases t with
  | execution e sequel =>
    rw [token?, h.2.2]
    rfl
  | _ => rfl

end Task

/-- What waits goes on with its request and its token. -/
theorem Turned.waits_token {p : Step → Bool} {W : Desk → Desk → Prop} {d : Desk} {e e' : Execution}
    {x : Desk × Progress} (h : Turned p W d e x) (hx : x.2 = .waiting e') :
    e'.requestId = e.requestId ∧ e'.stage.token? = e.stage.token? := by
  obtain ⟨d', _⟩ := x
  obtain rfl := hx
  obtain ⟨_, id, token, _⟩ := h.waits_cases
  exact ⟨id, token⟩

/-- An execution whose transport was called has a turn. -/
theorem Desk.turned_execute {p : Step → Bool} {R W : Desk → Desk → Prop} {d : Desk} {e : Execution}
    (h : Manner p R) (w : Work R W e.requestId) (hc : e.stage ≠ .claimed)
    (hb : e.stage.all p = true) : Turned p W d e (d.execute e) := by
  obtain ⟨id, draft, stage⟩ := e
  cases stage with
  | claimed => exact absurd rfl hc
  | opening attempt token limit playback items => exact .execute h w rfl hb
  | collecting attempt token limit playback => exact .execute h w rfl hb
  | reading r => exact .continueReading h w hb rfl

/-- Nobody but a request that is sent comes to hold the slot, or arms another token. -/
theorem Slot.Move.Allowed.holds_before {m : Move} {s : Slot} {id : String} (ha : m.Allowed s.state)
    (hm : ∀ id, m ≠ .send id) (h : (m.result s).holds id = true) :
    s.state.holds id = true ∧ m.armed s = s.armed := by
  cases m with
  | send id => exact absurd rfl (hm id)
  | stream id' =>
    obtain rfl := Option.some.inj (PhaseState.holds_iff.1 h).1
    exact ⟨ha.1, rfl⟩
  | complete id' | fail id' error | cancel id' => cases (PhaseState.holds_iff.1 h).2

namespace Desk

/-- Requests that wait are not in execution. Each of some requests is with nobody who could send it,
and has a token that is the current one while the request holds the slot. -/
structure Heeded (T : List (String × Nat)) (P E : List String) (d : Desk) : Prop
    extends Sorted "" False P E d where
  heeded : ∀ w ∈ T, d.slot.Issued w.1 ∧
    (d.slot.Unwrapped → w.1 ∉ P ∧ (d.slot.state.holds w.1 = true → d.slot.armed = w.2))

variable {T T' : List (String × Nat)} {P P' E E' H : List String} {d d' : Desk} {m : Move}
variable {r : String} {n : Nat} {t : Task}

namespace Heeded

theorem of_eq (h : Heeded T P E d) (hs : d'.slot = d.slot) : Heeded T P E d' where
  toSorted := h.toSorted.of_eq hs
  heeded := hs ▸ h.heeded

theorem of_subset (h : Heeded T P E d) (hs : Sorted "" False P' E' d) (hp : P' ⊆ P) :
    Heeded T P' E' d where
  toSorted := hs
  heeded w hw := (h.heeded w hw).imp_right fun ha hb => (ha hb).imp_left fun hn hm => hn (hp hm)

/-- A move keeps the tokens of all requests that it does not send. -/
theorem moved (h : Heeded T P E d) (hs : Sorted "" False P' E' (d.moved m))
    (ha : m.Allowed d.slot.state) (other : ∀ w ∈ T, (d.moved m).slot.Unwrapped → w.1 ∉ P' ∧
      ((∃ id, m = .send id) → m.target d.slot ≠ w.1)) : Heeded T P' E' (d.moved m) where
  toSorted := hs
  heeded w hw := by
    obtain ⟨hi, hk⟩ := h.heeded w hw
    refine ⟨hi.after m, fun hb => ?_⟩
    obtain ⟨hp, hsend⟩ := other w hw hb
    refine ⟨hp, fun hh => ?_⟩
    by_cases hm : ∃ id, m = .send id
    · have hf : (m.result d.slot).isFor w.1 = true := (Bool.and_eq_true_iff.1 hh).1
      rw [Move.isFor_result, beq_iff_eq] at hf
      exact absurd hf (hsend hm)
    · obtain ⟨hold, harm⟩ := ha.holds_before (fun id he => hm ⟨id, he⟩) hh
      exact harm.trans ((hk (unwrapped_of_moved hb)).2 hold)

theorem not_mem (h : Heeded T P E d) {w : String × Nat} (hw : w ∈ T)
    (hb : (d.moved m).slot.Unwrapped) : w.1 ∉ P :=
  ((h.heeded w hw).2 (unwrapped_of_moved hb)).1

/-- A fresh id is no request's yet. -/
theorem nextId_ne (h : Heeded T P E d) {w : String × Nat} (hw : w ∈ T)
    (hb : (d.moved (.send none)).slot.Unwrapped) : d.slot.nextId ≠ w.1 :=
  (h.heeded w hw).1.nextId_ne (Slot.Unwrapped.lt_of_send hb)

theorem claim (h : Heeded T P E d) : Heeded T (d.slot.nextId :: P) E (d.moved (.send none)) :=
  h.moved h.toSorted.claim trivial fun _ hw hb =>
    have hne := h.nextId_ne hw hb
    ⟨by simp [hne.symm, h.not_mem hw hb], fun _ => hne⟩

theorem retire {q : String} (h : Heeded T (q :: P) E d) : Heeded T P (q :: E) d :=
  h.of_subset h.toSorted.retire (List.subset_cons_self q P)

theorem resend {q : String} (h : Heeded T (q :: P) E d) :
    Heeded T P (q :: E) (d.moved (.send (some q))) :=
  h.moved h.toSorted.resend trivial fun w hw hb => by
    have hn := h.not_mem hw hb
    rw [List.mem_cons, not_or] at hn
    exact ⟨hn.2, fun _ he => hn.1 he.symm⟩

theorem serve (h : Heeded T P E d) (ha : m.Allowed d.slot.state) (hm : ∀ id, m ≠ .send id) :
    Heeded T P E (d.moved m) :=
  h.moved (h.toSorted.serve ha hm) ha fun _ hw hb =>
    ⟨h.not_mem hw hb, fun ⟨id, he⟩ => absurd he (hm id)⟩

/-- A request in execution keeps the token that it has while it holds the slot. -/
theorem watch (h : Heeded T P E d) (he : r ∈ E) : Heeded ((r, d.slot.armed) :: T) P E d where
  toSorted := h.toSorted
  heeded w hw := by
    rcases List.mem_cons.1 hw with rfl | hw
    · exact ⟨h.issued r (.inr he), fun hb => ⟨fun hp => (h.distinct hb).2 r hp he, fun _ => rfl⟩⟩
    · exact h.heeded w hw

end Heeded

theorem custody_heeded (T : List (String × Nat)) : Custody Step.isOrderly none (Heeded T) where
  sound h := h.reach.sound Slot.sound_new
  frame h hs _ _ := h.of_eq hs
  of_subperm h hp := h.of_subset (h.toSorted.of_subperm hp) hp.subset
  retire h := h.retire
  claim h _ := h.claim
  resend h _ := h.resend
  serve h ha hm _ := h.serve ha hm
  called h _ := h.of_eq (called_eq _ _).1
  command {c P E d} hc hl h := by
    rw [Step.isOrderly, Bool.or_eq_true] at hc
    rcases hc with hq | ho
    · exact .inl (quiet_obey d hq)
    · cases Exchange.effect (x := ⟨d, c⟩) ho (h.reach.sound Slot.sound_new) hl with
      | sends _ _ after _ =>
        exact .inr ⟨.send none, h.claim.of_subset
          (h.toSorted.claim.of_subperm (List.sublist_cons_self _ P).subperm)
          (List.subset_cons_self _ P), after⟩
      | moves m _ allowed after owned _ => exact .inr ⟨m, h.serve allowed owned, after⟩
      | stays _ after _ => exact .inl after
  started h := ⟨Option.isNone_iff_eq_none.1 h, fun h => h.claim.retire⟩
  dispatched _ _ _ := rfl

/-- The requests in custody are tended to, and tokens are heeded. -/
abbrev Heeding (T : List (String × Nat)) (H E : List String) (d : Desk) : Prop :=
  d.Tended Step.isOrderly (Heeded T) H E

namespace Heeding

theorem watch (h : d.Heeding T H E) (he : r ∈ E) : d.Heeding ((r, d.slot.armed) :: T) H E :=
  { h with custody := h.custody.watch he }

/-- An execution goes on with the token that it heeds, or takes up the current one. -/
theorem execute {e : Execution} (h : d.Heeding T H E) (he : e.requestId ∈ E)
    (hb : e.stage.all Step.isOrderly = true)
    (hw : ∀ n, e.stage.token? = some n → (e.requestId, n) ∈ T) :
    ∃ E' T', E ⊆ E' ∧ T ⊆ T' ∧ (d.execute e).1.Heeding T' H E' ∧
      ∀ e', (d.execute e).2 = .waiting e' → e'.requestId = e.requestId ∧
        ∀ n, e'.stage.token? = some n → (e'.requestId, n) ∈ T' := by
  have law := custody_heeded T
  obtain ⟨E', hE, h', _⟩ := Tended.execute law h (.inl he) hb
  by_cases hc : e.stage = .claimed
  · obtain ⟨id, draft, stage⟩ := e
    obtain rfl : stage = .claimed := hc
    have hlaunch : d.execute ⟨id, draft, .claimed⟩ = d.launch ⟨id, draft, .claimed⟩ := rfl
    cases ht : d.slot.tokenFor? id with
    | none =>
      obtain ⟨d', hl, _⟩ := launch_of_none (e := ⟨id, draft, .claimed⟩) ht
      refine ⟨E', T, hE, List.Subset.refl T, h', fun e' he' => ?_⟩
      rw [hlaunch, hl] at he'
      cases he'
    | some token =>
      have harm : token = d.slot.armed := by
        have heq := (law.sound h.custody).tokenFor?_eq id
        rw [ht] at heq
        split at heq
        · exact Option.some.inj heq
        · cases heq
      have law' := custody_heeded ((id, d.slot.armed) :: T)
      obtain ⟨E', hE, h', _⟩ := Tended.execute law' (h.watch he) (.inl he) hb
      obtain ⟨stage, hs, hall, hl⟩ := launch_of_token (e := ⟨id, draft, .claimed⟩) ht h.behaves
      refine ⟨E', _, hE, List.subset_cons_self _ T, h', fun e' he' => ?_⟩
      rw [hlaunch, hl] at he'
      obtain ⟨hid, htoken⟩ := Turned.waits_token
        (.execute law'.conduct.manner (work_tended law' id) (e := ⟨id, draft, stage⟩) hs hall) he'
      refine ⟨hid, fun n hn => ?_⟩
      rw [htoken, hs, harm] at hn
      rw [hid, ← Option.some.inj hn]
      exact List.mem_cons_self
  · have ht := turned_execute law.conduct.manner (work_tended law e.requestId) (d := d) hc hb
    refine ⟨E', T, hE, List.Subset.refl T, h', fun e' he' => ?_⟩
    obtain ⟨hid, htoken⟩ := ht.waits_token he'
    exact ⟨hid, fun n hn => hid ▸ hw n (htoken ▸ hn)⟩

end Heeding

/-- Work that concerns no request goes on as such. -/
theorem waits_of_isPlain {t' : Task} (h : t.isPlain = true) (hw : (d.turn t).2 = .waiting t') :
    t'.isPlain = true := by
  cases t with
  | await handle limit =>
    rw [turn] at hw
    split at hw
    · cases hw
    · split at hw <;> cases hw
      rfl
  | sleep due =>
    rw [turn] at hw
    split at hw <;> cases hw
    rfl
  | present handle quiet =>
    rw [turn] at hw
    split at hw <;> cases hw
    rfl
  | exports interval due =>
    simp only [turn] at hw
    split at hw
    · cases hw
    · split at hw
      · cases hw
        rfl
      · split at hw
        · cases hw
          rfl
        · split at hw <;> cases hw <;> rfl
  | request | execution | collect | read => cases h

/-- The turn that an execution had last before it came to wait, in the course of a turn of a task. -/
inductive LastTurn (p : Step → Bool) (F : List String → List String → Desk → Prop)
    (H E : List String) (t : Task) : Desk → Execution → Prop
  | mk {d₁ d' : Desk} {e e' : Execution} {E₁ : List String} (grows : E ⊆ E₁)
      (tended : d₁.Tended p F H E₁) (holds : e.requestId ∈ E₁) (behaves : e.stage.all p = true)
      (begun : e.stage = .claimed ∨ ∃ sequel, t = .execution e sequel)
      (claimed : ∀ q, t.claim? = some q → q ∈ E₁)
      (turn : d₁.execute e = (d', .waiting e')) : LastTurn p F H E t d' e'

namespace Tended

variable {p : Step → Bool} {own : Option String} {F : List String → List String → Desk → Prop}
variable {q : String} {e' : Execution}

/-- A request that was run and waits had its first turn last. -/
theorem run_waits (law : Custody p own F) (h : d.Tended p F (q :: H) E) {request : Request}
    (hid : request.id = some q) (hr : request.all p = true) {draft : Draft}
    (hw : (d.run request).2 = .ok (draft, .waiting e')) :
    ∃ (d₁ : Desk) (draft₁ : Draft) (E₁ : List String), E ⊆ E₁ ∧ q ∈ E₁ ∧ d₁.Tended p F H E₁ ∧
      d₁.execute ⟨q, draft₁, .claimed⟩ = ((d.run request).1, Progress.waiting e') := by
  have hs : Source.allIn p request.sources = true := by
    cases request
    exact hr
  obtain ⟨E₁, he₁, h₁⟩ := law.conduct.manner.gather request.sources d hs _ _ h
  rw [Desk.run] at hw ⊢
  generalize gather request.sources d = g at h₁ hw ⊢
  obtain ⟨d₁, _ | parts⟩ := g
  · cases hw
  · have h₂ := h₁.quiet law (quiet_prepare d₁ (d₁.draftFor request) request.prompt parts)
    have hdraft : (d₁.prepare (d₁.draftFor request) request.prompt parts).2.requestId = some q := hid
    obtain ⟨d₃, draft₃, h₃, hent⟩ := h₂.enter law hdraft
    rcases hent with hent | hent
    · simp only [send, hent] at hw ⊢
      obtain ⟨_, hp⟩ := Prod.mk.inj (Except.ok.inj hw)
      exact ⟨d₃, draft₃, q :: E₁, fun x hx => List.mem_cons_of_mem q (he₁ hx), List.mem_cons_self, h₃,
        Prod.ext rfl hp⟩
    · simp only [send, hent] at hw
      cases hw

/-- A delegate that waits had its first turn last. -/
theorem follow_waits (law : Custody p own F) (h : d.Tended p F H E) {request : Request}
    (hr : request.all p = true) {result : PromptResult} {sequel : Sequel}
    (hw : (d.follow request true result).2 = .waiting (.execution e' sequel)) :
    ∃ (q : String) (d₁ : Desk) (draft₁ : Draft) (E₁ : List String), E ⊆ E₁ ∧ q ∈ E₁ ∧
      d₁.Tended p F H E₁ ∧ d₁.execute ⟨q, draft₁, .claimed⟩ =
        ((d.follow request true result).1, Progress.waiting e') := by
  simp only [Desk.follow, if_true] at hw ⊢
  cases hcompleted : result.isCompleted with
  | false => simp [hcompleted] at hw
  | true =>
    cases hdirective : Directive.ofResponse? result.text with
    | none => simp [hcompleted, hdirective] at hw
    | some directive =>
      simp only [hcompleted, hdirective, Bool.not_true, Bool.false_eq_true, if_false] at hw ⊢
      generalize hc : d.claim delegateSource = out at hw ⊢
      obtain ⟨d₁, id | ⟨reason, message⟩⟩ := out
      · obtain ⟨q, rfl, h'⟩ := h.claim law hc
        have hall := Request.all_follow hr directive.prompt
          (directive.destinationOr result.destination) (some q)
        dsimp only at hw ⊢
        rw [Desk.runLast] at hw ⊢
        generalize hx : d₁.run _ = x at hw ⊢
        obtain ⟨d₂, m | ⟨draft, progress⟩⟩ := x
        · cases hw
        · cases progress with
          | waiting e =>
            obtain ⟨rfl, _⟩ := Task.execution.inj (Turn.waiting.inj hw)
            obtain ⟨d₃, draft₃, E₁, he, hq, h₃, hexec⟩ :=
              h'.run_waits law rfl hall (congrArg Prod.snd hx)
            rw [hx] at hexec
            exact ⟨q, d₃, draft₃, E₁, he, hq, h₃, hexec⟩
          | ended response | panicked message => cases hw
      · cases hw

/-- What waits after a turn had a turn of its own last. -/
theorem turn_waits (law : Custody p own F) (h : d.Tended p F (t.claim?.toList ++ H) E)
    (ht : t.IsProper p E) {sequel : Sequel}
    (hw : (d.turn t).2 = .waiting (.execution e' sequel)) :
    LastTurn p F H E t (d.turn t).1 e' := by
  obtain ⟨behaves, gated, holds⟩ := ht
  -- a delegate had its first turn after the task had ended
  have hfollow : ∀ {d₁ : Desk} {E₁ : List String} {response : Response} {s : Sequel}
      {destination : Destination}, E ⊆ E₁ → (∀ q, t.claim? = some q → q ∈ E₁) →
      d₁.Tended p F H E₁ → s.all p = true → s.isGated = true →
      (d₁.proceed destination s (.ended response)).2 = .waiting (.execution e' sequel) →
      LastTurn p F H E t (d₁.proceed destination s (.ended response)).1 e' := by
    intro d₁ E₁ response s destination he hcl h₁ hs hg hw
    cases s with
    | respond | conclude => cases hw
    | delegate request gated =>
      obtain rfl : gated = true := hg
      obtain ⟨q, d₂, draft₂, E₂, he₂, hq, h₂, hexec⟩ :=
        (h₁.quiet law (quiet_conclude d₁ destination response)).follow_waits law hs hw
      exact .mk (e := ⟨q, draft₂, .claimed⟩) (List.Subset.trans he he₂) h₂ hq rfl (.inl rfl)
        (fun q hq => he₂ (hcl q hq)) hexec
  cases t with
  | request request s =>
    obtain ⟨q, hid⟩ := Option.isSome_iff_exists.1 holds
    simp only [Task.all, Bool.and_eq_true] at behaves
    have hcl : (Task.request request s).claim? = some q := hid
    rw [hcl] at h
    obtain ⟨E₁, he₁, hq₁, h₁, _⟩ := h.run law hid behaves.1
    have hruns := fun draft (hw : (d.run request).2 = .ok (draft, .waiting e')) =>
      h.run_waits law hid behaves.1 hw
    rw [Desk.turn] at hw ⊢
    generalize d.run request = x at hw h₁ hruns ⊢
    obtain ⟨d₁, f | ⟨draft, progress⟩⟩ := x
    · cases hw
    · cases progress with
      | waiting e =>
        obtain rfl : e = e' := by cases s <;> exact (Task.execution.inj (Turn.waiting.inj hw)).1
        obtain ⟨d₂, draft₂, E₂, he₂, hq₂, h₂, hexec⟩ := hruns draft rfl
        have hd : (d₁.proceed draft.destination s (.waiting e)).1 = d₁ := by cases s <;> rfl
        refine .mk (e := ⟨q, draft₂, .claimed⟩) he₂ h₂ hq₂ rfl (.inl rfl) ?_ (by rw [hd]; exact hexec)
        intro q' hq'
        rw [hcl] at hq'
        exact Option.some.inj hq' ▸ hq₂
      | ended response =>
        refine hfollow he₁ (fun q' hq' => ?_) h₁ behaves.2 gated hw
        rw [hcl] at hq'
        exact Option.some.inj hq' ▸ hq₁
      | panicked message => cases s <;> cases hw
  | execution e s =>
    simp only [Task.all, Bool.and_eq_true] at behaves
    obtain ⟨E₁, he₁, h₁, _⟩ := h.execute law (.inl holds) behaves.1
    rw [Desk.turn] at hw ⊢
    generalize hx : d.execute e = x at hw h₁ ⊢
    obtain ⟨d₁, progress⟩ := x
    cases progress with
    | waiting e₁ =>
      obtain rfl : e₁ = e' := by cases s <;> exact (Task.execution.inj (Turn.waiting.inj hw)).1
      have hd : (d₁.proceed e.draft.destination s (.waiting e₁)).1 = d₁ := by cases s <;> rfl
      exact .mk (List.Subset.refl E) h holds behaves.1 (.inr ⟨s, rfl⟩) (by simp [Task.claim?])
        (by rw [hd]; exact hx)
    | ended response => exact hfollow he₁ (by simp [Task.claim?]) h₁ behaves.2 gated hw
    | panicked message => cases s <;> cases hw
  | collect limit playback | read reader => exact holds.elim
  | await | sleep | present | exports => cases waits_of_isPlain rfl hw

end Tended

/-- What waits after a turn heeds the token of its request, if the task did before. -/
theorem Heeding.turn {watched : Prop} (h : d.Heeding T (t.claim?.toList ++ H) E)
    (ht : t.IsProper Step.isOrderly E) (hw : watched → t.Watches T) :
    ∃ E' T', E ⊆ E' ∧ T ⊆ T' ∧ (∀ q, t.claim? = some q → q ∈ E') ∧
      (d.turn t).1.Heeding T' H E' ∧ (d.turn t).2.IsProper Step.isOrderly E' ∧
        (watched → ∀ t', (d.turn t).2 = .waiting t' → t'.Watches T') := by
  have law := custody_heeded T
  obtain ⟨E', hE, hcl, h', hp⟩ := Tended.turn law h ht
  by_cases hlast : watched ∧ ∃ e' sequel, (d.turn t).2 = .waiting (.execution e' sequel)
  · obtain ⟨hwatched, e', sequel, hwait⟩ := hlast
    obtain ⟨grows, tended, holds, behaves, begun, claimed, turn⟩ := Tended.turn_waits law h ht hwait
    rename_i d₁ e E₁
    have hheeds : ∀ n, e.stage.token? = some n → (e.requestId, n) ∈ T := fun n hn => by
      rcases begun with hc | ⟨s, rfl⟩
      · rw [hc] at hn
        cases hn
      · exact hw hwatched e.requestId n rfl hn
    obtain ⟨E₂, T', hE₂, hT, h₂, hwaits⟩ := Heeding.execute tended holds behaves hheeds
    rw [turn] at h₂ hwaits
    obtain ⟨hid, htoken⟩ := hwaits e' rfl
    rw [hwait] at hp ⊢
    refine ⟨E₂, T', List.Subset.trans grows hE₂, hT, fun q hq => hE₂ (claimed q hq), h₂,
      ⟨⟨hp.1.behaves, hp.1.gated, ?_⟩, rfl⟩, ?_⟩
    · rw [Task.Holds, hid]
      exact hE₂ holds
    · rintro - _ ⟨⟩ id n hid' hn
      exact Option.some.inj hid' ▸ htoken n hn
  · refine ⟨E', T, hE, List.Subset.refl T, hcl, h', hp, fun hwatched t' hwait => ?_⟩
    refine Task.watches_of_token? ?_
    cases t' with
    | execution e' sequel => exact absurd ⟨hwatched, e', sequel, hwait⟩ hlast
    | _ => rfl

/-- The jobs that report to a handle heed the tokens of their requests. -/
def Watched (T : List (String × Nat)) (d : Desk) : Prop :=
  ∀ j ∈ d.jobs, j.handle.isSome = true → ∀ t, j.task = some t → t.Watches T

namespace Watched

theorem mono (h : d.Watched T) (ht : T ⊆ T') : d.Watched T' :=
  fun j hj hh t hjt => (h j hj hh t hjt).mono ht

theorem of_jobs (h : d.Watched T) (hj : d'.jobs = d.jobs) : d'.Watched T := by
  rwa [Watched, hj]

/-- A new job has had no turn. -/
theorem files (h : d.Watched T) (hf : Files d d') : d'.Watched T := fun j hj hh t hjt => by
  obtain ⟨l, hl, hn⟩ := hf.jobs
  rw [hl] at hj
  rcases List.mem_append.1 hj with hj | hj
  · exact h j hj hh t hjt
  · obtain ⟨k, hk⟩ := Option.isSome_iff_exists.1 hh
    obtain ⟨_, _, hfor⟩ := hn j hj k hk
    exact Task.watches_of_token? (Task.token?_of_isFor (hfor t hjt))

theorem putJob (h : d.Watched T) (i : Nat) {j : Job} (task : Option Task)
    (hw : j.handle.isSome = true → ∀ t, task = some t → t.Watches T) :
    { d with jobs := d.jobs.set i { j with task := task } }.Watched T := fun j' hj' hh t hjt => by
  rcases List.mem_or_eq_of_mem_set hj' with hj' | rfl
  · exact h j' hj' hh t hjt
  · exact hw hh t hjt

theorem settle (h : d.Watched T) (j : Job) (e : Ending) : (d.settle j e).Watched T := by
  rw [settle_eq]
  have hr := h.files (files_returned d j e)
  split
  · refine hr.of_jobs ?_
    rw [resolve]
    split <;> rfl
  · exact hr

end Watched

/-- In the turn of a job all jobs that report to a handle come to heed the tokens of their requests. -/
theorem Heeding.turnOfJob (h : d.Heeding T H E) (hw : d.Watched T) (i : Nat) :
    ∃ E' T', E ⊆ E' ∧ (d.turnOfJob i).Heeding T' H E' ∧ (d.turnOfJob i).Watched T' := by
  have law := custody_heeded T
  rw [Desk.turnOfJob]
  cases ht : (d.job i).task with
  | none => exact ⟨E, T, List.Subset.refl E, h, hw⟩
  | some t =>
    have hmem : d.job i ∈ d.jobs := List.mem_of_getElem? (getElem?_of_task ht)
    obtain ⟨hp, ho, h₀⟩ := Tended.takeJob law h ht
    have hw₀ : { d with jobs := d.jobs.set i { d.job i with task := none } }.Watched T :=
      hw.putJob i none fun _ _ he => by cases he
    obtain ⟨E', T', hE, hT, hcl, h₁, hturn, hwaits⟩ :=
      Heeding.turn h₀ hp fun hh => hw _ hmem hh t ht
    have hw₁ := (hw₀.mono hT).files
      (.of_deeds (deeds_turn { d with jobs := d.jobs.set i { d.job i with task := none } } t))
    have ho' : ∀ id, (d.job i).owner = some id → id ∈ E' := fun id hid =>
      (ho id hid).elim (fun hm => hE hm) (hcl id)
    refine ⟨E', T', hE, ?_⟩
    have law' := custody_heeded T'
    dsimp only
    generalize Desk.turn _ t = out at h₁ hturn hwaits hw₁ ⊢
    obtain ⟨d₁, t' | e⟩ := out
    · have hj : Job.IsProper Step.isOrderly E' { d.job i with task := some t' } := by
        refine ⟨?_, fun _ id _ hid => .inl (ho' id hid)⟩
        rintro _ ⟨⟩
        exact hturn.1
      have hput := Tended.putJob law' h₁ i hj hturn.2
      have hwput : Watched T' { d₁ with jobs := d₁.jobs.set i { d.job i with task := some t' } } := by
        refine Watched.putJob hw₁ i (some t') fun hh => ?_
        rintro _ ⟨⟩
        exact hwaits hh t' rfl
      dsimp only
      split <;> exact ⟨hput.quiet law' (.of_eq rfl rfl rfl rfl rfl rfl), hwput.of_jobs rfl⟩
    · have hq : Quiet d₁ (d₁.await i []) := .of_eq rfl rfl rfl rfl rfl rfl
      have hw₂ : (d₁.await i []).Watched T' := hw₁.of_jobs rfl
      exact ⟨(h₁.quiet law' hq).settle law' ho' e, hw₂.settle (d.job i) e⟩

end Desk

end PromptDesk
