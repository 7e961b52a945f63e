import PromptDesk.Proofs.Desk.Work

/-! Requests in custody. Where requests come in by submission, every claimed id is with exactly one
task, which either waits for its execution or has begun it. A condition on those that wait and those
in execution which is kept by what may be done with them is kept by everything that a desk does. -/
namespace PromptDesk

open Slot (Move)

/-- Directives are followed through the gate. -/
def Sequel.isGated : Sequel → Bool
  | .delegate _ gated => gated
  | .respond | .conclude => true

namespace Task

/-- The claimed request that a task is to send. -/
def claim? : Task → Option String
  | request r _ => r.id
  | _ => none

def isGated : Task → Bool
  | request _ sequel | execution _ sequel => sequel.isGated
  | _ => true

/-- A request was claimed, and an execution has begun. -/
def Holds (E : List String) : Task → Prop
  | request r _ => r.id.isSome = true
  | execution e _ => e.requestId ∈ E
  | collect _ _ | read _ => False
  | await _ _ | sleep _ | present _ _ | exports _ _ => True

/-- Work on requests that came in by submission, with callbacks that make permitted steps. -/
structure IsProper (p : Step → Bool) (E : List String) (t : Task) : Prop where
  behaves : t.all p = true
  gated : t.isGated = true
  holds : t.Holds E

variable {p : Step → Bool} {E E' : List String} {t : Task}

theorem IsProper.mono (h : t.IsProper p E) (he : E ⊆ E') : t.IsProper p E' where
  behaves := h.behaves
  gated := h.gated
  holds := by
    have hh := h.holds
    cases t with
    | execution e sequel => exact he hh
    | _ => exact hh

theorem claim?_of_isPlain (h : t.isPlain = true) : t.claim? = none := by
  cases t <;> first | rfl | cases h

theorem isProper_of_isPlain (h : t.isPlain = true) : t.IsProper p E := by
  cases t <;> first | exact ⟨rfl, rfl, trivial⟩ | cases h

end Task

namespace Job

def claim? (j : Job) : Option String := j.task.bind Task.claim?

/-- A job on requests that came in by submission. What it gives back when it fails is its own. -/
structure IsProper (p : Step → Bool) (E : List String) (j : Job) : Prop where
  task : ∀ t, j.task = some t → t.IsProper p E
  owner : ∀ t id, j.task = some t → j.owner = some id → id ∈ E ∨ t.claim? = some id

variable {p : Step → Bool} {E E' : List String} {j : Job}

theorem IsProper.mono (h : j.IsProper p E) (he : E ⊆ E') : j.IsProper p E' where
  task t ht := (h.task t ht).mono he
  owner t id ht hid := (h.owner t id ht hid).imp_left fun hm => he hm

theorem claim?_of_task {t : Task} (h : j.task = some t) : j.claim? = t.claim? := by
  rw [claim?, h]
  rfl

theorem isProper_of_task (h : j.task = none) : j.IsProper p E := by
  refine ⟨fun t ht => ?_, fun t _ ht _ => ?_⟩ <;>
  · rw [h] at ht
    cases ht

theorem claim?_of_isPlain (h : j.isPlain = true) : j.claim? = none := by
  rw [isPlain, Bool.and_eq_true] at h
  cases ht : j.task with
  | none => simp [claim?, ht]
  | some t =>
    rw [ht, Option.all_some] at h
    simp [claim?, ht, Task.claim?_of_isPlain h.2]

theorem isProper_of_isPlain (h : j.isPlain = true) : j.IsProper p E := by
  rw [isPlain, Bool.and_eq_true, Option.isNone_iff_eq_none] at h
  refine ⟨fun t ht => Task.isProper_of_isPlain ?_, fun t id _ hid => ?_⟩
  · simpa [ht] using h.2
  · rw [h.1] at hid
    cases hid

end Job

/-- A condition on the requests that wait and those in execution, which is kept whatever is done
with them: they are claimed, sent again, put into execution and served, and the transport is called
for them. One more request may be served by its owner, apart from those in execution. -/
structure Custody (p : Step → Bool) (own : Option String)
    (F : List String → List String → Desk → Prop) : Prop where
  sound : ∀ {P E d}, F P E d → d.slot.Sound
  frame : ∀ {P E d d'}, F P E d → d'.slot = d.slot → d'.calls = d.calls → d'.setup = d.setup →
    F P E d'
  of_subperm : ∀ {P P' E d}, F P E d → P'.Subperm P → F P' E d
  retire : ∀ {q P E d}, F (q :: P) E d → F P (q :: E) d
  claim : ∀ {P E d}, F P E d → d.slot.state.isInFlight = false →
    F (d.slot.nextId :: P) E (d.moved (.send none))
  resend : ∀ {q P E d}, F (q :: P) E d →
    (d.slot.state.isFor q = true → d.slot.state.phase ≠ .sending) →
      F P (q :: E) (d.moved (.send (some q)))
  serve : ∀ {m P E d}, F P E d → m.Allowed d.slot.state → (∀ id, m ≠ .send id) →
    m.target d.slot ∈ E ∨ own = some (m.target d.slot) → F P E (d.moved m)
  called : ∀ {e P E d}, F P E d → e.requestId ∈ E ∨ own = some e.requestId → F P E (d.called e)
  /-- A permitted command makes one move at most. -/
  command : ∀ {c P E d}, p (.command c) = true → d.Labelled → F P E d → d.Quiet (d.obey c).1 ∨
    ∃ m, F P E (d.moved m) ∧ (d.moved m).Quiet (d.obey c).1
  /-- A request that is run without asking the gate gets a fresh id. -/
  started : ∀ {q under}, p (.run q under) = true → q.id = none ∧
    ∀ {P E d}, F P E d → F P (d.slot.nextId :: E) (d.moved (.send none))
  dispatched : ∀ items id under, p (.dispatch items id under) = false

namespace Desk

/-- The claimed requests that jobs are to send. -/
def claimed (d : Desk) : List String := d.jobs.flatMap fun j => j.claim?.toList

/-- A condition holds of the requests in custody: those of which somebody at hand is to take care,
those of which a job is to, and those in execution. -/
structure Tended (p : Step → Bool) (F : List String → List String → Desk → Prop)
    (atHand executing : List String) (d : Desk) : Prop where
  labelled : d.Labelled
  behaves : d.Behaves p
  custody : F (atHand ++ d.claimed) executing d
  jobs : ∀ j ∈ d.jobs, j.IsProper p executing

variable {p : Step → Bool} {own : Option String} {F F' : List String → List String → Desk → Prop}
variable {H H' E E' : List String} {d d' d'' : Desk} {q : String} {m : Move}

namespace Tended

/-- The jobs that were added concern no request. -/
theorem of_plain (h : d.Tended p F H E) (hj : ∃ l, d'.jobs = d.jobs ++ l ∧ ∀ j ∈ l, j.isPlain = true)
    (hF : ∀ {P}, F P E d → F P E d') (hl : d'.Labelled) (hb : d'.Behaves p) :
    d'.Tended p F H E := by
  obtain ⟨l, hl', hp⟩ := hj
  have hn : (l.flatMap fun j => j.claim?.toList) = [] :=
    List.flatMap_eq_nil_iff.2 fun j hj => by rw [Job.claim?_of_isPlain (hp j hj)]; rfl
  have hc : d'.claimed = d.claimed := by
    rw [claimed, hl', List.flatMap_append, hn, List.append_nil, claimed]
  refine ⟨hl, hb, hc ▸ hF h.custody, fun j hj => ?_⟩
  rw [hl'] at hj
  exact (List.mem_append.1 hj).elim (h.jobs j) fun hj => Job.isProper_of_isPlain (hp j hj)

section

variable (law : Custody p own F)
include law

theorem quiet (h : d.Tended p F H E) (hq : d.Quiet d') : d'.Tended p F H E := by
  refine h.of_plain hq.jobs (fun hf => law.frame hf hq.slot hq.calls hq.setup)
    (hq.labelled h.labelled) ⟨fun w hw => ?_, fun x hx => ?_⟩
  · exact h.behaves.history w (by rwa [hq.setup] at hw)
  · exact h.behaves.replies x (by rwa [hq.replies] at hx)

theorem of_subperm (h : d.Tended p F H E) (hp : H'.Subperm H) : d.Tended p F H' E where
  labelled := h.labelled
  behaves := h.behaves
  custody := law.of_subperm h.custody ((List.subperm_append_right _).2 hp)
  jobs := h.jobs

theorem of_perm (h : d.Tended p F H E) (hp : H'.Perm H) : d.Tended p F H' E :=
  h.of_subperm law hp.subperm

omit law in
theorem moved (h : d.Tended p F H E) (he : E ⊆ E') (hf : F' (H' ++ d.claimed) E' (d.moved m)) :
    (d.moved m).Tended p F' H' E' where
  labelled := h.labelled
  behaves := ⟨h.behaves.history, h.behaves.replies⟩
  custody := hf
  jobs j hj := (h.jobs j hj).mono he

theorem retire (h : d.Tended p F (q :: H) E) : d.Tended p F H (q :: E) where
  labelled := h.labelled
  behaves := h.behaves
  custody := law.retire h.custody
  jobs j hj := (h.jobs j hj).mono (List.subset_cons_self q E)

theorem serve (h : d.Tended p F H E) (ha : m.Allowed d.slot.state) (hm : ∀ id, m ≠ .send id)
    (ht : m.target d.slot ∈ E ∨ own = some (m.target d.slot)) : (d.moved m).Tended p F H E :=
  h.moved (List.Subset.refl E) (law.serve h.custody ha hm ht)

theorem failOwned (h : d.Tended p F H E) (hq : q ∈ E ∨ own = some q) (f : Failure) :
    (d.failOwned q f).Tended p F H E := by
  rcases failOwned_cases (d := d) q f with ⟨hh, he⟩ | ⟨_, he⟩
  · rw [he]
    exact h.serve law hh nofun hq
  · rwa [he]

theorem turnBack (h : d.Tended p F H E) (hq : q ∈ E ∨ own = some q) (m : Mishap) :
    (d.turnBack (some q) m).Tended p F H E := by
  cases m with
  | failure f => exact h.failOwned law hq f
  | panic payload => exact h

theorem claim (h : d.Tended p F H E) {source : String} {id : Option String}
    (hc : d.claim source = (d', .allowed id)) :
    ∃ q, id = some q ∧ d'.Tended p F (q :: H) E := by
  obtain ⟨hf, hid, hq⟩ := claim_allowed (law.sound h.custody).closed hc
  exact ⟨_, hid, (h.moved (List.Subset.refl E) (law.claim h.custody hf)).quiet law hq⟩

/-- A claimed request enters its execution. -/
theorem enter (h : d.Tended p F (q :: H) E) {draft : Draft} (hr : draft.requestId = some q) :
    ∃ d' draft', d'.Tended p F H (q :: E) ∧
      (d.enter draft = (d', draft', .ok q) ∨ d.enter draft = (d', draft', .error q)) := by
  have hkept := (h.retire law).quiet law (quiet_withSlot_self d)
  rcases enter_cases (d := d) hr with ⟨_, _, he⟩ | ⟨_, _, _, he⟩ | ⟨hn, he⟩
  · exact ⟨_, _, hkept, .inr he⟩
  · exact ⟨_, _, hkept, .inl he⟩
  · refine ⟨_, _, h.moved (List.subset_cons_self q E) ?_, .inl he⟩
    exact law.resend h.custody fun hf => (hn hf).2

/-- A task that takes care of a request goes into the background. -/
theorem dispatch {t : Task} {owner : Option String} (h : d.Tended p F (t.claim?.toList ++ H) E)
    (ht : t.IsProper p E) (ho : ∀ id, owner = some id → id ∈ E ∨ t.claim? = some id) :
    (d.dispatch (some q) t owner).1.Tended p F H E where
  labelled x hx := by
    rcases List.mem_append.1 hx with hx | hx
    · exact h.labelled x hx
    · rw [List.mem_singleton.1 hx]
      exact fun _ => rfl
  behaves := ⟨h.behaves.history, h.behaves.replies⟩
  custody := by
    have hc : (d.dispatch (some q) t owner).1.claimed = d.claimed ++ t.claim?.toList := by
      simp [claimed, Desk.dispatch, spawn, List.flatMap_append, Job.claim?]
    rw [hc]
    refine law.frame (law.of_subperm h.custody (List.Perm.subperm ?_)) rfl rfl rfl
    rw [List.append_assoc, ← List.append_assoc H]
    exact List.perm_append_comm
  jobs j hj := by
    rcases List.mem_append.1 hj with hj | hj
    · exact h.jobs j hj
    · rw [List.mem_singleton.1 hj]
      refine ⟨?_, ?_⟩
      · rintro t' ⟨⟩
        exact ht
      · rintro t' id ⟨⟩ hid
        exact ho id hid

theorem obey (h : d.Tended p F H E) {c : Command} (hc : p (.command c) = true) :
    (d.obey c).1.Tended p F H E := by
  rcases law.command hc h.labelled h.custody with hq | ⟨m, hf, hq⟩
  · exact h.quiet law hq
  · exact (h.moved (List.Subset.refl E) hf).quiet law hq

end

end Tended

/-- Whatever happened, the requests in custody are still tended to. -/
def Tends (p : Step → Bool) (F : List String → List String → Desk → Prop) (d d' : Desk) : Prop :=
  ∀ H E, d.Tended p F H E → ∃ E', E ⊆ E' ∧ d'.Tended p F H E'

end Desk

namespace Custody

variable {p : Step → Bool} {own : Option String} {F : List String → List String → Desk → Prop}

theorem conduct (law : Custody p own F) : Conduct p (Desk.Tends p F) where
  refl _ _ E h := ⟨E, List.Subset.refl E, h⟩
  trans h h' H E hd :=
    have ⟨E₁, h₁, hd₁⟩ := h H E hd
    have ⟨E₂, h₂, hd₂⟩ := h' H E₁ hd₁
    ⟨E₂, List.Subset.trans h₁ h₂, hd₂⟩
  quiet hq _ E h := ⟨E, List.Subset.refl E, h.quiet law hq⟩
  command hc _ _ E h := ⟨E, List.Subset.refl E, h.obey law hc⟩
  delegated := by
    intro d d' source id r hc hr hall H E h
    obtain ⟨q, rfl, h'⟩ := h.claim law hc
    refine ⟨E, List.Subset.refl E, Desk.Tended.dispatch law ?_ ⟨?_, rfl, ?_⟩ ?_⟩
    · simpa [Task.claim?, hr] using h'
    · simp [Task.all, Sequel.all, hall]
    · simp [Task.Holds, hr]
    · exact fun id hid => .inr (hid ▸ hr)
  sent := by
    intro d d' d'' source id draft hc hR hid H E h
    obtain ⟨q, rfl, h'⟩ := h.claim law hc
    obtain ⟨E₁, he, h₁⟩ := hR _ _ h'
    obtain ⟨d₁, draft', hd₁, hent⟩ := h₁.enter law hid
    refine ⟨q :: E₁, fun x hx => List.mem_cons_of_mem q (he hx), ?_⟩
    rcases hent with hent | hent
    · rw [Desk.sendDraft, hent]
      exact Desk.Tended.dispatch law (t := .execution ⟨q, draft', .claimed⟩ .conclude) hd₁
        ⟨rfl, rfl, List.mem_cons_self⟩ (by simp)
    · rw [Desk.sendDraft, hent]
      exact hd₁.quiet law ((Desk.quiet_cancelledBeforeStart _ _).trans
        ((Desk.quiet_conclude _ draft'.destination _).trans (Desk.quiet_settled _ _)))
  returned := by
    intro d d' d'' source id hc hR m H E h
    obtain ⟨q, rfl, h'⟩ := h.claim law hc
    obtain ⟨E₁, he, h₁⟩ := hR _ _ h'
    exact ⟨q :: E₁, fun x hx => List.mem_cons_of_mem q (he hx),
      (h₁.retire law).turnBack law (.inl List.mem_cons_self) m⟩
  started := by
    intro d d' q under draft hp hR hid H E h
    obtain ⟨hnone, hF⟩ := law.started hp
    obtain ⟨E₁, he, h₁⟩ := hR H E h
    have hent : d'.enter draft = (d'.moved (.send none),
        { draft.begin false with requestId := some d'.slot.nextId }, .ok d'.slot.nextId) := by
      have hd : (draft.begin false).requestId = none := by
        rw [← hnone, ← hid, Draft.begin]
        split <;> rfl
      simp only [Desk.enter, hd]
      rfl
    rw [Desk.sendDraft, hent]
    refine ⟨d'.slot.nextId :: E₁, fun x hx => List.mem_cons_of_mem _ (he hx), ?_⟩
    exact Desk.Tended.dispatch law (t := .execution ⟨d'.slot.nextId, _, .claimed⟩ .conclude)
      (h₁.moved (List.subset_cons_self _ E₁) (hF h₁.custody)) ⟨rfl, rfl, List.mem_cons_self⟩ (by simp)
  dispatched := law.dispatched

end Custody

end PromptDesk
