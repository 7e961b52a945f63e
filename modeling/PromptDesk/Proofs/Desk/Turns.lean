import PromptDesk.Desk.Turn
import PromptDesk.Proofs.Desk.Custody

/-! Turns of tasks on requests in custody. A turn sends the request that its task is to send, if
there is one, and whatever else it does, the requests in custody are still tended to. -/
namespace PromptDesk

open Slot (Move)

/-- What waits goes on with the same request. -/
def Progress.IsProper (p : Step → Bool) (id : String) : Progress → Prop
  | .waiting e => e.requestId = id ∧ e.stage.all p = true
  | .ended _ | .panicked _ => True

/-- What waits has no request left to send. -/
def Turn.IsProper (p : Step → Bool) (E : List String) : Turn → Prop
  | .waiting t => t.IsProper p E ∧ t.claim? = none
  | .ended _ => True

namespace Desk

variable {p : Step → Bool} {own : Option String} {F : List String → List String → Desk → Prop}
variable {H E E' : List String} {d d' : Desk} {q id : String}

/-- A place that has something to do is taken. -/
theorem getElem?_of_task {jobs : List Job} {i : Nat} {t : Task}
    (ht : (jobs.getD i default).task = some t) : jobs[i]? = some (jobs.getD i default) := by
  rw [List.getD_eq_getElem?_getD] at ht ⊢
  cases hg : jobs[i]? with
  | none =>
    rw [hg] at ht
    cases ht
  | some j => rfl

/-- A job that is replaced takes its own request along. -/
theorem claims_set (jobs : List Job) (i : Nat) (j : Job) :
    ((jobs.set i j).flatMap fun j => j.claim?.toList).Subperm
      (j.claim?.toList ++ jobs.flatMap fun j => j.claim?.toList) := by
  induction jobs generalizing i with
  | nil => simp
  | cons x xs ih =>
    cases i with
    | zero =>
      simp only [List.set_cons_zero, List.flatMap_cons]
      exact ((List.sublist_append_right _ _).append_left _).subperm
    | succ i =>
      simp only [List.set_cons_succ, List.flatMap_cons]
      exact ((List.subperm_append_left _).2 (ih i)).trans (List.perm_append_comm_assoc _ _ _).subperm

/-- A job that has nothing to do any more leaves its request to somebody else. -/
theorem claims_take {jobs : List Job} {i : Nat} {k j : Job} (hk : jobs[i]? = some k)
    (hj : j.claim? = none) :
    (k.claim?.toList ++ (jobs.set i j).flatMap fun j => j.claim?.toList).Perm
      (jobs.flatMap fun j => j.claim?.toList) := by
  induction jobs generalizing i with
  | nil => cases hk
  | cons x xs ih =>
    cases i with
    | zero =>
      obtain rfl : x = k := by simpa using hk
      simp [hj]
    | succ i =>
      simp only [List.set_cons_succ, List.flatMap_cons]
      exact (List.perm_append_comm_assoc _ _ _).trans ((ih (by simpa using hk)).append_left _)

/-- What an execution of a request does. -/
def Serves (p : Step → Bool) (own : Option String) (F : List String → List String → Desk → Prop)
    (id : String) (d d' : Desk) : Prop :=
  ∀ H E, id ∈ E ∨ own = some id → d.Tended p F H E → ∃ E', E ⊆ E' ∧ d'.Tended p F H E'

theorem work_tended (law : Custody p own F) (id : String) :
    Work (Tends p F) (Serves p own F id) id where
  conduct h H E _ hd := h H E hd
  trans h h' H E hid hd :=
    have ⟨E₁, h₁, hd₁⟩ := h H E hid hd
    have ⟨E₂, h₂, hd₂⟩ := h' H E₁ (hid.imp_left fun hm => h₁ hm) hd₁
    ⟨E₂, List.Subset.trans h₁ h₂, hd₂⟩
  stream ha _ E hid hd := ⟨E, List.Subset.refl E, hd.serve law ha nofun hid⟩

theorem quiet_turn (d : Desk) {t : Task} (h : t.isPlain = true) :
    Quiet d (d.turn t).1 ∧ ∀ p E, (d.turn t).2.IsProper p E := by
  have hw : ∀ {d' : Desk} {t' : Task}, Quiet d d' → t'.isPlain = true →
      Quiet d (d', Turn.waiting t').1 ∧ ∀ p E, (d', Turn.waiting t').2.IsProper p E :=
    fun hq ht => ⟨hq, fun _ _ => ⟨Task.isProper_of_isPlain ht, Task.claim?_of_isPlain ht⟩⟩
  have he : ∀ {d' : Desk} {e : Ending}, Quiet d d' →
      Quiet d (d', Turn.ended e).1 ∧ ∀ p E, (d', Turn.ended e).2.IsProper p E :=
    fun hq => ⟨hq, fun _ _ => trivial⟩
  cases t with
  | await handle limit =>
    rw [turn]
    split
    · exact he (.refl d)
    · split
      · exact he (.refl d)
      · exact hw (.refl d) rfl
  | sleep due =>
    rw [turn]
    split
    · exact he (.refl d)
    · exact hw (.refl d) rfl
  | present handle quiet =>
    rw [turn]
    split
    · exact hw (.refl d) rfl
    · exact he (quiet_write d rfl)
    · refine he ?_
      split
      · exact .refl d
      · exact quiet_write d rfl
  | exports interval due =>
    simp only [turn]
    split
    · exact he (quiet_exportCounts d)
    · split
      · exact hw (.refl d) rfl
      · split
        · exact hw (.refl d) rfl
        · split
          · exact hw (quiet_exportCounts d) rfl
          · exact hw (.refl d) rfl
  | request | execution | collect | read => cases h

namespace Tended

variable (law : Custody p own F)
include law

theorem finish (h : d.Tended p F H E) (hid : id ∈ E ∨ own = some id) (attempt : Nat)
    (outcome : ReadOutcome) :
    ∃ E', E ⊆ E' ∧ (d.finish id attempt outcome).1.Tended p F H E' ∧
      (d.finish id attempt outcome).2.IsProper p id := by
  have hf := finishes_finish law.conduct.manner h.behaves id attempt outcome
  generalize d.finish id attempt outcome = x at hf ⊢
  cases hf with
  | completes holds after _ | panics holds after =>
    obtain ⟨E', he, h'⟩ := after H E (h.serve law holds nofun hid)
    exact ⟨E', he, h', trivial⟩
  | @fails f holds =>
    exact ⟨E, List.Subset.refl E, h.serve law (m := .fail id f.message) holds nofun hid, trivial⟩
  | cancels holds after =>
    have h' := h.serve law (m := .cancel id) holds nofun hid
    exact ⟨E, List.Subset.refl E, h'.quiet law after, trivial⟩
  | faults _ => exact ⟨E, List.Subset.refl E, h, trivial⟩
  | drops _ after _ => exact ⟨E, List.Subset.refl E, h.quiet law after, trivial⟩

theorem turned {e : Execution} {x : Desk × Progress} (h : d.Tended p F H E)
    (hid : e.requestId ∈ E ∨ own = some e.requestId)
    (ht : Turned p (Serves p own F e.requestId) d e x) :
    ∃ E', E ⊆ E' ∧ x.1.Tended p F H E' ∧ x.2.IsProper p e.requestId := by
  cases ht with
  | waits work hid' _ _ behaves =>
    obtain ⟨E', he, h'⟩ := work H E hid h
    exact ⟨E', he, h', hid', behaves⟩
  | panics work =>
    obtain ⟨E', he, h'⟩ := work H E hid h
    exact ⟨E', he, h', trivial⟩
  | ends attempt outcome work _ =>
    obtain ⟨E₁, he₁, h₁⟩ := work H E hid h
    obtain ⟨E₂, he₂, h₂⟩ := h₁.finish law (hid.imp_left fun hm => he₁ hm) attempt outcome
    exact ⟨E₂, List.Subset.trans he₁ he₂, h₂⟩

theorem called {e : Execution} (h : d.Tended p F H E)
    (hid : e.requestId ∈ E ∨ own = some e.requestId) : (d.called e).Tended p F H E := by
  obtain ⟨_, hset, hr, _, hl, hj⟩ := called_eq d e
  refine h.of_plain hj (fun hf => law.called hf hid) (hl h.labelled)
    ⟨fun w hw => ?_, fun x hx => ?_⟩
  · exact h.behaves.history w (by rwa [hset] at hw)
  · exact h.behaves.replies x (List.mem_of_mem_tail (hr ▸ hx))

theorem execute {e : Execution} (h : d.Tended p F H E)
    (hid : e.requestId ∈ E ∨ own = some e.requestId) (hb : e.stage.all p = true) :
    ∃ E', E ⊆ E' ∧ (d.execute e).1.Tended p F H E' ∧ (d.execute e).2.IsProper p e.requestId := by
  have hw := work_tended law e.requestId
  obtain ⟨id, draft, stage⟩ := e
  cases stage with
  | claimed =>
    cases ht : d.slot.tokenFor? id with
    | none =>
      obtain ⟨d', hl, hq⟩ := launch_of_none (e := ⟨id, draft, .claimed⟩) ht
      rw [show d.execute ⟨id, draft, .claimed⟩ = d.launch ⟨id, draft, .claimed⟩ from rfl, hl]
      exact ⟨E, List.Subset.refl E, h.quiet law hq, trivial⟩
    | some token =>
      obtain ⟨stage, hs, hall, hl⟩ := launch_of_token (e := ⟨id, draft, .claimed⟩) ht h.behaves
      rw [show d.execute ⟨id, draft, .claimed⟩ = d.launch ⟨id, draft, .claimed⟩ from rfl, hl]
      exact (h.called law (e := ⟨id, draft, .claimed⟩) hid).turned law (e := ⟨id, draft, stage⟩) hid
        (.execute law.conduct.manner hw hs hall)
  | opening attempt token limit playback items =>
    exact h.turned law hid (.execute law.conduct.manner hw rfl hb)
  | collecting attempt token limit playback =>
    exact h.turned law hid (.execute law.conduct.manner hw rfl hb)
  | reading r => exact h.turned law hid (.continueReading law.conduct.manner hw hb rfl)

theorem run {r : Request} (h : d.Tended p F (q :: H) E) (hid : r.id = some q)
    (hr : r.all p = true) :
    ∃ E', E ⊆ E' ∧ q ∈ E' ∧ (d.run r).1.Tended p F H E' ∧
      ∀ draft progress, (d.run r).2 = .ok (draft, progress) → progress.IsProper p q := by
  have hs : Source.allIn p r.sources = true := by
    cases r
    exact hr
  obtain ⟨E₁, he₁, h₁⟩ := law.conduct.manner.gather r.sources d hs _ _ h
  rw [Desk.run]
  generalize gather r.sources d = g at h₁ ⊢
  obtain ⟨d₁, _ | parts⟩ := g
  · dsimp only
    refine ⟨q :: E₁, fun x hx => List.mem_cons_of_mem q (he₁ hx), List.mem_cons_self,
      h₁.retire law, ?_⟩
    intro draft progress he
    cases he
  · have h₂ := h₁.quiet law (quiet_prepare d₁ (d₁.draftFor r) r.prompt parts)
    have hdraft : (d₁.prepare (d₁.draftFor r) r.prompt parts).2.requestId = some q := hid
    obtain ⟨d₃, draft, h₃, hent⟩ := h₂.enter law hdraft
    rcases hent with hent | hent
    · obtain ⟨E₄, he₄, h₄, hp⟩ :=
        h₃.execute law (e := ⟨q, draft, .claimed⟩) (.inl List.mem_cons_self) rfl
      refine ⟨E₄, fun x hx => he₄ (List.mem_cons_of_mem q (he₁ hx)), he₄ List.mem_cons_self, ?_⟩
      simp only [send, hent]
      refine ⟨h₄, fun draft' progress he => ?_⟩
      obtain ⟨_, rfl⟩ := Prod.mk.inj (Except.ok.inj he)
      exact hp
    · refine ⟨q :: E₁, fun x hx => List.mem_cons_of_mem q (he₁ hx), List.mem_cons_self, ?_⟩
      simp only [send, hent]
      refine ⟨h₃.quiet law (quiet_cancelledBeforeStart _ _), fun draft' progress he => ?_⟩
      obtain ⟨_, rfl⟩ := Prod.mk.inj (Except.ok.inj he)
      trivial

theorem proceedToResult {progress : Progress} (h : d.Tended p F H E) (hid : id ∈ E)
    (hp : progress.IsProper p id) (destination : Destination) :
    (d.proceedToResult destination progress).1.Tended p F H E ∧
      (d.proceedToResult destination progress).2.IsProper p E := by
  cases progress with
  | waiting e => exact ⟨h, ⟨by simp [Task.all, Sequel.all, hp.2], rfl, by rwa [Task.Holds, hp.1]⟩, rfl⟩
  | panicked message => exact ⟨h, trivial⟩
  | ended r => exact ⟨h.quiet law (quiet_conclude d destination r), trivial⟩

theorem runLast {r : Request} (h : d.Tended p F (q :: H) E) (hid : r.id = some q)
    (hr : r.all p = true) :
    ∃ E', E ⊆ E' ∧ (d.runLast r).1.Tended p F H E' ∧ (d.runLast r).2.IsProper p E' := by
  obtain ⟨E', he, hq, h', hp⟩ := h.run law hid hr
  rw [Desk.runLast]
  generalize d.run r = x at h' hp ⊢
  obtain ⟨d', _ | ⟨draft, progress⟩⟩ := x
  · exact ⟨E', he, h', trivial⟩
  · exact ⟨E', he, h'.proceedToResult law hq (hp _ _ rfl) draft.destination⟩

theorem follow {r : Request} (h : d.Tended p F H E) (hr : r.all p = true) (result : PromptResult) :
    ∃ E', E ⊆ E' ∧ (d.follow r true result).1.Tended p F H E' ∧
      (d.follow r true result).2.IsProper p E' := by
  rw [Desk.follow]
  split
  · exact ⟨E, List.Subset.refl E, h, trivial⟩
  · split
    · exact ⟨E, List.Subset.refl E, h, trivial⟩
    · simp only [if_true]
      split
      · rename_i hc
        exact ⟨E, List.Subset.refl E, h.quiet law (claim_rejected hc), trivial⟩
      · rename_i hc
        obtain ⟨q, rfl, h'⟩ := h.claim law hc
        exact h'.runLast law rfl (Request.all_follow hr _ _ _)

theorem proceed {sequel : Sequel} {progress : Progress} (h : d.Tended p F H E) (hid : id ∈ E)
    (hp : progress.IsProper p id) (hs : sequel.all p = true) (hg : sequel.isGated = true)
    (destination : Destination) :
    ∃ E', E ⊆ E' ∧ (d.proceed destination sequel progress).1.Tended p F H E' ∧
      (d.proceed destination sequel progress).2.IsProper p E' := by
  cases progress with
  | waiting e =>
    refine ⟨E, List.Subset.refl E, ?_⟩
    have ht : Task.IsProper p E (.execution e sequel) :=
      ⟨by rw [Task.all, hp.2, hs, Bool.and_self], hg, by rwa [Task.Holds, hp.1]⟩
    cases sequel <;> exact ⟨h, ht, rfl⟩
  | panicked message =>
    refine ⟨E, List.Subset.refl E, ?_⟩
    cases sequel <;> exact ⟨h, trivial⟩
  | ended r =>
    cases sequel with
    | respond => exact ⟨E, List.Subset.refl E, h, trivial⟩
    | conclude => exact ⟨E, List.Subset.refl E, h.proceedToResult law hid hp destination⟩
    | delegate request gated =>
      obtain rfl : gated = true := hg
      exact (h.quiet law (quiet_conclude d destination r)).follow law hs _

/-- A turn of a task: the request that it is to send begins its execution. -/
theorem turn {t : Task} (h : d.Tended p F (t.claim?.toList ++ H) E) (ht : t.IsProper p E) :
    ∃ E', E ⊆ E' ∧ (∀ q, t.claim? = some q → q ∈ E') ∧ (d.turn t).1.Tended p F H E' ∧
      (d.turn t).2.IsProper p E' := by
  obtain ⟨behaves, gated, holds⟩ := ht
  by_cases hplain : t.isPlain = true
  · obtain ⟨hq, hp⟩ := quiet_turn d hplain
    rw [Task.claim?_of_isPlain hplain] at h ⊢
    exact ⟨E, List.Subset.refl E, by simp, h.quiet law hq, hp p E⟩
  cases t with
  | request r sequel =>
    obtain ⟨q, hid⟩ := Option.isSome_iff_exists.1 holds
    simp only [Task.all, Bool.and_eq_true] at behaves
    have hcl : (Task.request r sequel).claim? = some q := hid
    rw [hcl] at h ⊢
    obtain ⟨E₁, he₁, hq₁, h₁, hprog⟩ := h.run law hid behaves.1
    rw [Desk.turn]
    generalize d.run r = x at h₁ hprog ⊢
    obtain ⟨d₁, _ | ⟨draft, progress⟩⟩ := x
    · exact ⟨E₁, he₁, by rintro _ ⟨⟩; exact hq₁, h₁, trivial⟩
    · obtain ⟨E₂, he₂, h₂⟩ := h₁.proceed law hq₁ (hprog _ _ rfl) behaves.2 gated draft.destination
      exact ⟨E₂, List.Subset.trans he₁ he₂, by rintro _ ⟨⟩; exact he₂ hq₁, h₂⟩
  | execution e sequel =>
    simp only [Task.all, Bool.and_eq_true] at behaves
    obtain ⟨E₁, he₁, h₁, hprog⟩ := h.execute law (.inl holds) behaves.1
    obtain ⟨E₂, he₂, h₂⟩ :=
      h₁.proceed law (he₁ holds) hprog behaves.2 gated e.draft.destination
    exact ⟨E₂, List.Subset.trans he₁ he₂, by simp [Task.claim?], h₂⟩
  | collect limit playback | read reader => exact holds.elim
  | await _ _ | sleep _ | present _ _ | exports _ _ => exact absurd rfl hplain

theorem takeJob (h : d.Tended p F H E) {i : Nat} {t : Task} (ht : (d.job i).task = some t) :
    t.IsProper p E ∧ (∀ id, (d.job i).owner = some id → id ∈ E ∨ t.claim? = some id) ∧
      { d with jobs := d.jobs.set i { d.job i with task := none } }.Tended p F
        (t.claim?.toList ++ H) E := by
  have hi : d.jobs[i]? = some (d.job i) := getElem?_of_task ht
  have hj := h.jobs _ (List.mem_of_getElem? hi)
  refine ⟨hj.task t ht, fun id hid => hj.owner t id ht hid, h.labelled,
    ⟨h.behaves.history, h.behaves.replies⟩, ?_, fun x hx => ?_⟩
  · have hp := claims_take hi (j := { d.job i with task := none }) rfl
    rw [Job.claim?_of_task ht] at hp
    refine law.frame (law.of_subperm h.custody (List.Perm.subperm ?_)) rfl rfl rfl
    rw [List.append_assoc]
    exact (List.perm_append_comm_assoc _ _ _).trans (hp.append_left H)
  · rcases List.mem_or_eq_of_mem_set hx with hx | rfl
    · exact h.jobs x hx
    · exact Job.isProper_of_task rfl

/-- A job has something to do again, which concerns no request that is still to be sent. -/
theorem putJob (h : d.Tended p F H E) (i : Nat) {j : Job} (hj : j.IsProper p E)
    (hc : j.claim? = none) : { d with jobs := d.jobs.set i j }.Tended p F H E := by
  refine ⟨h.labelled, ⟨h.behaves.history, h.behaves.replies⟩, ?_, fun x hx => ?_⟩
  · have hp := claims_set d.jobs i j
    rw [hc] at hp
    exact law.frame (law.of_subperm h.custody ((List.subperm_append_left H).2 hp)) rfl rfl rfl
  · rcases List.mem_or_eq_of_mem_set hx with hx | rfl
    · exact h.jobs x hx
    · exact hj

theorem settle (h : d.Tended p F H E) {j : Job} (ho : ∀ id, j.owner = some id → id ∈ E)
    (e : Ending) : (d.settle j e).Tended p F H E := by
  have hend : ∀ {d' : Desk}, d'.Tended p F H E → ∀ i report, (d'.resolve i report).Tended p F H E :=
    fun h' i report => h'.quiet law (quiet_resolve _ i report)
  unfold Desk.settle
  split
  · rename_i f id hid
    have hf := h.failOwned law (.inl (ho id hid)) f
    dsimp only
    split
    · exact hend hf _ _
    · exact hf
  · dsimp only
    split
    · exact hend h _ _
    · exact h

theorem turnOfJob (h : d.Tended p F H E) (i : Nat) :
    ∃ E', E ⊆ E' ∧ (d.turnOfJob i).Tended p F H E' := by
  rw [Desk.turnOfJob]
  cases ht : (d.job i).task with
  | none => exact ⟨E, List.Subset.refl E, h⟩
  | some t =>
    obtain ⟨hp, ho, h₀⟩ := h.takeJob law ht
    obtain ⟨E', he, hcl, h', hturn⟩ := h₀.turn law hp
    have ho' : ∀ id, (d.job i).owner = some id → id ∈ E' := fun id hid =>
      (ho id hid).elim (fun hm => he hm) (hcl id)
    refine ⟨E', he, ?_⟩
    dsimp only
    generalize Desk.turn _ t = x at h' hturn ⊢
    obtain ⟨d', t' | e⟩ := x
    · have hj : Job.IsProper p E' { d.job i with task := some t' } := by
        refine ⟨?_, fun _ id _ hid => .inl (ho' id hid)⟩
        rintro _ ⟨⟩
        exact hturn.1
      have hput := h'.putJob law i hj hturn.2
      dsimp only
      split
      · exact hput.quiet law (.of_eq rfl rfl rfl rfl rfl rfl)
      · exact hput.quiet law (.of_eq rfl rfl rfl rfl rfl rfl)
    · have hw : Quiet d' (d'.await i []) := .of_eq rfl rfl rfl rfl rfl rfl
      exact (h'.quiet law hw).settle law ho' e

end Tended

end Desk

end PromptDesk
