import PromptDesk.Proofs.Desk.Exports

/-! Who reports to a handle. New work in the background reports to a new handle, so no two jobs report
to the same one; a job reports when its work has ended, and that once. What has been reported stays. -/
namespace PromptDesk

/-- The end of a job: the task that it had last, and how that ended. -/
structure Ended where
  job : Nat
  task : Task
  ending : Ending

namespace Desk

/-- The desk while a job has its turn. -/
def atWork (d : Desk) (i : Nat) : Desk :=
  { d with jobs := d.jobs.set i { d.job i with task := none } }

/-- The end of a job in the turn that it might have now. -/
def ending? (d : Desk) (i : Nat) : Option Ended :=
  (d.job i).task.bind fun t =>
    match ((d.atWork i).turn t).2 with
    | .ended e => some ⟨i, t, e⟩
    | .waiting _ => none

variable {d d' d'' : Desk} {i k : Nat} {x : Option Ended}

/-! ### The turn of a job -/

theorem turnOfJob_of_none (h : (d.job i).task = none) : d.turnOfJob i = d := by
  rw [turnOfJob, h]

theorem turnOfJob_waiting {t t' : Task} {d₁ : Desk} (ht : (d.job i).task = some t)
    (h : (d.atWork i).turn t = (d₁, .waiting t')) : ∃ queue waits, d.turnOfJob i =
      { d₁ with jobs := d₁.jobs.set i { d.job i with task := some t' }, queue, waits } := by
  unfold atWork at h
  rw [turnOfJob, ht]
  simp only [h]
  split
  · exact ⟨_, _, rfl⟩
  · exact ⟨_, _, rfl⟩

theorem turnOfJob_ended {t : Task} {d₁ : Desk} {e : Ending} (ht : (d.job i).task = some t)
    (h : (d.atWork i).turn t = (d₁, .ended e)) :
    d.turnOfJob i = (d₁.await i []).settle (d.job i) e := by
  unfold atWork at h
  rw [turnOfJob, ht]
  simp only [h]

theorem ending?_of_none (h : (d.job i).task = none) : d.ending? i = none := by
  rw [ending?, h]
  rfl

theorem ending?_of_some {t : Task} (ht : (d.job i).task = some t) :
    d.ending? i = match ((d.atWork i).turn t).2 with
      | .ended e => some ⟨i, t, e⟩
      | .waiting _ => none := by
  rw [ending?, ht]
  rfl

/-! ### Jobs and handles -/

theorem job_of_le (h : d.jobs.length ≤ i) : d.job i = default := by
  simp [job, List.getElem?_eq_none h]

theorem job_append {j : Job} (h : d'.jobs = d.jobs ++ [j]) (hi : d.jobs.length ≤ i) :
    d'.job i = if i = d.jobs.length then j else default := by
  by_cases he : i = d.jobs.length
  · simp [job, h, he]
  · rw [if_neg he]
    apply job_of_le
    simp only [h, List.length_append, List.length_singleton]
    omega

theorem handle_of_grows (h : d.handles <+: d'.handles) (hk : k < d.handles.length) :
    d'.handle k = d.handle k := by
  obtain ⟨hs, he⟩ := h
  simp [handle, ← he, List.getElem?_append_left hk]

theorem handle_of_set {h : Handle} (hh : d'.handles = d.handles.set k h) (n : Nat) :
    d'.handle n = if k = n ∧ n < d.handles.length then h else d.handle n := by
  simp only [handle, hh, List.getD_eq_getElem?_getD, List.getElem?_set]
  by_cases hkn : k = n
  · subst hkn
    by_cases hk : k < d.handles.length <;> simp [hk]
  · simp [hkn]

theorem lt_of_report {r : Except Defeat Product} (h : (d.handle k).report = some r) :
    k < d.handles.length := by
  by_contra hk
  have hd : d.handle k = default := by simp [handle, List.getElem?_eq_none (Nat.le_of_not_lt hk)]
  rw [hd] at h
  cases h

theorem resolve_of_none (h : (d.handle k).report = none) (r : Except Defeat Product) :
    d.resolve k r =
      rouse { d with handles := d.handles.set k { d.handle k with report := some r } } := by
  rw [resolve, h]
  rfl

/-- Work and handles are added only. New work reports to new handles, which have nothing to report. -/
structure Grows (d d' : Desk) : Prop where
  jobs : d.jobs <+: d'.jobs
  handles : d.handles <+: d'.handles
  fresh : ∀ i k, d.jobs.length ≤ i → (d'.job i).handle = some k →
    d.handles.length ≤ k ∧ k < d'.handles.length ∧ (d'.handle k).report = none
  apart : ∀ i j k, d.jobs.length ≤ i → d.jobs.length ≤ j → (d'.job i).handle = some k →
    (d'.job j).handle = some k → i = j

namespace Grows

theorem of_jobs (jobs : d'.jobs = d.jobs) (handles : d.handles <+: d'.handles) : Grows d d' := by
  have hnone : ∀ i, d.jobs.length ≤ i → (d'.job i).handle = none := by
    intro i hi
    rw [job_of_le (jobs ▸ hi)]
    rfl
  refine ⟨jobs ▸ List.prefix_refl _, handles, ?_, ?_⟩
  · intro i k hi hk
    rw [hnone i hi] at hk
    cases hk
  · intro i j k hi _ hk
    rw [hnone i hi] at hk
    cases hk

theorem of_job {j : Job} (jobs : d'.jobs = d.jobs ++ [j]) (handles : d.handles <+: d'.handles)
    (fresh : ∀ k, j.handle = some k →
      d.handles.length ≤ k ∧ k < d'.handles.length ∧ (d'.handle k).report = none) : Grows d d' := by
  have hnew : ∀ i k, d.jobs.length ≤ i → (d'.job i).handle = some k →
      i = d.jobs.length ∧ j.handle = some k := by
    intro i k hi hk
    rw [job_append jobs hi] at hk
    split at hk
    · exact ⟨‹_›, hk⟩
    · cases hk
  refine ⟨jobs ▸ List.prefix_append .., handles, ?_, ?_⟩
  · intro i k hi hk
    exact fresh k (hnew i k hi hk).2
  · intro i n k hi hn hik hnk
    rw [(hnew i k hi hik).1, (hnew n k hn hnk).1]

theorem of_deed (h : Deed d d') : Grows d d' := by
  cases h with
  | slot | board => exact of_jobs rfl (List.prefix_refl _)
  | spawn h =>
    refine of_job rfl (List.prefix_refl _) fun k hk => ?_
    rw [h] at hk
    cases hk
  | dispatch =>
    refine of_job rfl (List.prefix_append ..) fun k hk => ?_
    obtain rfl := Option.some.inj hk
    refine ⟨Nat.le_refl _, ?_, ?_⟩
    · simp [Desk.dispatch, Desk.spawn]
    · simp [Desk.dispatch, Desk.spawn, handle]
  | settled p => exact of_jobs rfl (List.prefix_append ..)
  | aside _ _ handles jobs => exact of_jobs jobs (handles ▸ List.prefix_refl _)

theorem trans (h : Grows d d') (h' : Grows d' d'') : Grows d d'' := by
  -- a new job is one of the first part or one of the second
  have hold : ∀ i k, d.jobs.length ≤ i → (d''.job i).handle = some k → i < d'.jobs.length →
      (d'.job i).handle = some k := by
    intro i k _ hk hlt
    rwa [job_of_grows h'.jobs hlt] at hk
  refine ⟨h.jobs.trans h'.jobs, h.handles.trans h'.handles, ?_, ?_⟩
  · intro i k hi hk
    have hle := h'.handles.length_le
    have hle' := h.handles.length_le
    by_cases hlt : i < d'.jobs.length
    · obtain ⟨hk₁, hk₂, hr⟩ := h.fresh i k hi (hold i k hi hk hlt)
      rw [handle_of_grows h'.handles hk₂]
      exact ⟨hk₁, by omega, hr⟩
    · obtain ⟨hk₁, hk₂, hr⟩ := h'.fresh i k (Nat.le_of_not_lt hlt) hk
      exact ⟨by omega, hk₂, hr⟩
  · intro i j k hi hj hik hjk
    by_cases hlt : i < d'.jobs.length <;> by_cases hlt' : j < d'.jobs.length
    · exact h.apart i j k hi hj (hold i k hi hik hlt) (hold j k hj hjk hlt')
    · have hk := (h.fresh i k hi (hold i k hi hik hlt)).2.1
      have hk' := (h'.fresh j k (Nat.le_of_not_lt hlt') hjk).1
      omega
    · have hk := (h.fresh j k hj (hold j k hj hjk hlt')).2.1
      have hk' := (h'.fresh i k (Nat.le_of_not_lt hlt) hik).1
      omega
    · exact h'.apart i j k (Nat.le_of_not_lt hlt) (Nat.le_of_not_lt hlt') hik hjk

theorem of_deeds (h : Deeds d d') : Grows d d' := by
  induction h with
  | refl => exact of_jobs rfl (List.prefix_refl _)
  | tail _ hd ih => exact ih.trans (of_deed hd)

end Grows

/-- Each job has a handle of its own, if any, and has reported to it only if it is through. -/
structure Promised (d : Desk) : Prop where
  bound : ∀ i k, (d.job i).handle = some k → k < d.handles.length
  apart : ∀ i j k, (d.job i).handle = some k → (d.job j).handle = some k → i = j
  pending : ∀ i k, (d.job i).handle = some k → (d.job i).task.isSome = true →
    (d.handle k).report = none

/-- What one thing that happens does to the work in the background, and to what is reported of it. At
most one job ends. -/
structure Advances (d : Desk) (x : Option Ended) (d' : Desk) : Prop where
  jobs : d.jobs.length ≤ d'.jobs.length
  handles : d.handles.length ≤ d'.handles.length
  /-- A job keeps its handle. -/
  assigned : ∀ i < d.jobs.length, (d'.job i).handle = (d.job i).handle
  ended : ∀ e ∈ x, (d.job e.job).task = some e.task ∧
    ((d.atWork e.job).turn e.task).2 = .ended e.ending
  /-- What is left to do for a job is what was left, or what its turn has left. -/
  left : ∀ i < d.jobs.length, ∀ t', (d'.job i).task = some t' → (d.job i).task = some t' ∨
    ∃ t, (d.job i).task = some t ∧ ((d.atWork i).turn t).2 = .waiting t'
  /-- A job is through once it has ended. -/
  through : ∀ i < d.jobs.length, (d'.job i).task = none ↔
    (d.job i).task = none ∨ ∃ e ∈ x, e.job = i
  /-- A handle reports how its job has ended, or what it reported before. -/
  report : ∀ k < d.handles.length, ∀ r, (d'.handle k).report = some r ↔
    (d.handle k).report = some r ∨
      ∃ e ∈ x, (d.job e.job).handle = some k ∧ e.ending.report = r
  fresh : ∀ i k, d.jobs.length ≤ i → (d'.job i).handle = some k →
    d.handles.length ≤ k ∧ k < d'.handles.length ∧ (d'.handle k).report = none
  apart : ∀ i j k, d.jobs.length ≤ i → d.jobs.length ≤ j → (d'.job i).handle = some k →
    (d'.job j).handle = some k → i = j

theorem Grows.advances (h : Grows d d') : Advances d none d' where
  jobs := h.jobs.length_le
  handles := h.handles.length_le
  assigned i hi := by rw [job_of_grows h.jobs hi]
  ended := by simp
  left i hi t' ht := .inl (by rwa [job_of_grows h.jobs hi] at ht)
  through i hi := by simp [job_of_grows h.jobs hi]
  report k hk r := by simp [handle_of_grows h.handles hk]
  fresh := h.fresh
  apart := h.apart

namespace Promised

theorem fresh (h : d.jobs = []) : d.Promised := by
  have hnone : ∀ i, (d.job i).handle = none := by
    intro i
    rw [job_of_le (by simp [h])]
    rfl
  refine ⟨?_, ?_, ?_⟩ <;> intro i <;> simp [hnone]

theorem advances (h : d.Promised) (ha : Advances d x d') : d'.Promised where
  bound i k hk := by
    have hle := ha.handles
    by_cases hi : i < d.jobs.length
    · rw [ha.assigned i hi] at hk
      have := h.bound i k hk
      omega
    · exact (ha.fresh i k (Nat.le_of_not_lt hi) hk).2.1
  apart i j k hik hjk := by
    by_cases hi : i < d.jobs.length <;> by_cases hj : j < d.jobs.length
    · rw [ha.assigned i hi] at hik
      rw [ha.assigned j hj] at hjk
      exact h.apart i j k hik hjk
    · rw [ha.assigned i hi] at hik
      have hk := h.bound i k hik
      have hk' := (ha.fresh j k (Nat.le_of_not_lt hj) hjk).1
      omega
    · rw [ha.assigned j hj] at hjk
      have hk := h.bound j k hjk
      have hk' := (ha.fresh i k (Nat.le_of_not_lt hi) hik).1
      omega
    · exact ha.apart i j k (Nat.le_of_not_lt hi) (Nat.le_of_not_lt hj) hik hjk
  pending i k hk htask := by
    by_cases hi : i < d.jobs.length
    · rw [ha.assigned i hi] at hk
      obtain ⟨t, ht⟩ := Option.isSome_iff_exists.1 htask
      have hgoing := mt (ha.through i hi).2 (by rw [ht]; exact Option.some_ne_none t)
      rw [not_or] at hgoing
      cases hr : (d'.handle k).report with
      | none => rfl
      | some r =>
        rcases (ha.report k (h.bound i k hk) r).1 hr with hr | ⟨e, he, hek, _⟩
        · rw [h.pending i k hk (Option.isSome_iff_ne_none.2 hgoing.1)] at hr
          cases hr
        · exact absurd ⟨e, he, h.apart e.job i k hek hk⟩ hgoing.2
    · exact (ha.fresh i k (Nat.le_of_not_lt hi) hk).2.2

/-- A job has had its turn, and something is left to do for it, or it has ended. -/
theorem advances_of_left (h : d.Promised) {t : Task} {left : Option Task} {d₁ : Desk}
    (ht : (d.job i).task = some t) (hg : Grows (d.atWork i) d₁)
    (length : d'.jobs.length = d₁.jobs.length) (others : ∀ j, i ≠ j → d'.job j = d₁.job j)
    (job : d'.job i = { d.job i with task := left })
    (ended : ∀ e ∈ x, e.job = i ∧ e.task = t ∧ ((d.atWork i).turn t).2 = .ended e.ending)
    (waiting : ∀ t', left = some t' → ((d.atWork i).turn t).2 = .waiting t')
    (through : left = none ↔ x.isSome = true) (handles : d'.handles.length = d₁.handles.length)
    (report : ∀ k r, (d'.handle k).report = some r ↔ (d₁.handle k).report = some r ∨
      ∃ e ∈ x, (d.job i).handle = some k ∧ e.ending.report = r) : Advances d x d' := by
  have hi := lt_of_task ht
  have hlen : (d.atWork i).jobs.length = d.jobs.length := List.length_set
  have hjobs := hg.jobs.length_le
  have hhandles : d.handles.length ≤ d₁.handles.length := hg.handles.length_le
  have hold : ∀ j < d.jobs.length, i ≠ j → d'.job j = d.job j := by
    intro j hj hij
    rw [others j hij, job_of_grows hg.jobs (by omega)]
    exact job_of_set_ne rfl hij
  have hnew : ∀ j, d.jobs.length ≤ j → d'.job j = d₁.job j := by
    intro j hj
    exact others j (by omega)
  have hhandle : ∀ k < d.handles.length, d₁.handle k = d.handle k := by
    intro k hk
    exact handle_of_grows (d := d.atWork i) hg.handles hk
  refine ⟨by omega, by omega, ?_, ?_, ?_, ?_, ?_, ?_, ?_⟩
  · intro j hj
    by_cases hij : i = j
    · subst hij
      rw [job]
    · rw [hold j hj hij]
  · intro e he
    obtain ⟨hej, het, hturn⟩ := ended e he
    rw [hej, het]
    exact ⟨ht, hturn⟩
  · intro j hj t' hleft
    by_cases hij : i = j
    · subst hij
      rw [job] at hleft
      exact .inr ⟨t, ht, waiting t' hleft⟩
    · rw [hold j hj hij] at hleft
      exact .inl hleft
  · intro j hj
    by_cases hij : i = j
    · subst hij
      rw [job, through, ht, Option.isSome_iff_exists]
      simp only [reduceCtorEq, false_or]
      constructor
      · rintro ⟨e, he⟩
        exact ⟨e, he, (ended e he).1⟩
      · rintro ⟨e, he, _⟩
        exact ⟨e, he⟩
    · rw [hold j hj hij]
      refine (or_iff_left ?_).symm
      rintro ⟨e, he, hej⟩
      exact hij ((ended e he).1.symm.trans hej)
  · intro k hk r
    rw [report, hhandle k hk]
    refine or_congr_right (exists_congr fun e => and_congr_right fun he => ?_)
    rw [(ended e he).1]
  · intro j k hj hk
    rw [hnew j hj] at hk
    obtain ⟨hk₁, hk₂, hr⟩ := hg.fresh j k (by omega) hk
    have hk₁ : d.handles.length ≤ k := hk₁
    refine ⟨hk₁, by omega, ?_⟩
    cases hr' : (d'.handle k).report with
    | none => rfl
    | some r =>
      rcases (report k r).1 hr' with hr' | ⟨e, _, hek, _⟩
      · rw [hr] at hr'
        cases hr'
      · have := h.bound i k hek
        omega
  · intro j n k hj hn hjk hnk
    rw [hnew j hj] at hjk
    rw [hnew n hn] at hnk
    exact hg.apart j n k (by omega) (by omega) hjk hnk

/-- A job that goes on. -/
theorem advances_waiting (h : d.Promised) {t t' : Task} {d₁ : Desk} (ht : (d.job i).task = some t)
    (hout : (d.atWork i).turn t = (d₁, .waiting t')) : Advances d none (d.turnOfJob i) := by
  have hg := Grows.of_deeds (deeds_turn (d.atWork i) t)
  rw [hout] at hg
  have hlen := hg.jobs.length_le
  have hlt : i < (d.atWork i).jobs.length := by simpa [atWork] using lt_of_task ht
  obtain ⟨queue, waits, hd⟩ := turnOfJob_waiting ht hout
  rw [hd]
  refine h.advances_of_left ht hg List.length_set ?_ ?_ (by simp) (by simp [hout])
    (iff_of_false (Option.some_ne_none t') (by simp)) rfl ?_
  · intro j hij
    exact job_of_set_ne (d := d₁) rfl hij
  · rw [job_of_set (d := d₁) rfl, if_pos ⟨rfl, Nat.lt_of_lt_of_le hlt hlen⟩]
  · intro k r
    simp [handle]

/-- A job that ends reports to its handle, to which nobody has reported yet. -/
theorem advances_ended (h : d.Promised) {t : Task} {e : Ending} {d₁ : Desk}
    (ht : (d.job i).task = some t) (hout : (d.atWork i).turn t = (d₁, .ended e)) :
    Advances d (some ⟨i, t, e⟩) (d.turnOfJob i) := by
  have hi := lt_of_task ht
  have hlt : i < (d.atWork i).jobs.length := by simpa [atWork] using hi
  have hturn := Grows.of_deeds (deeds_turn (d.atWork i) t)
  rw [hout] at hturn
  have hwait : Grows d₁ (d₁.await i []) := .of_jobs rfl (List.prefix_refl _)
  have hback := Grows.of_deeds (dealt_returned (d₁.await i []) (d.job i) e).deeds
  have hg := (hturn.trans hwait).trans hback
  have hjob : ((d₁.await i []).returned (d.job i) e).job i = { d.job i with task := none } := by
    rw [job_of_grows hg.jobs hlt, job_of_set (d := d) rfl, if_pos ⟨rfl, hi⟩]
  rw [turnOfJob_ended ht hout, settle_eq]
  generalize (d₁.await i []).returned (d.job i) e = d₂ at hg hjob ⊢
  cases hk : (d.job i).handle with
  | none =>
    refine h.advances_of_left ht hg rfl (fun _ _ => rfl) hjob (by simp [hout]) (by simp) (by simp)
      rfl ?_
    intro k r
    simp [hk]
  | some k =>
    have hkd := h.bound i k hk
    have hk₂ : k < d₂.handles.length := Nat.lt_of_lt_of_le hkd hg.handles.length_le
    have hnone : (d₂.handle k).report = none := by
      rw [handle_of_grows (d := d.atWork i) hg.handles hkd]
      exact h.pending i k hk (by rw [ht]; rfl)
    dsimp only
    rw [resolve_of_none hnone]
    refine h.advances_of_left ht hg rfl (fun _ _ => rfl) hjob (by simp [hout]) (by simp) (by simp)
      List.length_set ?_
    intro n r
    rw [handle_of_set (d := d₂) rfl]
    by_cases hkn : k = n
    · subst hkn
      rw [if_pos ⟨rfl, hk₂⟩, hnone]
      simp [hk]
    · rw [if_neg fun h => hkn h.1]
      simp [hk, hkn]

theorem advances_turn (h : d.Promised) (i : Nat) : Advances d (d.ending? i) (d.turnOfJob i) := by
  cases ht : (d.job i).task with
  | none =>
    rw [ending?_of_none ht, turnOfJob_of_none ht]
    exact (Grows.of_jobs rfl (List.prefix_refl _)).advances
  | some t =>
    rw [ending?_of_some ht]
    cases hout : (d.atWork i).turn t with
    | mk d₁ turn =>
      cases turn with
      | waiting t' => exact h.advances_waiting ht hout
      | ended e => exact h.advances_ended ht hout

end Promised

end Desk

end PromptDesk
