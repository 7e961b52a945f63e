import PromptDesk.Proofs.Desk.DealingsAtWork
import PromptDesk.Proofs.Desk.GivenBack
import PromptDesk.Proofs.Desk.Lobby

/-! Handles that report. The work behind a handle reports when it has ended, and then the request of
the handle is past, unless the work panicked: a panic leaves the slot as it was. -/
namespace PromptDesk

namespace Desk

/-- Handles and jobs are added only. A new handle with a report carries no request, and a new job that
reports to a handle works on its request. -/
structure Files (d d' : Desk) : Prop where
  handles : ∃ l, d'.handles = d.handles ++ l ∧ ∀ h ∈ l, h.report.isSome = true → h.requestId = none
  jobs : ∃ l, d'.jobs = d.jobs ++ l ∧ ∀ j ∈ l, ∀ k, j.handle = some k →
    ∃ h, d'.handles[k]? = some h ∧ ∀ t, j.task = some t → t.isFor h.requestId j.owner

/-- What is known of a request from the handles that carry it: it is past when one of them reports
anything but a panic, and until then the jobs that are to report work on it. -/
structure Reports (r : String) (past : Prop) (d : Desk) : Prop where
  done : ∀ h ∈ d.handles, h.requestId = some r → ∀ report, h.report = some report →
    past ∨ ∃ message, report = .error (.panicked message)
  jobs : ∀ j ∈ d.jobs, ∀ k, j.handle = some k → ∃ h, d.handles[k]? = some h ∧
    (h.requestId = some r → ∀ t, j.task = some t → past ∨ t.isOn r j.owner)

/-- A job reports to a handle that carries a request. -/
def Carries (d : Desk) (j : Job) (r : String) : Prop :=
  ∃ k h, j.handle = some k ∧ d.handles[k]? = some h ∧ h.requestId = some r

variable {d d' d'' : Desk} {r : String} {past past' : Prop} {H E : List String}

namespace Files

theorem of_eq (handles : d'.handles = d.handles) (jobs : d'.jobs = d.jobs) : Files d d' :=
  ⟨⟨[], by simp [handles], by simp⟩, [], by simp [jobs], by simp⟩

theorem getElem? (hf : Files d d') {k : Nat} {h : Handle} (hk : d.handles[k]? = some h) :
    d'.handles[k]? = some h := by
  obtain ⟨l, hl, _⟩ := hf.handles
  rw [hl, List.getElem?_append_left (List.getElem?_eq_some_iff.1 hk).1, hk]

/-- A handle carries what it carried. -/
theorem carries (hf : Files d d') {j : Job}
    (hget : ∀ k, j.handle = some k → ∃ x, d.handles[k]? = some x) (hc : d'.Carries j r) :
    d.Carries j r := by
  obtain ⟨k, x, hk, hx, hid⟩ := hc
  obtain ⟨y, hy⟩ := hget k hk
  obtain rfl : x = y := Option.some.inj (hx.symm.trans (hf.getElem? hy))
  exact ⟨k, x, hk, hy, hid⟩

theorem trans (hf : Files d d') (hf' : Files d' d'') : Files d d'' where
  handles := by
    obtain ⟨l, hl, hn⟩ := hf.handles
    obtain ⟨l', hl', hn'⟩ := hf'.handles
    refine ⟨l ++ l', by rw [hl', hl, List.append_assoc], fun h hh => ?_⟩
    exact (List.mem_append.1 hh).elim (hn h) (hn' h)
  jobs := by
    obtain ⟨l, hl, hn⟩ := hf.jobs
    obtain ⟨l', hl', hn'⟩ := hf'.jobs
    refine ⟨l ++ l', by rw [hl', hl, List.append_assoc], fun j hj k hk => ?_⟩
    rcases List.mem_append.1 hj with hj | hj
    · obtain ⟨h, hh, ht⟩ := hn j hj k hk
      exact ⟨h, hf'.getElem? hh, ht⟩
    · exact hn' j hj k hk

theorem of_deed (h : Deed d d') : Files d d' := by
  cases h with
  | slot | board => exact of_eq rfl rfl
  | aside slot board handles jobs => exact of_eq handles jobs
  | @spawn j h =>
    refine ⟨⟨[], by simp [Desk.spawn], by simp⟩, [j], rfl, fun j' hj k hk => ?_⟩
    rw [List.mem_singleton.1 hj, h] at hk
    cases hk
  | @dispatch id owner t h =>
    refine ⟨⟨[⟨id, true, none⟩], rfl, fun h' hh hr => ?_⟩, [_], rfl, fun j hj k hk => ?_⟩
    · rw [List.mem_singleton.1 hh] at hr
      cases hr
    · obtain rfl := List.mem_singleton.1 hj
      cases hk
      refine ⟨⟨id, true, none⟩, List.getElem?_concat_length, ?_⟩
      rintro _ ⟨⟩
      exact h
  | settled p =>
    refine ⟨⟨[⟨none, false, some (.ok p)⟩], rfl, fun h' hh _ => ?_⟩, [],
      by simp [Desk.settled], by simp⟩
    rw [List.mem_singleton.1 hh]

theorem of_deeds (h : Deeds d d') : Files d d' := by
  induction h with
  | refl => exact of_eq rfl rfl
  | tail _ hd ih => exact ih.trans (of_deed hd)

theorem of_claim {source : String} {a : Admission} (h : d.claim source = (d', a)) : Files d d' := by
  have hd := (dealt_claim d source).deeds
  rw [h] at hd
  exact of_deeds hd

end Files

end Desk

theorem Task.isOn_of_isFor {t : Task} {r : String} {owner : Option String} {E : List String}
    (h : t.isFor (some r) owner) (holds : t.Holds E) : t.isOn r owner := by
  cases t with
  | request q sequel => exact h
  | execution e sequel => exact (Option.some.inj h.1).symm
  | collect limit playback => exact holds.elim
  | _ => exact h.elim

theorem Turn.Answers.isOn {t : Task} {r : String} {past : Prop} {owner : Option String}
    (h : (Turn.waiting t).Answers r past) : past ∨ t.isOn r owner := by
  cases t <;> first | exact h | exact .inl h

namespace Desk

variable {d d' : Desk} {r : String} {past past' : Prop} {H E : List String}

namespace Reports

theorem imp (h : d.Reports r past) (hp : past → past') : d.Reports r past' where
  done x hx hid report hr := (h.done x hx hid report hr).imp_left hp
  jobs j hj k hk :=
    (h.jobs j hj k hk).imp fun _ hx => hx.imp_right fun ht hid t he => (ht hid t he).imp_left hp

theorem files (h : d.Reports r past) (hf : Files d d') (hd' : d'.Orderly r past H E) :
    d'.Reports r past where
  done x hx hid report hr := by
    obtain ⟨l, hl, hn⟩ := hf.handles
    rw [hl] at hx
    rcases List.mem_append.1 hx with hx | hx
    · exact h.done x hx hid report hr
    · have hnone := hn x hx (by rw [hr]; rfl)
      rw [hid] at hnone
      cases hnone
  jobs j hj k hk := by
    obtain ⟨l, hl, hn⟩ := hf.jobs
    have hproper := (hd'.jobs j hj).task
    rw [hl] at hj
    rcases List.mem_append.1 hj with hj | hj
    · obtain ⟨x, hx, ht⟩ := h.jobs j hj k hk
      exact ⟨x, hf.getElem? hx, ht⟩
    · obtain ⟨x, hx, ht⟩ := hn j hj k hk
      refine ⟨x, hx, fun hid t he => .inr ?_⟩
      exact Task.isOn_of_isFor (hid ▸ ht t he) (hproper t he).holds

theorem handle? (h : d.Reports r past) {j : Job} (hj : j ∈ d.jobs) (k : Nat)
    (hk : j.handle = some k) : ∃ x, d.handles[k]? = some x :=
  (h.jobs j hj k hk).imp fun _ hx => hx.1

theorem isOn (h : d.Reports r past) {j : Job} {t : Task} (hj : j ∈ d.jobs) (ht : j.task = some t)
    (hc : d.Carries j r) : past ∨ t.isOn r j.owner := by
  obtain ⟨k, x, hk, hx, hid⟩ := hc
  obtain ⟨y, hy, hty⟩ := h.jobs j hj k hk
  obtain rfl : x = y := Option.some.inj (hx.symm.trans hy)
  exact hty hid t ht

/-- A job is replaced by one that reports to the same handle. -/
theorem putJob (h : d.Reports r past) (i : Nat) {j : Job} (task : Option Task)
    (hj : ∀ k, j.handle = some k → ∃ x, d.handles[k]? = some x)
    (on : d.Carries j r → ∀ t, task = some t → past ∨ t.isOn r j.owner) :
    { d with jobs := d.jobs.set i { j with task := task } }.Reports r past where
  done := h.done
  jobs j' hj' k hk := by
    rcases List.mem_or_eq_of_mem_set hj' with hj' | rfl
    · exact h.jobs j' hj' k hk
    · obtain ⟨x, hx⟩ := hj k hk
      exact ⟨x, hx, fun hid => on ⟨k, x, hk, hx, hid⟩⟩

/-- What is known when a handle reports for the first time. -/
theorem resolve (h : d.Reports r past) (k : Nat) (report : Except Defeat Product)
    (hk : ∀ x, d.handles[k]? = some x → x.requestId = some r →
      past ∨ ∃ message, report = .error (.panicked message)) : (d.resolve k report).Reports r past := by
  rw [Desk.resolve]
  split
  · exact h
  have hget : ∀ n x, (d.handles.set k { d.handle k with report := some report })[n]? = some x →
      d.handles[n]? = some x ∨ n = k ∧ x = { d.handle k with report := some report } ∧
        d.handles[k]? = some (d.handle k) := fun n x hx => by
    rw [List.getElem?_set] at hx
    split at hx
    · split at hx
      · rename_i hn hlt
        subst hn
        refine .inr ⟨rfl, (Option.some.inj hx).symm, ?_⟩
        simp [handle, List.getElem?_eq_getElem hlt]
      · cases hx
    · exact .inl hx
  refine ⟨fun x hx hid report' hr => ?_, fun j hj n hn => ?_⟩
  · obtain ⟨n, hx⟩ := List.mem_iff_getElem?.1 hx
    rcases hget n x hx with hx | ⟨_, rfl, hold⟩
    · exact h.done x (List.mem_of_getElem? hx) hid report' hr
    · cases hr
      exact hk _ hold hid
  · obtain ⟨x, hx, ht⟩ := h.jobs j hj n hn
    by_cases hnk : n = k
    · subst hnk
      have hd : d.handle n = x := by simp [handle, hx]
      refine ⟨{ x with report := some report }, ?_, ht⟩
      simp [rouse, hd, (List.getElem?_eq_some_iff.1 hx).1]
    · refine ⟨x, ?_, ht⟩
      rw [← hx]
      exact List.getElem?_set_ne (Ne.symm hnk)

end Reports

theorem files_returned (d : Desk) (j : Job) (e : Ending) : Files d (d.returned j e) :=
  .of_deeds (dealt_returned d j e).deeds

/-- A job that ends gives back the slot of its request if it failed before it was sent. -/
theorem Orderly.returned (h : d.Orderly r past H E) {j : Job} {e : Ending} {carries : Prop}
    (ho : ∀ id, j.owner = some id → id ∈ E)
    (answers : carries → (Turn.ended e).Answers r past ∨ j.owner = some r ∧ ∃ f, e = .failure f) :
    ∃ past', (past → past') ∧ (d.returned j e).Orderly r past' H E ∧
      (carries → past' ∨ ∃ message, e.report = .error (.panicked message)) := by
  have hsame : (carries → past ∨ ∃ message, e.report = .error (.panicked message)) →
      d.returned j e = d → ∃ past', (past → past') ∧ (d.returned j e).Orderly r past' H E ∧
        (carries → past' ∨ ∃ message, e.report = .error (.panicked message)) := fun hp he =>
    ⟨past, id, he.symm ▸ h, hp⟩
  cases e with
  | success p =>
    refine hsame (fun hc => .inl ?_) rfl
    rcases answers hc with hp | ⟨_, f, hf⟩
    · exact hp
    · cases hf
  | panic message => exact hsame (fun _ => .inr ⟨message, rfl⟩) rfl
  | failure f =>
    cases howner : j.owner with
    | none =>
      refine hsame (fun hc => .inl ?_) (by simp [Desk.returned, howner])
      rcases answers hc with hp | ⟨hr, _⟩
      · exact hp
      · rw [howner] at hr
        cases hr
    | some id =>
      have he : d.returned j (.failure f) = d.failOwned id f := by simp [Desk.returned, howner]
      rw [he]
      by_cases hid : id = r
      · subst hid
        exact ⟨True, fun _ => trivial, h.failOwned (ho id howner) f, fun _ => .inl trivial⟩
      · refine ⟨past, fun hp => hp,
          Tended.failOwned (custody_sorted r past) h (.inl (ho id howner)) f, fun hc => .inl ?_⟩
        rcases answers hc with hp | ⟨hr, _⟩
        · exact hp
        · exact absurd (Option.some.inj (howner.symm.trans hr)) hid

/-- A job that has ended gives the slot back if it failed, and reports. -/
theorem Orderly.settle (h : d.Orderly r past H E) (hr : d.Reports r past) {j : Job} {e : Ending}
    (ho : ∀ id, j.owner = some id → id ∈ E)
    (hget : ∀ k, j.handle = some k → ∃ x, d.handles[k]? = some x)
    (answers : d.Carries j r → (Turn.ended e).Answers r past ∨
      j.owner = some r ∧ ∃ f, e = .failure f) :
    ∃ past', (d.settle j e).Orderly r past' H E ∧ (d.settle j e).Reports r past' := by
  obtain ⟨past', hp, hd, hc⟩ := h.returned ho answers
  have hr' : (d.returned j e).Reports r past' := (hr.imp hp).files (files_returned d j e) hd
  rw [settle_eq]
  cases hk : j.handle with
  | none => exact ⟨past', hd, hr'⟩
  | some k =>
    refine ⟨past', hd.quiet (custody_sorted r past') (quiet_resolve _ _ _),
      hr'.resolve k _ fun x hx hid => hc ?_⟩
    exact (files_returned d j e).carries hget ⟨k, x, hk, hx, hid⟩

/-- A turn that some work on a request may have. -/
theorem Orderly.turn_of_on {t : Task} {owner : Option String} {carries : Prop}
    (h : d.Orderly r past (t.claim?.toList ++ H) E) (ht : t.IsProper Step.isOrderly E)
    (on : carries → past ∨ t.isOn r owner) :
    ∃ E' past', E ⊆ E' ∧ (past → past') ∧ (∀ q, t.claim? = some q → q ∈ E') ∧
      (d.turn t).1.Orderly r past' H E' ∧ (d.turn t).2.IsProper Step.isOrderly E' ∧
        (carries → (d.turn t).2.Answers r past' ∨
          owner = some r ∧ ∃ f, (d.turn t).2 = .ended (.failure f)) := by
  by_cases hon : t.isOn r owner ∧ ¬ past
  · obtain ⟨hon, hpast⟩ := hon
    obtain ⟨E', past', hE, hcl, _, hd, hturn, hans⟩ := Orderly.turn (h.imp False.elim) ht hon
    exact ⟨E', past', hE, fun hp => absurd hp hpast, hcl, hd, hturn, fun _ => hans⟩
  · obtain ⟨E', hE, hcl, hd, hturn⟩ := Tended.turn (custody_sorted r past) h ht
    refine ⟨E', past, hE, fun hp => hp, hcl, hd, hturn, fun hc => .inl ?_⟩
    refine Turn.answers_of_past ?_ _
    rcases on hc with hp | hon'
    · exact hp
    · exact not_not.1 fun hp => hon ⟨hon', hp⟩

/-- Handles and jobs that stay as they are report and do what they did. -/
theorem Orderly.quietly (h : d.Orderly r past H E) (hr : d.Reports r past) (hq : d.Quiet d')
    (handles : d'.handles = d.handles) (jobs : d'.jobs = d.jobs) :
    d'.Orderly r past H E ∧ d'.Reports r past :=
  have hd := h.quiet (custody_sorted r past) hq
  ⟨hd, hr.files (.of_eq handles jobs) hd⟩

/-- A job that is not through goes on waiting. -/
theorem Orderly.putJob (h : d.Orderly r past H E) (hr : d.Reports r past) (i : Nat) {j : Job}
    {t : Task} (proper : t.IsProper Step.isOrderly E) (sent : t.claim? = none)
    (ho : ∀ id, j.owner = some id → id ∈ E)
    (hget : ∀ k, j.handle = some k → ∃ x, d.handles[k]? = some x)
    (on : d.Carries j r → past ∨ t.isOn r j.owner) :
    { d with jobs := d.jobs.set i { j with task := some t } }.Orderly r past H E ∧
      { d with jobs := d.jobs.set i { j with task := some t } }.Reports r past := by
  have hj : Job.IsProper Step.isOrderly E { j with task := some t } := by
    refine ⟨?_, fun _ id _ hid => .inl (ho id hid)⟩
    rintro _ ⟨⟩
    exact proper
  refine ⟨Tended.putJob (custody_sorted r past) h i hj sent, hr.putJob i (some t) hget fun hc => ?_⟩
  rintro _ ⟨⟩
  exact on hc

/-- In the turn of a job the handles that carry a request report no more than is known of it. -/
theorem Orderly.turnOfJob (h : d.Orderly r past H E) (hr : d.Reports r past) (i : Nat) :
    ∃ E' past', E ⊆ E' ∧ (d.turnOfJob i).Orderly r past' H E' ∧ (d.turnOfJob i).Reports r past' := by
  rw [Desk.turnOfJob]
  cases ht : (d.job i).task with
  | none => exact ⟨E, past, List.Subset.refl E, h, hr⟩
  | some t =>
    have hmem : d.job i ∈ d.jobs := List.mem_of_getElem? (getElem?_of_task ht)
    obtain ⟨hp, ho, h₀⟩ := Tended.takeJob (custody_sorted r past) h ht
    have hr₀ := hr.putJob i none (hr.handle? hmem) fun _ _ he => by cases he
    obtain ⟨E', past', hE, hpp, hcl, h₁, hturn, hans⟩ :=
      Orderly.turn_of_on h₀ hp (hr.isOn hmem ht)
    have hf := Files.of_deeds
      (deeds_turn { d with jobs := d.jobs.set i { d.job i with task := none } } t)
    have hr₁ := (hr₀.imp hpp).files hf h₁
    have ho' : ∀ id, (d.job i).owner = some id → id ∈ E' := fun id hid =>
      (ho id hid).elim (fun hm => hE hm) (hcl id)
    dsimp only
    generalize Desk.turn _ t = out at h₁ hturn hans hf hr₁ ⊢
    have hget : ∀ k, (d.job i).handle = some k → ∃ x, out.1.handles[k]? = some x := fun k hk =>
      (hr.handle? hmem k hk).imp fun _ hx => hf.getElem? hx
    have hans' := fun hc => hans (hf.carries (hr.handle? hmem) hc)
    obtain ⟨d₁, t' | e⟩ := out
    · obtain ⟨hput, hrput⟩ := h₁.putJob hr₁ i hturn.1 hturn.2 ho' hget fun hc => by
        rcases hans' hc with hp | ⟨_, f, hf⟩
        · exact hp.isOn
        · cases hf
      refine ⟨E', past', hE, ?_⟩
      dsimp only
      split <;> exact hput.quietly hrput (.of_eq rfl rfl rfl rfl rfl rfl) rfl rfl
    · have hq : Quiet d₁ (d₁.await i []) := .of_eq rfl rfl rfl rfl rfl rfl
      obtain ⟨h₂, hr₂⟩ := h₁.quietly hr₁ hq rfl rfl
      obtain ⟨past'', hd, hd'⟩ := h₂.settle hr₂ ho' hget fun hc => by
        rcases hans' hc with hp | ⟨ho, f, hf⟩
        · exact .inl hp
        · cases hf
          exact .inr ⟨ho, f, rfl⟩
      exact ⟨E', past'', hE, hd, hd'⟩

end Desk

namespace Lobby

/-- What may happen at a desk where nobody but the jobs reports to a handle. -/
inductive Occurs (p : Step → Bool) : Lobby → Lobby → Prop
  | step {d : Desk} {gs : List Job} (s : Step) (hs : s.all p = true) :
      Occurs p ⟨d, gs⟩ ⟨(s.perform d).1, gs⟩
  | arrival {d d' : Desk} {gs : List Job} {source : String} {id : Option String} (q : Request)
      (hq : q.all p = true) (hc : d.claim source = (d', .allowed id)) :
      Occurs p ⟨d, gs⟩ ⟨d', gs ++ [guest d' q id]⟩
  | refusal {d d' : Desk} {gs : List Job} {source message : String} {reason : DropReason}
      (hc : d.claim source = (d', .rejected reason message)) : Occurs p ⟨d, gs⟩ ⟨d', gs⟩
  | visit {d : Desk} {gs : List Job} (j : Job) (hj : j.isPlain = true) (hh : j.handle = none) :
      Occurs p ⟨d, gs⟩ ⟨d, gs ++ [j]⟩
  | guest (x : Lobby) (i : Nat) : Occurs p x (x.turnOfGuest i)
  | job {d : Desk} {gs : List Job} (i : Nat) : Occurs p ⟨d, gs⟩ ⟨d.turnOfJob i, gs⟩
  | quiet {d d' : Desk} {gs : List Job} (hq : d.Quiet d') (handles : d'.handles = d.handles)
      (jobs : d'.jobs = d.jobs) : Occurs p ⟨d, gs⟩ ⟨d', gs⟩

theorem Occurs.happens {p : Step → Bool} {x y : Lobby} (h : Occurs p x y) : Happens p x y := by
  cases h with
  | step s hs => exact .step s hs
  | arrival q hq hc => exact .arrival q hq hc
  | refusal hc => exact .refusal hc
  | visit j hj _ => exact .visit j hj
  | guest _ i => exact .guest _ i
  | job i => exact .job i
  | quiet hq _ _ => exact .quiet hq

/-- The handles that carry a request report no more than is known of it. -/
structure Accounts (r : String) (past : Prop) (E : List String) (x : Lobby) : Prop where
  tended : x.Tended Step.isOrderly (Desk.Sorted r past) E
  reports : x.desk.Reports r past
  guests : ∀ j ∈ x.guests, j.handle = none

variable {x y : Lobby} {r : String} {past : Prop} {E : List String}

/-- Nobody reports to a handle in the turn of a guest. -/
theorem files_turnOfGuest (hg : ∀ j ∈ x.guests, j.handle = none) (i : Nat) :
    x.desk.Files (x.turnOfGuest i).desk ∧ ∀ j ∈ (x.turnOfGuest i).guests, j.handle = none := by
  rw [Lobby.turnOfGuest]
  generalize hj : x.guests.getD i default = j
  cases ht : j.task with
  | none => exact ⟨.of_eq rfl rfl, hg⟩
  | some t =>
    have hi : x.guests[i]? = some j := hj ▸ Desk.getElem?_of_task (hj ▸ ht)
    have hh := hg j (List.mem_of_getElem? hi)
    have hset : ∀ task, ∀ k ∈ x.guests.set i { j with task := task }, k.handle = none := by
      intro task k hk
      rcases List.mem_or_eq_of_mem_set hk with hk | rfl
      · exact hg k hk
      · exact hh
    have hf := Desk.Files.of_deeds (x.desk.deeds_turn t)
    dsimp only
    generalize x.desk.turn t = out at hf ⊢
    obtain ⟨d, t' | e⟩ := out
    · exact ⟨hf, hset _⟩
    · refine ⟨hf.trans ?_, hset _⟩
      change d.Files (d.settle j e)
      rw [Desk.settle_eq, hh]
      exact d.files_returned j e

theorem Occurs.accounts (hs : Occurs Step.isOrderly x y) (h : x.Accounts r past E) :
    ∃ past' E', y.Accounts r past' E' := by
  have htended := hs.happens.tended (Desk.custody_sorted r past) h.tended
  obtain ⟨tended, reports, guests⟩ := h
  have hfiles : x.desk.Files y.desk → (∀ j ∈ y.guests, j.handle = none) →
      ∃ past' E', y.Accounts r past' E' := fun hf hg =>
    have ⟨E', _, hy⟩ := htended
    ⟨past, E', hy, reports.files hf hy.desk, hg⟩
  cases hs with
  | step s hs => exact hfiles (.of_deeds (Desk.dealt_perform _ s).deeds) guests
  | arrival q hq hc =>
    refine hfiles (.of_claim hc) fun j hj => ?_
    rcases List.mem_append.1 hj with hj | hj
    · exact guests j hj
    · rw [List.mem_singleton.1 hj]
      rfl
  | refusal hc => exact hfiles (.of_claim hc) guests
  | visit j hj hh =>
    refine hfiles (.of_eq rfl rfl) fun k hk => ?_
    rcases List.mem_append.1 hk with hk | hk
    · exact guests k hk
    · rwa [List.mem_singleton.1 hk]
  | guest _ i =>
    obtain ⟨hf, hg⟩ := files_turnOfGuest guests i
    exact hfiles hf hg
  | job i =>
    obtain ⟨E', past', hE, hd, hr⟩ := Desk.Orderly.turnOfJob tended.desk reports i
    exact ⟨past', E', ⟨hd, fun j hj => (tended.guests j hj).mono hE⟩, hr, guests⟩
  | quiet hq handles jobs => exact hfiles (.of_eq handles jobs) guests

theorem Accounts.run (h : x.Accounts r past E)
    (run : Relation.ReflTransGen (Occurs Step.isOrderly) x y) : ∃ past' E', y.Accounts r past' E' := by
  induction run with
  | refl => exact ⟨past, E, h⟩
  | tail _ hs ih =>
    obtain ⟨past', E', h'⟩ := ih
    exact hs.accounts h'

theorem accounts_opened (r : String) {setup : Setup} {replies : List Reply} {reporting : Bool}
    (behaves : (Desk.opened setup replies reporting).Behaves Step.isOrderly) :
    Accounts r False [] ⟨Desk.opened setup replies reporting, []⟩ where
  tended := tended_opened ⟨⟨.refl, by simp⟩, by simp, False.elim⟩ behaves
  reports := ⟨by simp [Desk.opened], by simp [Desk.opened]⟩
  guests := by simp

end Lobby

/-- Some handle that carries a request reports. -/
def Desk.isReported (d : Desk) (r : String) : Bool :=
  d.handles.any fun h => h.requestId == some r && h.report.isSome

theorem Desk.exists_handle (d : Desk) {r : String} (h : d.isReported r = true) :
    ∃ h ∈ d.handles, h.requestId = some r ∧ h.report.isSome = true := by
  simpa [Desk.isReported] using h

namespace Lobby

/-- A request whose handle reports is not in flight, unless its work panicked. -/
theorem panicked_of_inFlight {setup : Setup} {replies : List Reply} {reporting : Bool} {y : Lobby}
    {r : String} {h : Handle} {report : Except Defeat Product}
    (behaves : (Desk.opened setup replies reporting).Behaves Step.isOrderly)
    (run : Relation.ReflTransGen (Occurs Step.isOrderly) ⟨Desk.opened setup replies reporting, []⟩ y)
    (unwrapped : y.desk.slot.Unwrapped) (mem : h ∈ y.desk.handles) (carries : h.requestId = some r)
    (done : h.report = some report) (inFlight : y.desk.slot.state.holds r = true) :
    ∃ message, report = .error (.panicked message) := by
  obtain ⟨past, E, hy⟩ := (accounts_opened r behaves).run run
  refine (hy.reports.done h mem carries report done).resolve_left fun hp => ?_
  have hn := ((hy.tended.desk.custody.past hp).2 unwrapped).2
  rw [inFlight] at hn
  cases hn

/-- The transport panics while a stream is opened for a request that was run without asking the
gate. -/
theorem panicked_while_opening :
    let opened := Desk.opened {} [⟨[.panic (.text "boom")], []⟩] true
    let x : Lobby := ⟨((Step.run (.mk "a" [] none none ∅) "h").perform opened).1.turnOfJob 0, []⟩
    Relation.ReflTransGen (Occurs Step.isOrderly) ⟨opened, []⟩ x ∧ x.desk.slot.Unwrapped ∧
      x.desk.slot.state.holds "req-1" = true ∧ ∃ h ∈ x.desk.handles, h.requestId = some "req-1" ∧
        ∃ message, h.report = some (.error (.panicked message)) := by
  intro opened x
  have run : Relation.ReflTransGen (Occurs Step.isOrderly) ⟨opened, []⟩ x :=
    (Relation.ReflTransGen.single (.step (.run (.mk "a" [] none none ∅) "h") rfl)).tail (.job 0)
  have unwrapped : x.desk.slot.Unwrapped := by
    rw [Slot.Unwrapped]
    decide +kernel
  have inFlight : x.desk.slot.state.holds "req-1" = true := by decide +kernel
  have behaves : opened.Behaves Step.isOrderly :=
    ⟨by simp [opened, Desk.opened], by simp [opened, Desk.opened, Reply.all, Item.allIn, Item.all]⟩
  obtain ⟨h, mem, carries, done⟩ := x.desk.exists_handle (r := "req-1") (by decide +kernel)
  obtain ⟨report, done⟩ := Option.isSome_iff_exists.1 done
  obtain ⟨message, rfl⟩ :=
    panicked_of_inFlight behaves run unwrapped mem carries done inFlight
  exact ⟨run, unwrapped, inFlight, h, mem, carries, message, done⟩

/-- The transport panics in the work on a submission. Its handle reports, nothing is left to do, and
the gate refuses every submission from then on. -/
theorem inFlight_of_panic :
    let opened := Desk.opened {} [⟨[], [.chunk "x", .panic .other]⟩] true
    let x : Lobby := ⟨((Step.submit (.mk "a" [] none none ∅) "k1" "h").perform opened).1.turnOfJob 0, []⟩
    Relation.ReflTransGen (Occurs Step.isOrderly) ⟨opened, []⟩ x ∧
      (∃ h ∈ x.desk.handles, h.requestId = some "req-1" ∧ h.report.isSome = true) ∧
      x.desk.jobs.all (·.task.isNone) = true ∧ x.desk.slot.state.holds "req-1" = true ∧
      ∃ d reason message, x.desk.claim "k2" = (d, .rejected reason message) := by
  intro opened x
  obtain ⟨d, reason, message, h, _⟩ := Desk.claim_of_inFlight (d := x.desk) (by decide +kernel)
    (by decide +kernel) "k2"
  refine ⟨?_, x.desk.exists_handle (by decide +kernel), by decide +kernel, by decide +kernel, d,
    reason, message, h⟩
  exact (Relation.ReflTransGen.single
    (.step (.submit (.mk "a" [] none none ∅) "k1" "h") rfl)).tail (.job 0)

end Lobby

end PromptDesk
