import PromptDesk.Proofs.Desk.Lobby

/-! Visits are runs. The order in which jobs have their turns while a visitor is served, and the way
in which the clock moves on, are one of the orders in which things may happen at a desk. -/
namespace PromptDesk

/-- A visitor who asks for requests by submission only, and makes permitted steps. -/
def Visitor.submits (p : Step → Bool) : Visitor → Bool
  | step s => s.all p
  | batch ss => ss.all (·.all p)
  | submit r _ => r.all p
  | wait _ _ | advance _ => true
  | run _ | delegate _ _ | send _ | read _ _ _ _ | collect _ _ => false

namespace Lobby

variable {p : Step → Bool} {own : Option String} {F : List String → List String → Desk → Prop}
variable {E : List String} {d d' : Desk} {gs : List Job}

theorem run_quiet (hq : d.Quiet d') : Run p ⟨d, gs⟩ ⟨d', gs⟩ := .single (.quiet hq)

/-- Jobs have their turns until all of them wait. -/
theorem run_drain (fuel : Nat) (d : Desk) : Run p ⟨d, gs⟩ ⟨d.drain fuel, gs⟩ := by
  induction fuel generalizing d with
  | zero => exact .refl
  | succ fuel ih =>
    rw [Desk.drain]
    split
    · exact .refl
    · rename_i i rest _
      have hq : d.Quiet { d with queue := rest } := .of_eq rfl rfl rfl rfl rfl rfl
      exact ((run_quiet hq).tail (.job i)).trans (ih _)

/-- Jobs and clock go on until one of some interests is met. -/
theorem run_waitFor {interests : List Interest} (fuel : Nat)
    (h : Desk.waitFor interests fuel d = some d') : Run p ⟨d, gs⟩ ⟨d', gs⟩ := by
  induction fuel generalizing d with
  | zero => cases h
  | succ fuel ih =>
    rw [Desk.waitFor] at h
    split at h
    · cases h
      exact .refl
    · split at h
      · exact (run_drain _ d).trans (ih h)
      · obtain ⟨d₁, ht, h⟩ := Option.bind_eq_some_iff.1 h
        obtain ⟨t, _, rfl⟩ := Option.map_eq_some_iff.1 ht
        have hq : d.Quiet (Desk.rouse { d with clock := t }) := .of_eq rfl rfl rfl rfl rfl rfl
        exact (run_quiet hq).trans (ih h)

/-- What the desk comes to while a visitor waits. -/
def afterwards (j : Job) : Desk × Option Ending → Desk
  | (d, some e) => d.settle j e
  | (d, none) => d

theorem run_finishTask {i : Nat} {j : Job} {t : Task} (fuel : Nat) (hi : gs[i]? = some j)
    (ht : j.task = some t) : ∃ gs', Run p ⟨d, gs⟩ ⟨afterwards j (Desk.finishTask fuel t d), gs'⟩ := by
  induction fuel generalizing d gs j t with
  | zero => exact ⟨gs, .refl⟩
  | succ fuel ih =>
    have hget : gs.getD i default = j := by simp [List.getD, hi]
    have hturn : Happens p ⟨d, gs⟩ (turnOfGuest ⟨d, gs⟩ i) := .guest _ i
    rw [turnOfGuest] at hturn
    simp only [hget, ht] at hturn
    rw [Desk.finishTask]
    generalize d.turn t = out at hturn ⊢
    obtain ⟨d₁, t' | e⟩ := out
    · dsimp only at hturn ⊢
      have hset : (gs.set i { j with task := some t' })[i]? = some { j with task := some t' } := by
        rw [List.getElem?_set_self]
        exact (List.getElem?_eq_some_iff.1 hi).1
      split
      · rename_i d₂ hw
        obtain ⟨gs', hrun⟩ := ih (d := d₂) hset rfl
        exact ⟨gs', .head hturn ((run_drain _ d₁).trans ((run_waitFor _ hw).trans hrun))⟩
      · exact ⟨_, .single hturn⟩
    · exact ⟨_, .single hturn⟩

theorem run_waitForTask {j : Job} {t : Task} (hs : Happens p ⟨d, gs⟩ ⟨d', gs ++ [j]⟩)
    (ht : j.task = some t) : ∃ gs', Run p ⟨d, gs⟩ ⟨afterwards j (d'.waitForTask t), gs'⟩ := by
  obtain ⟨gs', h⟩ := run_finishTask (d := d') Desk.turnLimit (List.getElem?_concat_length) ht
  exact ⟨gs', .head hs h⟩

theorem run_performEach (ss : List Step) (h : ss.all (·.all p) = true) :
    Run p ⟨d, gs⟩ ⟨(d.performEach ss).1, gs⟩ := by
  induction ss generalizing d with
  | nil => exact .refl
  | cons s ss ih =>
    rw [List.all_cons, Bool.and_eq_true] at h
    exact .head (.step s h.1) (ih h.2)

theorem run_submit (law : Custody p own F) {r : Request} {source : String}
    (h : Tended p F E ⟨d, gs⟩) (hr : r.all p = true) :
    ∃ gs', Run p ⟨d, gs⟩ ⟨(d.submit r source).1, gs'⟩ := by
  rw [Desk.submit]
  split
  · rename_i hc
    exact ⟨gs, .single (.refusal hc)⟩
  · rename_i d' id hc
    obtain ⟨q, rfl, _⟩ := h.desk.claim law hc
    obtain ⟨gs', hrun⟩ := run_waitForTask (.arrival r hr hc) (j := guest d' r (some q)) rfl
    refine ⟨gs', ?_⟩
    dsimp only
    generalize Desk.waitForTask d' _ = out at hrun ⊢
    obtain ⟨d₁, _ | e⟩ := out
    · exact hrun
    · cases e <;> exact hrun

theorem run_plain {t : Task} (ht : t.isPlain = true) :
    ∃ gs', Run p ⟨d, gs⟩ ⟨(d.waitForTask t).1, gs'⟩ := by
  have hj : Job.isPlain { task := some t } = true := by simpa [Job.isPlain] using ht
  have hs : Happens p ⟨d, gs⟩ ⟨d, gs ++ [{ task := some t }]⟩ := .visit _ hj
  obtain ⟨gs', hrun⟩ := run_waitForTask hs rfl
  refine ⟨gs', ?_⟩
  generalize d.waitForTask t = out at hrun ⊢
  obtain ⟨d₁, _ | e⟩ := out
  · exact hrun
  · cases e <;> exact hrun

/-- Whatever a visitor wants, serving it is a run. -/
theorem run_serve (law : Custody p own F) {v : Visitor} (h : Tended p F E ⟨d, gs⟩)
    (hv : v.submits p = true) :
    ∃ gs', Run p ⟨d, gs⟩ ⟨(d.serve v).1, gs'⟩ := by
  cases v with
  | step s => exact ⟨gs, .single (.step s hv)⟩
  | batch ss => exact ⟨gs, run_performEach ss hv⟩
  | submit r source => exact run_submit law h hv
  | wait name ms =>
    rw [Desk.serve, Desk.withHandle]
    split
    · rename_i i _
      obtain ⟨gs', hrun⟩ := run_plain (t := .await i (ms.map (d.clock + ·))) rfl (d := d)
      refine ⟨gs', ?_⟩
      split
      · rename_i he
        rwa [he] at hrun
      · rename_i he
        rwa [he] at hrun
    · exact ⟨gs, .refl⟩
  | advance ms => exact run_plain rfl
  | run | delegate | send | read | collect => cases hv

theorem run_visit (law : Custody p own F) {v : Visitor} (h : Tended p F E ⟨d, gs⟩)
    (hv : v.submits p = true) :
    ∃ gs', Run p ⟨d, gs⟩ ⟨(d.visit v).1, gs'⟩ := by
  obtain ⟨gs', hrun⟩ := run_serve law h hv
  exact ⟨gs', hrun.trans (run_drain _ _)⟩

def afterVisits (d : Desk) (vs : List Visitor) : Desk := vs.foldl (fun d v => (d.visit v).1) d

theorem run_visits (law : Custody p own F) {vs : List Visitor} (h : Tended p F E ⟨d, gs⟩)
    (hvs : vs.all (·.submits p) = true) :
    ∃ gs', Run p ⟨d, gs⟩ ⟨afterVisits d vs, gs'⟩ := by
  induction vs generalizing d gs E with
  | nil => exact ⟨gs, .refl⟩
  | cons v vs ih =>
    rw [List.all_cons, Bool.and_eq_true] at hvs
    obtain ⟨gs₁, hrun⟩ := run_visit law h hvs.1
    obtain ⟨E₁, _, h₁⟩ := hrun.tended law h
    obtain ⟨gs₂, hrest⟩ := ih h₁ hvs.2
    exact ⟨gs₂, hrun.trans hrest⟩

end Lobby

end PromptDesk
