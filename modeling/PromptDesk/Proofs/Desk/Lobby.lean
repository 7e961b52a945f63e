import PromptDesk.Proofs.Desk.Turns
import PromptDesk.Scenario

/-! Visitors who wait at a desk. They submit requests and wait for them, jobs have their turns in any
order, and whoever is asked back may submit as well. Whatever of this happens, the requests in
custody are tended to. -/
namespace PromptDesk

/-- A desk and the visitors who wait at it. What a visitor waits for is kept like a job. -/
structure Lobby where
  desk : Desk
  guests : List Job := []

namespace Lobby

def claimed (x : Lobby) : List String := x.guests.flatMap fun j => j.claim?.toList

/-- A guest who was admitted and waits for a request. -/
def guest (d : Desk) (r : Request) (id : Option String) : Job where
  task := some (.request (r.claimed id)
    (if d.setup.delegates then .delegate (r.claimed id) true else .conclude))
  owner := id

def turnOfGuest (x : Lobby) (i : Nat) : Lobby :=
  let j := x.guests.getD i default
  match j.task with
  | none => x
  | some t =>
    match x.desk.turn t with
    | (d, .waiting t) => ⟨d, x.guests.set i { j with task := some t }⟩
    | (d, .ended e) => ⟨d.settle j e, x.guests.set i { j with task := none }⟩

/-- What may happen at a desk where everybody makes permitted steps only. -/
inductive Happens (p : Step → Bool) : Lobby → Lobby → Prop
  /-- Somebody makes a step, which may be a submission to the background. -/
  | step {d : Desk} {gs : List Job} (s : Step) (hs : s.all p = true) :
      Happens p ⟨d, gs⟩ ⟨(s.perform d).1, gs⟩
  /-- A visitor submits a request to wait for it. -/
  | arrival {d d' : Desk} {gs : List Job} {source : String} {id : Option String} (r : Request)
      (hr : r.all p = true) (hc : d.claim source = (d', .allowed id)) :
      Happens p ⟨d, gs⟩ ⟨d', gs ++ [guest d' r id]⟩
  | refusal {d d' : Desk} {gs : List Job} {source message : String} {reason : DropReason}
      (hc : d.claim source = (d', .rejected reason message)) : Happens p ⟨d, gs⟩ ⟨d', gs⟩
  /-- A visitor waits for something that concerns no request. -/
  | visit {d : Desk} {gs : List Job} (j : Job) (hj : j.isPlain = true) :
      Happens p ⟨d, gs⟩ ⟨d, gs ++ [j]⟩
  | guest (x : Lobby) (i : Nat) : Happens p x (x.turnOfGuest i)
  /-- Any job has a turn, whoever stands in the queue. -/
  | job {d : Desk} {gs : List Job} (i : Nat) : Happens p ⟨d, gs⟩ ⟨d.turnOfJob i, gs⟩
  /-- Time passes, or something else comes that requests do not depend on. -/
  | quiet {d d' : Desk} {gs : List Job} (hq : d.Quiet d') : Happens p ⟨d, gs⟩ ⟨d', gs⟩

abbrev Run (p : Step → Bool) : Lobby → Lobby → Prop := Relation.ReflTransGen (Happens p)

/-- The requests in custody are tended to, also those that guests wait for. -/
structure Tended (p : Step → Bool) (F : List String → List String → Desk → Prop)
    (executing : List String) (x : Lobby) : Prop where
  desk : x.desk.Tended p F x.claimed executing
  guests : ∀ j ∈ x.guests, j.IsProper p executing

variable {p q : Step → Bool} {own : Option String} {F : List String → List String → Desk → Prop}
variable {E E' : List String} {x y : Lobby}

/-- What happens where fewer steps are permitted happens where more are. -/
theorem run_mono (h : ∀ s, p s = true → q s = true) (run : Run p x y) : Run q x y := by
  refine Relation.ReflTransGen.mono (fun _ _ hs => ?_) _ _ run
  cases hs with
  | step s hs => exact .step s (Step.all_mono h s hs)
  | arrival r hr hc => exact .arrival r (Request.all_mono h r hr) hc
  | refusal hc => exact .refusal hc
  | visit j hj => exact .visit j hj
  | guest _ i => exact .guest _ i
  | job i => exact .job i
  | quiet hq => exact .quiet hq

theorem guest_isProper (d : Desk) {r : Request} (hr : r.all p = true) (q : String)
    (E : List String) :
    (guest d r (some q)).IsProper p E ∧ (guest d r (some q)).claim? = some q := by
  have hid : (r.claimed (some q)).id = some q := by
    cases r
    rfl
  have hall : (r.claimed (some q)).all p = true := by rwa [Request.all_claimed]
  refine ⟨⟨?_, fun t id ht ho => ?_⟩, hid⟩
  · rintro _ ⟨⟩
    refine ⟨?_, ?_, by simp [Task.Holds, hid]⟩
    · rw [Task.all, hall]
      split <;> simp [Sequel.all, hall]
    · rw [Task.isGated]
      split <;> rfl
  · cases ht
    exact .inr (hid.trans ho)

section

variable (law : Custody p own F)
include law

theorem Tended.sit {d : Desk} {gs : List Job} {j : Job}
    (hd : d.Tended p F (j.claim?.toList ++ Lobby.claimed ⟨d, gs⟩) E)
    (hg : ∀ j ∈ gs, j.IsProper p E) (hj : j.IsProper p E) : Tended p F E ⟨d, gs ++ [j]⟩ where
  desk := by
    refine hd.of_perm law ?_
    simp only [claimed, List.flatMap_append, List.flatMap_singleton]
    exact List.perm_append_comm
  guests k hk := by
    rcases List.mem_append.1 hk with hk | hk
    · exact hg k hk
    · rwa [List.mem_singleton.1 hk]

theorem Tended.turnOfGuest (h : x.Tended p F E) (i : Nat) :
    ∃ E', E ⊆ E' ∧ (x.turnOfGuest i).Tended p F E' := by
  rw [Lobby.turnOfGuest]
  generalize hj : x.guests.getD i default = j
  cases ht : j.task with
  | none => exact ⟨E, List.Subset.refl E, h⟩
  | some t =>
    have hi : x.guests[i]? = some j := hj ▸ Desk.getElem?_of_task (hj ▸ ht)
    obtain ⟨htask, howner⟩ := h.guests j (List.mem_of_getElem? hi)
    let rest := x.guests.set i { j with task := none }
    have htake := Desk.claims_take hi (j := { j with task := none }) rfl
    rw [Job.claim?_of_task ht] at htake
    obtain ⟨E', he, hcl, hd, hturn⟩ := (h.desk.of_perm law htake).turn law (htask t ht)
    have ho : ∀ id, j.owner = some id → id ∈ E' := fun id hid =>
      (howner t id ht hid).elim (fun hm => he hm) (hcl id)
    refine ⟨E', he, ?_⟩
    have hothers : ∀ k ∈ x.guests, k.IsProper p E' := fun k hk => (h.guests k hk).mono he
    dsimp only
    generalize x.desk.turn t = out at hd hturn ⊢
    obtain ⟨d, t' | e⟩ := out
    · refine ⟨hd.of_subperm law ?_, fun k hk => ?_⟩
      · have hset := Desk.claims_set rest i { j with task := some t' }
        rw [List.set_set, show Job.claim? { j with task := some t' } = none from hturn.2] at hset
        exact hset
      · rcases List.mem_or_eq_of_mem_set hk with hk | rfl
        · exact hothers k hk
        · refine ⟨?_, fun _ id _ hid => .inl (ho id hid)⟩
          rintro _ ⟨⟩
          exact hturn.1
    · refine ⟨hd.settle law ho e, fun k hk => ?_⟩
      rcases List.mem_or_eq_of_mem_set hk with hk | rfl
      · exact hothers k hk
      · exact Job.isProper_of_task rfl

theorem Happens.tended (hs : Happens p x y) (h : x.Tended p F E) :
    ∃ E', E ⊆ E' ∧ y.Tended p F E' := by
  cases hs with
  | step s hs =>
    obtain ⟨E', he, h'⟩ := law.conduct.manner.perform s _ hs _ _ h.desk
    exact ⟨E', he, h', fun j hj => (h.guests j hj).mono he⟩
  | arrival r hr hc =>
    obtain ⟨q, rfl, h'⟩ := h.desk.claim law hc
    obtain ⟨hg, hcl⟩ := guest_isProper _ hr q E
    exact ⟨E, List.Subset.refl E, .sit law (by rwa [hcl]) h.guests hg⟩
  | refusal hc =>
    exact ⟨E, List.Subset.refl E, h.desk.quiet law (Desk.claim_rejected hc), h.guests⟩
  | visit j hj =>
    refine ⟨E, List.Subset.refl E, .sit law ?_ h.guests (Job.isProper_of_isPlain hj)⟩
    rw [Job.claim?_of_isPlain hj]
    exact h.desk
  | guest _ i => exact h.turnOfGuest law i
  | job i =>
    obtain ⟨E', he, h'⟩ := h.desk.turnOfJob law i
    exact ⟨E', he, h', fun j hj => (h.guests j hj).mono he⟩
  | quiet hq => exact ⟨E, List.Subset.refl E, h.desk.quiet law hq, h.guests⟩

/-- Whatever happens, the requests in custody are tended to. -/
theorem Run.tended (hr : Run p x y) (h : x.Tended p F E) : ∃ E', E ⊆ E' ∧ y.Tended p F E' := by
  induction hr with
  | refl => exact ⟨E, List.Subset.refl E, h⟩
  | tail _ hs ih =>
    obtain ⟨E₁, he₁, h₁⟩ := ih
    obtain ⟨E₂, he₂, h₂⟩ := hs.tended law h₁
    exact ⟨E₂, List.Subset.trans he₁ he₂, h₂⟩

end

/-- At a desk that nobody has visited yet nothing is in custody. -/
theorem tended_opened {setup : Setup} {replies : List Reply} {reporting : Bool}
    (hF : F [] [] (Desk.opened setup replies reporting))
    (hb : (Desk.opened setup replies reporting).Behaves p) :
    Tended p F [] ⟨Desk.opened setup replies reporting, []⟩ where
  desk := ⟨by simp [Desk.Labelled, Desk.opened], hb, hF, by simp [Desk.opened]⟩
  guests := by simp

end Lobby

end PromptDesk
