import PromptDesk.Proofs.Board.Steady
import PromptDesk.Proofs.Desk.Replayed
import PromptDesk.Scenario

/-! The states that a desk comes to. Everything that is done at a desk is done in dealings, so the
states between two of them are all those in which anybody, a callback in the middle of a turn as well
as a visitor, may find the desk. -/
namespace PromptDesk

/-- What is left to do is to call a presenter. -/
def Turn.isPresenter : Turn → Bool
  | waiting t => t.isPresenter
  | ended _ => false

namespace Desk

theorem isPresenter_proceedToResult (d : Desk) (destination : Destination) (p : Progress) :
    (d.proceedToResult destination p).2.isPresenter = false := by
  cases p <;> rfl

theorem isPresenter_runLast (d : Desk) (r : Request) : (d.runLast r).2.isPresenter = false := by
  rw [runLast]
  split
  · rfl
  · exact isPresenter_proceedToResult ..

theorem isPresenter_follow (d : Desk) (r : Request) (gated : Bool) (result : PromptResult) :
    (d.follow r gated result).2.isPresenter = false := by
  rw [follow]
  split
  · rfl
  split
  · rfl
  split
  · rfl
  · exact isPresenter_runLast ..

theorem isPresenter_proceed (d : Desk) (destination : Destination) (sequel : Sequel) (p : Progress) :
    (d.proceed destination sequel p).2.isPresenter = false := by
  cases p with
  | waiting e | panicked message => cases sequel <;> rfl
  | ended r =>
    cases sequel with
    | respond => rfl
    | conclude => exact isPresenter_proceedToResult ..
    | delegate request gated => exact isPresenter_follow ..

/-- No other work turns into the call of a presenter. -/
theorem isPresenter_turn (d : Desk) {t : Task} (h : t.isPresenter = false) :
    (d.turn t).2.isPresenter = false := by
  cases t with
  | request r sequel =>
    rw [turn]
    split
    · rfl
    · exact isPresenter_proceed ..
  | execution e sequel => exact isPresenter_proceed ..
  | collect limit p | read r =>
    rw [turn]
    split <;> rfl
  | await handle limit =>
    rw [turn]
    split
    · rfl
    · split <;> rfl
  | sleep due =>
    rw [turn]
    split <;> rfl
  | present handle quiet => cases h
  | exports interval due =>
    simp only [turn]
    split
    · rfl
    split
    · rfl
    split
    · rfl
    · split <;> rfl

/-! ### What visits keep -/

variable {d d' : Desk}

/-- Something is kept by everything that is done at a desk, and by the turns of jobs. -/
structure Closed (P : Desk → Prop) : Prop where
  deals : ∀ {d d' : Desk}, Dealing (fun _ => True) d d' → P d → P d'
  turns : ∀ {d : Desk} (i : Nat), P d → P (d.turnOfJob i)

namespace Closed

variable {P : Desk → Prop} (hP : Closed P)
include hP

theorem dealt (h : P d) (hd : Dealt d d') : P d' := by
  induction hd with
  | refl => exact h
  | tail _ hd ih => exact hP.deals hd ih

theorem perform (h : P d) (s : Step) : P (s.perform d).1 := hP.dealt h (dealt_perform d s)

theorem performEach (h : P d) (ss : List Step) : P (d.performEach ss).1 := by
  induction ss generalizing d with
  | nil => exact h
  | cons s ss ih => exact ih (hP.perform h s)

theorem drain (h : P d) (fuel : Nat) : P (d.drain fuel) := by
  induction fuel generalizing d with
  | zero => exact h
  | succ fuel ih =>
    rw [Desk.drain]
    split
    · exact h
    · rename_i i rest _
      have ha : d.Aside { d with queue := rest } := ⟨rfl, rfl, rfl, rfl, rfl, rfl, rfl, rfl, rfl, rfl⟩
      exact ih (hP.turns i (hP.deals (.aside ha) h))

theorem waitFor {interests : List Interest} {fuel : Nat} (h : P d)
    (hw : Desk.waitFor interests fuel d = some d') : P d' := by
  induction fuel generalizing d with
  | zero => cases hw
  | succ fuel ih =>
    rw [Desk.waitFor] at hw
    split at hw
    · cases hw
      exact h
    · split at hw
      · exact ih (hP.drain h _) hw
      · obtain ⟨d₁, ht, hw⟩ := Option.bind_eq_some_iff.1 hw
        obtain ⟨t, _, rfl⟩ := Option.map_eq_some_iff.1 ht
        have ha : d.Aside (rouse { d with clock := t }) :=
          ⟨rfl, rfl, rfl, rfl, rfl, rfl, rfl, rfl, rfl, rfl⟩
        exact ih (hP.deals (.aside ha) h) hw

theorem finishTask (h : P d) (fuel : Nat) {t : Task} (ht : t.isPresenter = false) :
    P (Desk.finishTask fuel t d).1 := by
  induction fuel generalizing d t with
  | zero => exact h
  | succ fuel ih =>
    have hd := hP.dealt h (dealt_turn d ht)
    have hn := isPresenter_turn d ht
    rw [Desk.finishTask]
    generalize d.turn t = out at hd hn ⊢
    obtain ⟨d₁, t' | e⟩ := out
    · dsimp only at hd ⊢
      split
      · exact ih (hP.waitFor (hP.drain hd _) ‹_›) hn
      · exact hd
    · exact hd

theorem answerTask (h : P d) {t : Task} (ht : t.isPresenter = false) : P (d.answerTask t).1 :=
  hP.finishTask h turnLimit ht

theorem submit (h : P d) (r : Request) (source : String) : P (d.submit r source).1 := by
  have hc := hP.dealt h (dealt_claim d source)
  rw [Desk.submit]
  generalize d.claim source = out at hc ⊢
  obtain ⟨d₁, id | ⟨reason, message⟩⟩ := out
  · dsimp only at hc ⊢
    have ht := hP.finishTask hc turnLimit (t := .request (r.claimed id)
      (if d₁.setup.delegates then .delegate (r.claimed id) true else .conclude)) rfl
    rw [waitForTask]
    generalize Desk.finishTask turnLimit _ d₁ = out at ht ⊢
    obtain ⟨d₂, e⟩ := out
    split
    · rename_i he
      cases he
      exact hP.dealt ht (dealings_giveBack ..)
    · rename_i he
      cases he
      exact ht
  · exact hc

theorem sendNamed (h : P d) (name : String) : P (d.sendNamed name).1 := by
  rw [Desk.sendNamed, withDraft]
  split
  · rename_i draft _
    have he := hP.dealt h (dealings_enter d draft)
    dsimp only
    split
    · rename_i heq
      rw [heq] at he
      exact hP.answerTask (hP.deals (.aside (aside_names _ _)) he) rfl
    · rename_i heq
      rw [heq] at he
      exact hP.deals (.forgoes ..) (hP.deals (.aside (aside_names _ _)) he)
  · exact h

theorem readInto (h : P d) (items : List Item) (idle : Option Nat) (attempt : Option String)
    (token : Option Nat) : P (d.readInto items idle attempt token).1 := by
  rw [Desk.readInto]
  split
  · exact h
  · exact hP.answerTask h rfl

theorem serve (h : P d) (v : Visitor) : P (d.serve v).1 := by
  cases v with
  | step s => exact hP.perform h s
  | batch ss => exact hP.performEach h ss
  | submit r source => exact hP.submit h r source
  | run r | delegate r gated | advance ms | collect ms items => exact hP.answerTask h rfl
  | send name => exact hP.sendNamed h name
  | wait name ms =>
    rw [Desk.serve, withHandle]
    split
    · rename_i i _
      have ht := hP.finishTask h turnLimit (t := .await i (ms.map (d.clock + ·))) rfl
      rw [waitForTask]
      split
      · rename_i he
        rwa [he] at ht
      · rename_i he
        rwa [he] at ht
    · exact h
  | read items idle attempt token =>
    cases token with
    | none => exact hP.readInto h ..
    | some name =>
      rw [Desk.serve]
      split
      · exact hP.readInto h ..
      · exact h

/-- Whatever a visitor wants. -/
theorem visit (h : P d) (v : Visitor) : P (d.visit v).1 := hP.drain (hP.serve h v) _

end Closed

/-- A state that a desk has come to since it was opened. -/
inductive Reached : Desk → Prop
  | opens (setup : Setup) (replies : List Reply) (reporting : Bool) :
      Reached (.opened setup replies reporting)
  | deals {d d' : Desk} (dealing : Dealing (fun _ => True) d d') (reached : Reached d) : Reached d'
  /-- A presenter is told what work has come to. -/
  | presents {d : Desk} {e : Effect} (h : e.presentation?.isSome = true) (reached : Reached d) :
      Reached (d.write e)
  /-- The clock moves, and work in the background comes and goes. -/
  | waits {d d' : Desk} (backstage : d.Backstage d') (reached : Reached d) : Reached d'

namespace Reached

theorem dealt (h : d.Reached) (hd : Dealt d d') : d'.Reached := by
  induction hd with
  | refl => exact h
  | tail _ hd ih => exact ih.deals hd

theorem turnOfJob (h : d.Reached) (i : Nat) : (d.turnOfJob i).Reached :=
  respected_turnOfJob (R := fun d d' => d.Reached → d'.Reached) (fun _ => id) (fun h h' => h' ∘ h)
    (fun hd h => h.dealt hd) (fun he h => h.presents he) (fun hb h => h.waits hb) d i h

theorem closed : Closed Reached := ⟨fun hd h => h.deals hd, fun i h => h.turnOfJob i⟩

/-- Whatever visitors want, desks that were visited are in states that desks come to. -/
theorem visit (h : d.Reached) (v : Visitor) : (d.visit v).1.Reached := closed.visit h v

theorem told (h : d.Reached) : d.Told := by
  induction h with
  | opens setup replies reporting => exact ⟨rfl, .fresh⟩
  | deals dealing _ ih => exact ih.dealing dealing
  | presents he _ ih => exact ih.presents he
  | waits backstage _ ih =>
    refine ih.of_eq backstage.board ?_
    rw [reported, backstage.journal, reported]

end Reached

theorem Dealing.steady {ok : Board.Use → Prop} (h : Dealing ok d d') (hs : d.board.Steady) :
    d'.board.Steady := by
  -- what is reported leaves the board
  have sent : ∀ {b : Board}, b.Steady → Board.Steady { b with outbox := [] } := fun h =>
    h.of_lasts (.of_eq (Nat.le_refl _) rfl rfl)
  cases h with
  | use u h => exact sent (hs.use u)
  | begins id axes =>
    have hb := sent (hs.beginOwned id d.slot.state)
    simp only [beginAttempt]
    split
    · split
      · exact hb
      · exact sent (hb.of_lasts (.setAxes ..))
    · exact hb
  | forgoes id => exact sent ((sent (hs.begin id)).of_lasts (.note ..))
  | adds l id display reports retired h =>
    have hl : Board.Steady { d.board with displays := l } := hs.of_lasts (.of_eq h rfl rfl)
    exact sent (hl.of_lasts (.add ..))
  | displays l h => exact sent (hs.of_lasts (.of_eq h rfl rfl))
  | exports =>
    simp only [exportCounts]
    split <;> exact hs
  | slot | refuses | takes | stops | spawns | dispatches | settles => exact hs
  | aside ha => rwa [ha.board]

theorem Reached.steady (h : d.Reached) : d.board.Steady := by
  induction h with
  | opens setup replies reporting => exact .fresh reporting
  | deals dealing _ ih => exact dealing.steady ih
  | presents _ _ ih => exact ih
  | waits backstage _ ih => rwa [backstage.board]

end Desk

end PromptDesk
