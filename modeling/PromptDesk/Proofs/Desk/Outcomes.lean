import PromptDesk.Proofs.Desk.Promises
import PromptDesk.Proofs.Desk.Reached

/-! What work in the background comes to. In any order of turns, a handle reports how the work of its
job has ended, and nothing else from then on; and work that plays items ends as the items say. -/
namespace PromptDesk

theorem mem_append_toList {α : Type} {a : α} {l : List α} {x : Option α} :
    a ∈ l ++ x.toList ↔ a ∈ l ∨ a ∈ x := by
  rw [List.mem_append, Option.mem_toList, Option.mem_def]

/-- What playing items comes to: the first fault or panic among them, or else their chunks, joined. -/
def Item.outcome (text : String) : List Item → Except Defeat Product
  | [] => .ok (.text text)
  | .chunk s :: rest => outcome (text ++ s) rest
  | .fail f :: _ => .error (.failed f.message)
  | .panic (.text message) :: _ => .error (.panicked message)
  | .panic .other :: _ => .error (.panicked "unknown panic")
  | .delay _ :: rest | .wait _ :: rest | .hang :: rest | .calls _ :: rest => outcome text rest

/-- What collecting has come to, or what it comes to if it goes on. -/
def Collected.comesTo : Collected → Except Defeat Product
  | .text s => .ok (.text s)
  | .failed f => .error (.failed f.message)
  | .panicked message => .error (.panicked message)
  | .waiting p => Item.outcome p.text p.rest

namespace Desk

/-- What happens at a desk from one moment on, with the jobs that ended meanwhile, in order. Anything
may be done between two turns, also by visitors who wait, and any job may have the next turn. -/
inductive Meanwhile (x : Desk) : List Ended → Desk → Prop
  | start : Meanwhile x [] x
  | deals {l : List Ended} {d d' : Desk} (dealing : Dealing (fun _ => True) d d')
      (run : Meanwhile x l d) : Meanwhile x l d'
  | turns {l : List Ended} {d : Desk} (i : Nat) (run : Meanwhile x l d) :
      Meanwhile x (l ++ (d.ending? i).toList) (d.turnOfJob i)

variable {x d d' : Desk} {l l' : List Ended} {i k : Nat}

namespace Meanwhile

theorem trans (run : Meanwhile x l d) (run' : Meanwhile d l' d') : Meanwhile x (l ++ l') d' := by
  induction run' with
  | start => rwa [List.append_nil]
  | deals dealing _ ih => exact ih.deals dealing
  | turns i _ ih =>
    rw [← List.append_assoc]
    exact ih.turns i

/-- Visitors come and wait meanwhile. -/
theorem closed (x : Desk) : Closed fun d => ∃ l, Meanwhile x l d :=
  ⟨fun hd ⟨l, run⟩ => ⟨l, run.deals hd⟩, fun i ⟨_, run⟩ => ⟨_, run.turns i⟩⟩

theorem visit (run : Meanwhile x l d) (v : Visitor) : ∃ l', Meanwhile x l' (d.visit v).1 :=
  (closed x).visit ⟨l, run⟩ v

theorem dealt (run : Meanwhile x l d) (h : Dealt d d') : Meanwhile x l d' := by
  induction h with
  | refl => exact run
  | tail _ hd ih => exact ih.deals hd

/-- What one thing that happens makes of a fact about the jobs that ended, all of it makes. -/
theorem respects {R : List Ended → Desk → Prop} (hx : x.Promised) (start : R [] x)
    (step : ∀ l d y d', d.Promised → R l d → Advances d y d' → R (l ++ y.toList) d')
    (run : Meanwhile x l d) : d.Promised ∧ R l d := by
  induction run with
  | start => exact ⟨hx, start⟩
  | @deals l d d' dealing _ ih =>
    obtain ⟨hd, hr⟩ := ih
    have ha := (Grows.of_deeds dealing.deeds).advances
    have hstep := step l d none d' hd hr ha
    rw [Option.toList_none, List.append_nil] at hstep
    exact ⟨hd.advances ha, hstep⟩
  | turns i _ ih =>
    obtain ⟨hd, hr⟩ := ih
    have ha := hd.advances_turn i
    exact ⟨hd.advances ha, step _ _ _ _ hd hr ha⟩

theorem promised (hx : x.Promised) (run : Meanwhile x l d) : d.Promised :=
  (run.respects (R := fun _ _ => True) hx trivial fun _ _ _ _ _ _ _ => trivial).1

end Meanwhile

/-! ### Reports -/

theorem Advances.report_stays {y : Option Ended} (h : Advances d y d') {r : Except Defeat Product}
    (hr : (d.handle k).report = some r) : (d'.handle k).report = some r :=
  (h.report k (lt_of_report hr) r).2 (.inl hr)

/-- What was reported stays. -/
theorem Meanwhile.report_stays (hx : x.Promised) (run : Meanwhile x l d) {r : Except Defeat Product}
    (hr : (x.handle k).report = some r) : (d.handle k).report = some r := by
  refine (run.respects (R := fun _ d => (d.handle k).report = some r) hx hr ?_).2
  intro _ _ _ _ _ hr ha
  exact ha.report_stays hr

/-- What is known of the jobs that have ended since no job had begun. -/
structure Accounted (l : List Ended) (d : Desk) : Prop where
  through : ∀ e ∈ l, e.job < d.jobs.length ∧ (d.job e.job).task = none
  once : (l.map Ended.job).Nodup
  reported : ∀ i k, (d.job i).handle = some k → ∀ r, (d.handle k).report = some r ↔
    ∃ e ∈ l, e.job = i ∧ e.ending.report = r

theorem Accounted.advances {y : Option Ended} (hd : d.Promised) (h : Accounted l d)
    (ha : Advances d y d') : Accounted (l ++ y.toList) d' where
  through e he := by
    have hjobs := ha.jobs
    rcases mem_append_toList.1 he with he | he
    · obtain ⟨hlt, hnone⟩ := h.through e he
      exact ⟨by omega, (ha.through e.job hlt).2 (.inl hnone)⟩
    · have hlt := lt_of_task (ha.ended e he).1
      exact ⟨by omega, (ha.through e.job hlt).2 (.inr ⟨e, he, rfl⟩)⟩
  once := by
    rw [List.map_append, List.nodup_append]
    refine ⟨h.once, ?_, ?_⟩
    · cases y <;> simp
    · intro i hi j hj hij
      obtain ⟨e, he, rfl⟩ := List.mem_map.1 hi
      obtain ⟨e', he', rfl⟩ := List.mem_map.1 hj
      have htask := (ha.ended e' (Option.mem_toList.1 he')).1
      rw [← hij, (h.through e he).2] at htask
      cases htask
  reported i k hk r := by
    by_cases hi : i < d.jobs.length
    · rw [ha.assigned i hi] at hk
      rw [ha.report k (hd.bound i k hk) r, h.reported i k hk r]
      constructor
      · rintro (⟨e, he, hei, her⟩ | ⟨e, he, hek, her⟩)
        · exact ⟨e, mem_append_toList.2 (.inl he), hei, her⟩
        · exact ⟨e, mem_append_toList.2 (.inr he), hd.apart e.job i k hek hk, her⟩
      · rintro ⟨e, he, rfl, her⟩
        rcases mem_append_toList.1 he with he | he
        · exact .inl ⟨e, he, rfl, her⟩
        · exact .inr ⟨e, he, hk, her⟩
    · have hi := Nat.le_of_not_lt hi
      rw [(ha.fresh i k hi hk).2.2]
      refine iff_of_false (Option.some_ne_none r).symm ?_
      -- a job that ends was there before
      rintro ⟨e, he, rfl, _⟩
      rcases mem_append_toList.1 he with he | he
      · have := (h.through e he).1
        omega
      · have := lt_of_task (ha.ended e he).1
        omega

theorem Meanwhile.accounted (hx : x.jobs = []) (run : Meanwhile x l d) :
    d.Promised ∧ Accounted l d := by
  refine run.respects (.fresh hx) ⟨by simp, by simp, ?_⟩ fun _ _ _ _ hd h ha => h.advances hd ha
  intro i k hk
  rw [job_of_le (by simp [hx])] at hk
  cases hk

/-- What all turns of a task make of it, its job makes of it, and how it ends. -/
theorem Meanwhile.task_stays (Good : Task → Prop) (Ends : Ending → Prop) (hx : x.Promised)
    (hturn : ∀ (d : Desk) (t : Task), Good t →
      (∀ t', (d.turn t).2 = .waiting t' → Good t') ∧ ∀ e, (d.turn t).2 = .ended e → Ends e)
    (run : Meanwhile x l d) (hi : i < x.jobs.length) (h : ∀ t, (x.job i).task = some t → Good t) :
    (∀ t, (d.job i).task = some t → Good t) ∧
      ∀ e ∈ l, e.job = i → Good e.task ∧ Ends e.ending := by
  have hall := run.respects (R := fun l d => i < d.jobs.length ∧
    (∀ t, (d.job i).task = some t → Good t) ∧
      ∀ e ∈ l, e.job = i → Good e.task ∧ Ends e.ending) hx ⟨hi, h, by simp⟩
  refine (hall ?_).2.2
  rintro l d y d' - ⟨hi, hgood, hends⟩ ha
  refine ⟨Nat.lt_of_lt_of_le hi ha.jobs, ?_, ?_⟩
  · intro t' ht'
    rcases ha.left i hi t' ht' with ht | ⟨t, ht, hw⟩
    · exact hgood t' ht
    · exact (hturn _ t (hgood t ht)).1 t' hw
  · rintro e he rfl
    rcases mem_append_toList.1 he with he | he
    · exact hends e he rfl
    · obtain ⟨ht, he⟩ := ha.ended e he
      have hg := hgood e.task ht
      exact ⟨hg, (hturn _ e.task hg).2 e.ending he⟩

/-! ### Items played in the background -/

/-- Whether collecting goes on or is over, it comes to what the items come to. -/
theorem collectItems_comesTo (items : List Item) (text : String) (d : Desk) :
    (collectItems items text d).2.comesTo = Item.outcome text items := by
  induction items generalizing text d with
  | nil => rfl
  | cons item rest ih =>
    cases item with
    | chunk s => exact ih (text ++ s) d
    | fail f => rfl
    | panic payload => cases payload <;> rfl
    | calls calls => exact ih text (performAll calls d)
    | delay ms | wait name | hang =>
      rw [collectItems]
      · split
        · rfl
        · exact ih text d
      all_goals simp

theorem collect_comesTo (d : Desk) (p : Playback) :
    (d.collect p).2.comesTo = Item.outcome p.text p.rest := by
  rw [collect]
  split
  · exact collectItems_comesTo p.rest p.text d
  · rfl

/-- Work without a limit that plays items which come to an outcome. -/
def PlaysTo (out : Except Defeat Product) (t : Task) : Prop :=
  ∃ p : Playback, t = .collect none p ∧ Item.outcome p.text p.rest = out

/-- It still does when it has to wait, and ends with that outcome. -/
theorem PlaysTo.turn {out : Except Defeat Product} {t : Task} (h : PlaysTo out t) (d : Desk) :
    (∀ t', (d.turn t).2 = .waiting t' → PlaysTo out t') ∧
      ∀ e, (d.turn t).2 = .ended e → e.report = out := by
  obtain ⟨p, rfl, hp⟩ := h
  have hc := d.collect_comesTo p
  rw [hp] at hc
  simp only [Desk.turn, collectWithin]
  generalize d.collect p = c at hc ⊢
  obtain ⟨d₁, c⟩ := c
  cases c with
  | waiting p' =>
    simp only [Turn.waiting.injEq, reduceCtorEq]
    refine ⟨?_, by simp⟩
    rintro _ rfl
    exact ⟨p', rfl, hc⟩
  | text | failed | panicked =>
    simp only [Turn.ended.injEq, reduceCtorEq]
    refine ⟨by simp, ?_⟩
    rintro _ rfl
    exact hc

/-- A job keeps its handle, and it is through once it has ended. -/
theorem Meanwhile.job_stays (hx : x.Promised) (run : Meanwhile x l d) (hi : i < x.jobs.length) :
    i < d.jobs.length ∧ (d.job i).handle = (x.job i).handle ∧
      ((d.job i).task = none ↔ (x.job i).task = none ∨ ∃ e ∈ l, e.job = i) := by
  refine (run.respects (R := fun l d => i < d.jobs.length ∧ (d.job i).handle = (x.job i).handle ∧
    ((d.job i).task = none ↔ (x.job i).task = none ∨ ∃ e ∈ l, e.job = i)) hx ⟨hi, rfl, by simp⟩ ?_).2
  rintro l d y d' - ⟨hi, hhandle, htask⟩ ha
  refine ⟨Nat.lt_of_lt_of_le hi ha.jobs, (ha.assigned i hi).trans hhandle, ?_⟩
  rw [ha.through i hi, htask, or_assoc]
  simp only [mem_append_toList, or_and_right, exists_or]

/-- A handle to dispatched work reports what its items come to, once its job has ended. -/
theorem Meanwhile.dispatched (hx : x.jobs = []) (run : Meanwhile x l d) {items : List Item}
    {id : Option String} {under : String}
    (run' : Meanwhile ((Step.dispatch items id under).perform d).1 l' d') (r : Except Defeat Product) :
    (d'.handle d.handles.length).report = some r ↔
      (∃ e ∈ l', e.job = d.jobs.length) ∧ r = Item.outcome "" items := by
  have hrun := run.dealt (dealt_perform d (.dispatch items id under))
  have hd₁ := hrun.promised (.fresh hx)
  have hacc := (run.accounted hx).2
  have hacc' := ((hrun.trans run').accounted hx).2
  generalize hd : ((Step.dispatch items id under).perform d).1 = d₁ at run' hd₁
  let j : Job := ⟨some (.collect none { rest := items }), some d.handles.length, none⟩
  have hjobs : d₁.jobs = d.jobs ++ [j] := by
    rw [← hd]
    rfl
  have hjob : d₁.job d.jobs.length = j := by
    rw [job_append hjobs (Nat.le_refl _), if_pos rfl]
  have hlt : d.jobs.length < d₁.jobs.length := by simp [hjobs]
  have hhandle := (run'.job_stays hd₁ hlt).2.1
  rw [hjob] at hhandle
  have hends : ∀ e ∈ l', e.job = d.jobs.length → e.ending.report = Item.outcome "" items := by
    intro e he hej
    refine ((run'.task_stays (PlaysTo (Item.outcome "" items))
      (fun e => e.report = Item.outcome "" items) hd₁ (fun d t ht => ht.turn d) hlt ?_).2 e he hej).2
    intro t ht
    rw [hjob] at ht
    cases ht
    exact ⟨_, rfl, rfl⟩
  rw [hacc'.reported _ _ hhandle r]
  constructor
  · rintro ⟨e, he, hej, rfl⟩
    rcases List.mem_append.1 he with he | he
    · have := (hacc.through e he).1
      omega
    · exact ⟨⟨e, he, hej⟩, hends e he hej⟩
  · rintro ⟨⟨e, he, hej⟩, rfl⟩
    exact ⟨e, List.mem_append_right _ he, hej, hends e he hej⟩

end Desk

end PromptDesk
