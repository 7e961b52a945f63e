import PromptDesk.Proofs.Desk.Outcomes

/-! How outcomes of work in the background are delivered. Whoever waits for a handle goes on only when
it reports; whoever is to present its outcome is called once, and told what it reports. -/
namespace PromptDesk

/-- The handle without whose report a task does not end. -/
def Task.awaited? : Task → Option Nat
  | present k _ | await k none => some k
  | _ => none

namespace Desk

/-- What a presenter is told if it has a turn, as far as that is seen. A quiet one shows nothing of a
defeat. -/
def told? (d : Desk) : Task → Option (Except Defeat Product)
  | .present k quiet => (d.handle k).report.filter fun r => !quiet || r.toBool
  | _ => none

variable {x d d' : Desk} {l l' : List Ended} {i k : Nat} {t : Task} {e : Ending}

theorem told?_of_isPresenter_eq_false (d : Desk) (h : t.isPresenter = false) : d.told? t = none := by
  cases t with
  | present k quiet => cases h
  | _ => rfl

/-! ### Waiting for a handle -/

theorem turn_await (d : Desk) (k : Nat) : d.turn (.await k none) =
    (d, if (d.handle k).report.isSome then .ended (.success (.resolved true))
      else .waiting (.await k none)) := by
  simp only [turn, Option.any_none]
  split <;> rfl

theorem turn_present (d : Desk) (k : Nat) (quiet : Bool) : (d.turn (.present k quiet)).2 =
    if (d.handle k).report.isSome then .ended (.success .nothing) else .waiting (.present k quiet) := by
  rw [turn]
  split
  all_goals
    rename_i h
    rw [h]
    rfl

theorem report_of_ended (h : t.awaited? = some k) (he : (d.turn t).2 = .ended e) :
    (d.handle k).report.isSome = true := by
  by_contra hr
  cases t with
  | present k' quiet =>
    obtain rfl := Option.some.inj h
    rw [turn_present, if_neg hr] at he
    cases he
  | await k' limit =>
    cases limit with
    | none =>
      obtain rfl := Option.some.inj h
      rw [turn_await, if_neg hr] at he
      cases he
    | some limit => cases h
  | _ => cases h

/-- Whoever waits in the foreground goes on when the handle reports. -/
theorem finishTask_await {fuel : Nat} (h : finishTask fuel (.await k none) d = (d', some e)) :
    (d'.handle k).report.isSome = true ∧ e = .success (.resolved true) := by
  induction fuel generalizing d with
  | zero => cases h
  | succ fuel ih =>
    rw [finishTask, turn_await] at h
    by_cases hr : (d.handle k).report.isSome = true
    · rw [if_pos hr] at h
      cases h
      exact ⟨hr, rfl⟩
    · rw [if_neg hr] at h
      dsimp only at h
      split at h
      · exact ih h
      · cases h

theorem serve_wait {name : String} (h : d.names.handles.find? name = some k) {a : Answer}
    (hs : d.serve (.wait name none) = (d', a)) :
    a = .stuck ∨ a = .resolved true (d'.handle k) ∧ (d'.handle k).report.isSome = true := by
  simp only [serve, withHandle, h, waitForTask, Option.map_none] at hs
  generalize hf : finishTask turnLimit (.await k none) d = out at hs
  obtain ⟨d₁, _ | e⟩ := out
  · cases hs
    exact .inl rfl
  · obtain ⟨hr, rfl⟩ := finishTask_await hf
    cases hs
    exact .inr ⟨rfl, hr⟩

theorem Advances.awaited {y : Option Ended} (h : Advances d y d') {e : Ended} (he : e ∈ y)
    (hk : e.task.awaited? = some k) : ∃ r, (d.handle k).report = some r :=
  Option.isSome_iff_exists.1 (report_of_ended (d := d.atWork e.job) hk (h.ended e he).2)

/-- Work that has ended had the report that it waited for. -/
theorem Meanwhile.awaited (hx : x.Promised) (run : Meanwhile x l d) :
    ∀ e ∈ l, ∀ k, e.task.awaited? = some k → ∃ r, (d.handle k).report = some r := by
  refine (run.respects (R := fun l d =>
    ∀ e ∈ l, ∀ k, e.task.awaited? = some k → ∃ r, (d.handle k).report = some r) hx (by simp) ?_).2
  rintro l d y d' - h ha e he k hk
  rcases mem_append_toList.1 he with he | he
  · obtain ⟨r, hr⟩ := h e he k hk
    exact ⟨r, ha.report_stays hr⟩
  · obtain ⟨r, hr⟩ := ha.awaited he hk
    exact ⟨r, ha.report_stays hr⟩

/-! ### Presenters -/

@[simp] theorem presented_withBoard (d : Desk) (b : Board) : (d.withBoard b).presented = d.presented :=
  filterMap_withBoard (fun _ => rfl) d b

theorem Dealing.presented_eq {ok : Board.Use → Prop} (h : Dealing ok d d') :
    d'.presented = d.presented := by
  cases h with
  | use | adds | displays => exact presented_withBoard ..
  | begins id axes =>
    simp only [beginAttempt]
    split
    · split <;> simp
    · simp
  | forgoes id => simp [cancelledBeforeStart, note]
  | exports =>
    simp only [exportCounts]
    split <;> rfl
  | slot | refuses | takes | stops | spawns | dispatches | settles => rfl
  | aside ha => exact ha.presented

theorem presented_of_dealt (h : Dealt d d') : d'.presented = d.presented := by
  induction h with
  | refl => rfl
  | tail _ hd ih => exact hd.presented_eq.trans ih

theorem presented_turn (d : Desk) (t : Task) :
    (d.turn t).1.presented = (d.told? t).toList ++ d.presented := by
  cases h : t.isPresenter with
  | false =>
    rw [told?_of_isPresenter_eq_false d h]
    exact presented_of_dealt (dealt_turn d h)
  | true =>
    cases t with
    | present k quiet =>
      rw [turn, told?]
      cases (d.handle k).report with
      | none => rfl
      | some r =>
        cases r with
        | ok p => simp [presented, write, Effect.presentation?, Except.toBool, Option.filter_some]
        | error defeat =>
          cases quiet <;> simp [presented, write, Effect.presentation?, Except.toBool, Option.filter_some]
    | _ => cases h

/-- A presenter that has to wait is told nothing. -/
theorem told?_of_waiting {t' : Task} (h : (d.turn t).2 = .waiting t') : d.told? t = none := by
  cases t with
  | present k quiet =>
    rw [turn_present] at h
    split at h
    · cases h
    · rename_i hr
      rw [told?, Option.not_isSome_iff_eq_none.1 hr]
      rfl
  | _ => rfl

theorem presented_resolve (d : Desk) (k : Nat) (r : Except Defeat Product) :
    (d.resolve k r).presented = d.presented := by
  rw [resolve]
  split <;> rfl

theorem presented_settle (d : Desk) (j : Job) (e : Ending) : (d.settle j e).presented = d.presented := by
  rw [settle_eq, ← presented_of_dealt (dealt_returned d j e)]
  split
  · exact presented_resolve ..
  · rfl

/-- In a turn of a job whoever is to be told something is told it if the job ends, and nobody else is. -/
theorem presented_turnOfJob (d : Desk) (i : Nat) : (d.turnOfJob i).presented =
    ((d.ending? i).bind fun e => d.told? e.task).toList ++ d.presented := by
  cases ht : (d.job i).task with
  | none =>
    rw [turnOfJob_of_none ht, ending?_of_none ht]
    rfl
  | some t =>
    have hp := presented_turn (d.atWork i) t
    generalize hout : (d.atWork i).turn t = out at hp
    obtain ⟨d₁, t' | e⟩ := out
    · obtain ⟨queue, waits, hd⟩ := turnOfJob_waiting ht hout
      have hnone : (d.atWork i).told? t = none := told?_of_waiting (by rw [hout])
      rw [hnone] at hp
      rw [ending?_of_some ht, hout, hd]
      exact hp
    · rw [ending?_of_some ht, hout, turnOfJob_ended ht hout, presented_settle]
      exact hp

/-- What ended work was told is what it would be told later. -/
theorem told?_of_stays {l : List Ended}
    (stays : ∀ k r, (d.handle k).report = some r → (d'.handle k).report = some r)
    (awaited : ∀ e ∈ l, ∀ k, e.task.awaited? = some k → ∃ r, (d.handle k).report = some r) :
    (l.filterMap fun e => d'.told? e.task) = l.filterMap fun e => d.told? e.task := by
  refine List.filterMap_congr fun e he => ?_
  have h := awaited e he
  generalize e.task = t at h ⊢
  cases t with
  | present k quiet =>
    obtain ⟨r, hr⟩ := h k rfl
    rw [told?, told?, hr, stays k r hr]
  | _ => rfl

/-- Presenters were told what there was to tell when they ended, in this order, and nothing else. -/
theorem Meanwhile.presented (hx : x.Promised) (run : Meanwhile x l d) :
    d.presented.reverse = x.presented.reverse ++ l.filterMap fun e => d.told? e.task := by
  induction run with
  | start => simp
  | @deals l d d' dealing run ih =>
    have ha := (Grows.of_deeds dealing.deeds).advances
    rw [dealing.presented_eq, ih, told?_of_stays (fun _ _ => ha.report_stays) (run.awaited hx)]
  | @turns l d i run ih =>
    have ha := (run.promised hx).advances_turn i
    -- the job that ends now has the report that it waits for before it has its turn
    have hawaited : ∀ e ∈ l ++ (d.ending? i).toList, ∀ k, e.task.awaited? = some k →
        ∃ r, (d.handle k).report = some r := by
      intro e he k hk
      rcases mem_append_toList.1 he with he | he
      · exact run.awaited hx e he k hk
      · exact ha.awaited he hk
    rw [told?_of_stays (fun _ _ => ha.report_stays) hawaited, presented_turnOfJob,
      List.reverse_append, ih, List.filterMap_append, List.append_assoc]
    cases d.ending? i with
    | none => rfl
    | some e => cases h : d.told? e.task <;> simp [h]

/-- A presenter is called in the first turn that it has when the handle reports, and not before. -/
theorem turn_of_presenter {quiet : Bool} (ht : (d.job i).task = some (.present k quiet)) :
    ((d.handle k).report = none → d.ending? i = none ∧ (d.turnOfJob i).presented = d.presented) ∧
    ∀ r, (d.handle k).report = some r →
      d.ending? i = some ⟨i, .present k quiet, .success .nothing⟩ ∧
      (d.turnOfJob i).presented = (if quiet && !r.toBool then [] else [r]) ++ d.presented := by
  have hk : (d.atWork i).handle k = d.handle k := rfl
  rw [presented_turnOfJob, ending?_of_some ht, turn_present, hk]
  refine ⟨?_, ?_⟩
  · intro hr
    rw [hr]
    exact ⟨rfl, rfl⟩
  · intro r hr
    rw [hr]
    refine ⟨rfl, ?_⟩
    cases quiet <;> cases r <;> simp [told?, hr, Option.filter_some, Except.toBool]

/-- A presenter waits for its turn, or it has had it. -/
theorem Meanwhile.presenter (hx : x.Promised) (run : Meanwhile x l d) {quiet : Bool}
    (ht : (x.job i).task = some (.present k quiet)) :
    (d.job i).task = some (.present k quiet) ∧ (∀ e ∈ l, e.job ≠ i) ∨
    (d.job i).task = none ∧ ⟨i, .present k quiet, .success .nothing⟩ ∈ l ∧
      ∃ r, (d.handle k).report = some r := by
  have hi := lt_of_task ht
  have hthrough := (run.job_stays hx hi).2.2
  have hstays := run.task_stays (fun t => t = .present k quiet) (fun e => e = .success .nothing) hx
    ?_ hi ?_
  · cases hd : (d.job i).task with
    | some t =>
      refine .inl ⟨by rw [hstays.1 t hd], ?_⟩
      intro e he hei
      have hnone := hthrough.2 (.inr ⟨e, he, hei⟩)
      rw [hd] at hnone
      cases hnone
    | none =>
      rcases hthrough.1 hd with hnone | ⟨e, he, hei⟩
      · rw [ht] at hnone
        cases hnone
      · obtain ⟨htask, hending⟩ := hstays.2 e he hei
        obtain ⟨job, task, ending⟩ := e
        subst hei htask hending
        exact .inr ⟨rfl, he, run.awaited hx _ he k rfl⟩
  · rintro d _ rfl
    rw [turn_present]
    split <;> simp
  · intro t h
    rw [ht] at h
    exact (Option.some.inj h).symm

/-! ### Delivery -/

/-- Outcomes are delivered at a desk at which some jobs have ended. -/
structure Delivered (d : Desk) (l : List Ended) : Prop where
  /-- What a handle reports stays, and it is seen under every name of the handle. -/
  stays : ∀ {l' : List Ended} {d' : Desk}, Meanwhile d l' d' → ∀ k r, (d.handle k).report = some r →
    (d'.handle k).report = some r ∧ ∀ name, d'.names.handles.find? name = some k →
      ((Step.command (.work (.view name))).perform d').2 = .handle (d'.handle k)
  /-- A handle reports how its job has ended. -/
  reported : ∀ i k, (d.job i).handle = some k → ∀ r, (d.handle k).report = some r ↔
    ∃ e ∈ l, e.job = i ∧ r = match e.ending with
      | .success p => .ok p
      | .failure f => .error (.failed f.message)
      | .panic message => .error (.panicked message)
  /-- The handle to work that plays items is kept under its name, and it reports what the items come
  to, once that job has ended. -/
  played : ∀ (items : List Item) (id : Option String) (under : String),
    ((Step.dispatch items id under).perform d).1.names.handles.find? under = some d.handles.length ∧
    ∀ {l' : List Ended} {d' : Desk}, Meanwhile ((Step.dispatch items id under).perform d).1 l' d' →
      ∀ r, (d'.handle d.handles.length).report = some r ↔
        (∃ e ∈ l', e.job = d.jobs.length) ∧ r = Item.outcome "" items
  /-- No job ends twice. -/
  once : (l.map Ended.job).Nodup
  /-- Whoever waits for a handle without a limit goes on when it reports. -/
  awaited : ∀ k e, (d.turn (.await k none)).2 = .ended e →
    e = .success (.resolved true) ∧ (d.handle k).report.isSome = true
  /-- So does a visitor, unless nothing is left that could end the wait. -/
  visited : ∀ name k, d.names.handles.find? name = some k → ∀ d' a,
    d.serve (.wait name none) = (d', a) →
      a = .stuck ∨ a = .resolved true (d'.handle k) ∧ (d'.handle k).report.isSome = true
  /-- A presenter that has its turn waits, or it is told what the handle reports and ends. -/
  told : ∀ i k quiet, (d.job i).task = some (.present k quiet) →
    ((d.handle k).report = none → d.ending? i = none ∧ (d.turnOfJob i).presented = d.presented) ∧
    ∀ r, (d.handle k).report = some r →
      d.ending? i = some ⟨i, .present k quiet, .success .nothing⟩ ∧
      (d.turnOfJob i).presented = (if quiet && !r.toBool then [] else [r]) ++ d.presented
  /-- Later it waits still, or it has ended so. -/
  presenter : ∀ i k quiet, (d.job i).task = some (.present k quiet) → ∀ {l' : List Ended} {d' : Desk},
    Meanwhile d l' d' →
      (d'.job i).task = some (.present k quiet) ∧ (∀ e ∈ l', e.job ≠ i) ∨
      (d'.job i).task = none ∧ ⟨i, .present k quiet, .success .nothing⟩ ∈ l' ∧
        ∃ r, (d'.handle k).report = some r
  /-- Presenters that have ended were told of their handles once each, and nobody else was told
  anything. -/
  presented : d.presented.reverse = l.filterMap fun e => d.told? e.task
  /-- None of them ended before its handle reported. -/
  ended : ∀ e ∈ l, ∀ k quiet, e.task = .present k quiet → ∃ r, (d.handle k).report = some r

/-- In every order of turns, and whatever else is done meanwhile, outcomes are delivered. -/
theorem delivered_of_opened {setup : Setup} {replies : List Reply} {reporting : Bool}
    (run : Meanwhile (.opened setup replies reporting) l d) : d.Delivered l := by
  have hx : (Desk.opened setup replies reporting).jobs = [] := rfl
  obtain ⟨hd, hacc⟩ := run.accounted hx
  refine ⟨?_, ?_, ?_, hacc.once, ?_, ?_, ?_, ?_, ?_, ?_⟩
  · intro l' d' run' k r hr
    refine ⟨run'.report_stays hd hr, ?_⟩
    intro name hname
    simp [Step.perform, obey, obeyWork, withHandle, hname]
  · intro i k hk r
    rw [hacc.reported i k hk r]
    refine exists_congr fun e => and_congr_right fun _ => and_congr_right fun _ => ?_
    cases e.ending <;> exact eq_comm
  · intro items id under
    refine ⟨?_, fun run' => run.dispatched hx run'⟩
    simp [Step.perform, Desk.dispatch, Desk.spawn, pending, keepHandle, keep]
  · intro k e he
    have hr := report_of_ended rfl he
    rw [turn_await, if_pos hr] at he
    exact ⟨(Turn.ended.inj he).symm, hr⟩
  · intro name k hk d' a hs
    exact serve_wait hk hs
  · intro i k quiet ht
    exact turn_of_presenter ht
  · intro i k quiet ht l' d' run'
    exact run'.presenter hd ht
  · exact run.presented (.fresh hx)
  · intro e he k quiet ht
    exact run.awaited (.fresh hx) e he k (by rw [ht]; rfl)

/-- Work panics, and whoever was to present its outcome is told of it. -/
theorem delivered_panic :
    let d := ((Step.dispatch [.chunk "a", .panic .other] none "work").perform (.opened {} [] true)).1
    let d := ((Step.command (.work (.present "work" false))).perform d).1
    let d := (d.turnOfJob 0).turnOfJob 1
    (∃ l, Meanwhile (.opened {} [] true) l d ∧ d.Delivered l) ∧
      d.presented = [.error (.panicked "unknown panic")] := by
  refine ⟨?_, by decide +kernel⟩
  have run := ((Meanwhile.start (x := .opened {} [] true)).dealt
    (dealt_perform _ (.dispatch [.chunk "a", .panic .other] none "work"))).dealt
    (dealt_perform _ (.command (.work (.present "work" false))))
  have run := (run.turns 0).turns 1
  exact ⟨_, run, delivered_of_opened run⟩

end Desk

end PromptDesk
