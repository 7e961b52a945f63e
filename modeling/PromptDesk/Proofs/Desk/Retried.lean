import PromptDesk.Proofs.Desk.WorkerRuns

/-! Requests that are sent again while a worker that served them before is still unwinding. The worker
hands in by the id of its request: it ends the new attempt as well, unless the slot went to another
request before that. -/
namespace PromptDesk

open Slot (Move)

namespace Slot

/-- A request that is retried is sent under its id. -/
theorem retry_eq {s : Slot} {r : String} (h : s.state.isFor r = true) :
    s.retry none = (Move.send (some r)).after s := by
  have hid := PhaseState.isFor_iff.1 h
  simp [retry, arm, apply, publish, PhaseState.next, Move.after, Move.result, Move.tokens, Move.armed,
    Move.issued, hid]

theorem after_ne (s : Slot) (m : Move) : m.after s ≠ s := fun h =>
  List.cons_ne_self s.state s.earlier (congrArg Slot.earlier h)

end Slot

/-- The steps of a worker leave the slot alone. -/
def LeavesSlot (l : List (Desk × Stance)) : Prop := ∀ z ∈ l, (z.1.advance z.2).1.slot = z.1.slot

theorem LeavesSlot.handIn {l : List (Desk × Stance)} {d : Desk} {r : String} {i : Nat}
    {outcome : ReadOutcome} (h : LeavesSlot l) (at_ : (d, Stance.finishing r i outcome) ∈ l) :
    (d.handIn r i outcome).1.slot = d.slot := h _ at_

namespace Stance

/-- The next thing is a turn. -/
def isWaiting : Stance → Bool
  | due _ | rests (.waiting _) => true
  | playing _ _ _ | reading _ _ _ _ _ _ | finishing _ _ _ | storing _ _ _ _ _ | stored _ _ _ _ _
  | unwinding _ _ _ | rests _ => false

variable {d : Desk} {s : Stance} {r : String}

theorem of_isWaiting (h : s.isWaiting = true) :
    ∃ e, (s = rests (.waiting e) ∨ s = due e) ∧ s.token? = e.stage.token? := by
  cases s with
  | due e => exact ⟨e, .inr rfl, rfl⟩
  | rests p =>
    cases p with
    | waiting e => exact ⟨e, .inl rfl, rfl⟩
    | ended response | panicked message => cases h
  | _ => cases h

/-- A step leaves the slot alone exactly if the slot takes no notice of it. -/
theorem refused_iff (free : s.callback? = none) :
    s.Refused d.slot ↔ (d.advance s).1.slot = d.slot := by
  rw [Desk.slot_advance d free]
  cases hm : s.event? with
  | none => exact iff_of_true (.of_none hm) rfl
  | some m =>
    rw [Option.bind_some]
    by_cases ha : m.Allowed d.slot.state
    · rw [Slot.move?_of_allowed ha]
      exact iff_of_false (fun h => h m hm ha) (Slot.after_ne d.slot m)
    · rw [Slot.move?_eq_none_iff.2 ha]
      refine iff_of_true (fun m' hm' => ?_) rfl
      obtain rfl : m = m' := Option.some.inj (hm.symm.trans hm')
      exact ha

/-- What a worker hands in counts as long as the slot names its request. -/
theorem event?_finishing (r : String) (i : Nat) (outcome : ReadOutcome) :
    ∃ m, (finishing r i outcome).event? = some m ∧
      (∀ t : Slot, m.Allowed t.state ↔ t.state.holds r = true) ∧
        ∀ t : Slot, (m.result t).holds r = false := by
  cases outcome with
  | completed text | cancelled text | failed f =>
    exact ⟨_, rfl, fun _ => Iff.rfl, fun _ => by
      simp [PhaseState.holds, Move.result, PhaseState.isInFlight, Phase.isInFlight]⟩

theorem refused_finishing {i : Nat} {outcome : ReadOutcome} {t : Slot} :
    (finishing r i outcome).Refused t ↔ t.state.holds r = false := by
  obtain ⟨m, hm, ha, _⟩ := event?_finishing r i outcome
  refine ⟨fun h => ?_, fun h m' hm' => ?_⟩
  · have h' := h m hm
    rw [ha] at h'
    simpa using h'
  · obtain rfl : m = m' := Option.some.inj (hm.symm.trans hm')
    rw [ha, h]
    exact Bool.false_ne_true

end Stance

namespace Runs

variable {others : Desk → Desk → Prop} {x y : Desk × Stance} {l : List (Desk × Stance)}

theorem free (run : Runs others x l y) : ∀ z ∈ l, z.2.callback? = none := fun z hz => by
  have h : Lasting others fun _ _ => True :=
    ⟨fun _ _ => trivial, fun _ _ => trivial, fun _ _ => trivial, fun _ => trivial⟩
  exact ((run.lasting h trivial).2 z hz).2

theorem leavesSlot_iff (run : Runs others x l y) :
    LeavesSlot l ↔ ∀ z ∈ l, z.2.Refused z.1.slot :=
  forall₂_congr fun z hz => (Stance.refused_iff (run.free z hz)).symm

/-- A worker that sent its request hands in before it returns. -/
theorem handsIn {r : String} (run : Runs others x l y) (request : x.2.request? = some r)
    (sent : x.2.attempt?.isSome = true) (atWork : x.2.isAtWork = true) :
    (y.2.request? = some r ∧ y.2.attempt?.isSome = true ∧ y.2.isAtWork = true) ∨
      (∃ message, y.2 = .rests (.panicked message)) ∨
      ∃ z ∈ l, ∃ i outcome, z.2 = .finishing r i outcome := by
  induction run with
  | start => exact .inl ⟨request, sent, atWork⟩
  | @own l d s run free ih =>
    have hs := Desk.advanced d free
    rcases ih with ⟨request, sent, atWork⟩ | ⟨message, rfl⟩ | ⟨z, hz, h⟩
    · have hfin : ∀ i outcome, s = .finishing r i outcome →
          ∃ z ∈ (d, s) :: l, ∃ i outcome, z.2 = .finishing r i outcome :=
        fun i outcome he => ⟨(d, s), List.mem_cons_self, i, outcome, he⟩
      generalize d.advance s = out at hs ⊢
      cases hs with
      | setsOut id draft => cases sent
      | works mine refused notes on =>
        cases on with
        | carries request' mine' token atWork' =>
          exact .inl ⟨request'.trans request, by rw [mine']; rfl, atWork'⟩
        | finishes request' outcome => exact .inl ⟨request'.symm.trans request, rfl, rfl⟩
        | panics message => exact .inr (.inl ⟨message, rfl⟩)
      | streams text idle opens allowed => exact .inl ⟨request, rfl, rfl⟩
      | handsIn id attempt outcome =>
        obtain rfl : id = r := Option.some.inj request
        exact .inr (.inr (hfin attempt outcome rfl))
      | stores id text attempt entry result => cases atWork
      | rests p => exact .inl ⟨request, sent, atWork⟩
    · exact .inr (.inl ⟨message, rfl⟩)
    · exact .inr (.inr ⟨z, List.mem_cons_of_mem _ hz, h⟩)
  | asks run asked made ih =>
    rcases ih with ⟨request, sent, atWork⟩ | ⟨message, rfl⟩ | h
    · obtain ⟨hr, hi, _, hw⟩ := Stance.callback?_eq asked
      exact .inl ⟨hr.trans request, hi ▸ sent, hw.trans atWork⟩
    · cases asked
    · exact .inr (.inr h)
  | others run made ih => exact ih
  | turn run ih =>
    rcases ih with h | ⟨message, h⟩ | h
    · exact .inl ⟨h.1, h.2.1, rfl⟩
    · cases h
    · exact .inr (.inr h)

end Runs

namespace Desk

/-- A worker hands in by the id of its request: whatever attempt holds the slot under that id is over. -/
theorem slot_finishing {d : Desk} {r : String} {i : Nat} {outcome : ReadOutcome} {m : Move}
    (hm : (Stance.finishing r i outcome).event? = some m) (holds : d.slot.state.holds r = true) :
    (d.advance (.finishing r i outcome)).1.slot = m.after d.slot := by
  obtain ⟨m', hm', ha, _⟩ := Stance.event?_finishing r i outcome
  obtain rfl : m' = m := Option.some.inj (hm'.symm.trans hm)
  rw [Desk.slot_advance d rfl, hm, Option.bind_some, Slot.move?_of_allowed ((ha _).2 holds)]
  rfl

theorem released_finishing {d : Desk} {r : String} {i : Nat} {outcome : ReadOutcome}
    (holds : d.slot.state.holds r = true) :
    (d.advance (.finishing r i outcome)).1.slot.state.holds r = false := by
  obtain ⟨m, hm, _, hgone⟩ := Stance.event?_finishing r i outcome
  rw [slot_finishing hm holds, Move.after_state]
  exact hgone d.slot

end Desk

/-- A worker that sent its request and has returned has handed in. It left the slot alone only if it
had lost it by then. -/
theorem Runs.handedIn {others : Desk → Desk → Prop} {x : Desk × Stance} {l : List (Desk × Stance)}
    {r : String} {d' : Desk} {response : Response} (run : Runs others x l (d', .rests (.ended response)))
    (request : x.2.request? = some r) (sent : x.2.attempt?.isSome = true)
    (atWork : x.2.isAtWork = true) :
    ∃ z ∈ l, (∃ i outcome, z.2 = .finishing r i outcome) ∧
      (z.1.slot.state.holds r = true → (z.1.advance z.2).1.slot.state.holds r = false) ∧
      (LeavesSlot l → z.1.slot.state.holds r = false) := by
  rcases run.handsIn request sent atWork with ⟨_, _, h⟩ | ⟨message, h⟩ | ⟨z, hz, i, outcome, hfin⟩
  · cases h
  · cases h
  · refine ⟨z, hz, ⟨i, outcome, hfin⟩, fun holds => ?_, fun hl => ?_⟩
    · rw [hfin]
      exact Desk.released_finishing holds
    · have h := run.leavesSlot_iff.1 hl z hz
      rw [hfin] at h
      exact Stance.refused_finishing.1 h

/-- How a worker unwinds that has to begin a turn with its token tripped. -/
inductive Unwinds (e : Execution) : List (Desk × Stance) → Stance → Prop
  | waits {l : List (Desk × Stance)} {s : Stance} (stands : s = .rests (.waiting e) ∨ s = .due e)
      (quiet : ∀ z ∈ l, z.2.event? = none) : Unwinds e l s
  | gives {l : List (Desk × Stance)} (i : Nat) (text : String)
      (quiet : ∀ z ∈ l, z.2.event? = none) :
      Unwinds e l (.finishing e.requestId i (.cancelled text))
  | gave {l l' : List (Desk × Stance)} {response : Response} (d : Desk) (i : Nat) (text : String)
      (quiet : ∀ z ∈ l' ++ l, z.2.event? = none) (cancelled : response.outcome = .cancelled) :
      Unwinds e (l' ++ (d, .finishing e.requestId i (.cancelled text)) :: l)
        (.rests (.ended response))

/-- A worker that waits while its token is tripped does nothing but give up. -/
theorem Runs.unwinds {d : Desk} {s : Stance} {e : Execution} {token : Nat} {y : Desk × Stance}
    {l : List (Desk × Stance)} (run : Runs Desk.GoesOn (d, s) l y)
    (stands : s = .rests (.waiting e) ∨ s = .due e) (heeds : e.stage.token? = some token)
    (tripped : d.slot.isTripped token = true) :
    y.1.slot.isTripped token = true ∧ Unwinds e l y.2 := by
  induction run with
  | start => exact ⟨tripped, .waits stands (by simp)⟩
  | @own l d s run free ih =>
    obtain ⟨ht, hu⟩ := ih
    refine ⟨(Desk.GoesOn.of_deeds ((Desk.dealt_advance d free).deeds)).slot token ht, ?_⟩
    cases hu with
    | waits stands quiet =>
      rcases stands with rfl | rfl
      · exact .waits (.inl rfl) (List.forall_mem_cons.2 ⟨rfl, quiet⟩)
      · obtain ⟨i, text, _, he⟩ := Desk.advance_of_tripped heeds ht
        rw [he]
        refine .gives i text (List.forall_mem_cons.2 ⟨?_, quiet⟩)
        rfl
    | gives i text quiet =>
      have hq : ∀ z ∈ [] ++ l, z.2.event? = none := quiet
      exact .gave d i text hq rfl
    | @gave l l' response d' i text quiet cancelled =>
      have hq : ∀ z ∈ ((d, Stance.rests (.ended response)) :: l') ++ l, z.2.event? = none :=
        List.forall_mem_cons.2 ⟨rfl, quiet⟩
      exact .gave d' i text hq cancelled
  | asks run asked made ih =>
    cases ih.2 with
    | waits stands quiet => rcases stands with rfl | rfl <;> cases asked
    | gives | gave => cases asked
  | others run made ih => exact ⟨made.slot token ih.1, ih.2⟩
  | turn run ih =>
    refine ⟨ih.1, ?_⟩
    cases ih.2 with
    | waits stands quiet =>
      rcases stands with he | he
      · cases he
        exact .waits (.inr rfl) quiet
      · cases he

/-- A request that was cancelled is sent again under its id, with a fresh token. Its worker of before
hands in nevertheless, and ends the new attempt if that still holds the slot; so the new attempt
outlives the worker only if it has lost the slot by then. If the worker waits when the request is
retried, then exactly if: its response is that of a cancelled request, and all that it can do is to
cancel the request once more, with whatever token is the current one. -/
theorem Runs.retried {r : String} {d d' : Desk} {s : Stance} {l : List (Desk × Stance)}
    {response : Response} (named : d.slot.state.isFor r = true) (request : s.request? = some r)
    (sent : s.attempt?.isSome = true) (atWork : s.isAtWork = true)
    (run : Runs Desk.GoesOn (d.withSlot (d.slot.retry none), s) l (d', .rests (.ended response))) :
    (d.slot.retry none).state.holds r = true ∧
      (d.slot.retry none).isTripped (d.slot.retry none).armed = false ∧
      ∃ z ∈ l, (∃ i outcome, z.2 = .finishing r i outcome) ∧
        (z.1.slot.state.holds r = true → (z.1.advance z.2).1.slot.state.holds r = false) ∧
        (LeavesSlot l → z.1.slot.state.holds r = false) ∧
        ∀ token, s.isWaiting = true → s.token? = some token →
          d.slot.isTripped token = true → response.outcome = .cancelled ∧
            (LeavesSlot l ↔ z.1.slot.state.holds r = false) ∧
            (z.1.slot.state.holds r = true →
              (z.1.advance z.2).1.slot = (Move.cancel r).after z.1.slot) := by
  have hretry := Slot.retry_eq named
  refine ⟨?_, by simp [hretry, Move.after, Move.armed, Move.tokens, Slot.isTripped], ?_⟩
  · simp [hretry, PhaseState.holds, PhaseState.isFor, Move.result, PhaseState.isInFlight,
      Phase.isInFlight]
  obtain ⟨z, hz, ⟨i, outcome, hfin⟩, ends, lost⟩ := run.handedIn request sent atWork
  refine ⟨z, hz, ⟨i, outcome, hfin⟩, ends, lost, fun token waiting heeds htr => ?_⟩
  have htr' : (d.withSlot (d.slot.retry none)).slot.isTripped token = true :=
    Slot.remembers_arm d.slot token htr
  have hleaves := run.leavesSlot_iff
  obtain ⟨e, stands, htoken⟩ := Stance.of_isWaiting waiting
  obtain ⟨_, hu⟩ := run.unwinds stands (htoken.symm.trans heeds) htr'
  cases hu with
  | waits stands quiet => rcases stands with h | h <;> cases h
  | @gave l l' _ d₁ j text quiet cancelled =>
    -- the worker has one event only, so this is where it hands in
    have hone : ∀ z' ∈ l' ++ (d₁, Stance.finishing e.requestId j (.cancelled text)) :: l,
        z' = (d₁, Stance.finishing e.requestId j (.cancelled text)) ∨ z'.2.event? = none := by
      intro z' hz'
      simp only [List.mem_append, List.mem_cons] at hz' quiet
      grind
    obtain rfl : z = (d₁, Stance.finishing e.requestId j (.cancelled text)) := by
      refine (hone z hz).resolve_right fun hn => ?_
      obtain ⟨m, hm, _⟩ := Stance.event?_finishing r i outcome
      rw [hfin, hm] at hn
      cases hn
    cases hfin
    refine ⟨cancelled, ?_, Desk.slot_finishing rfl⟩
    rw [hleaves]
    refine ⟨fun h => Stance.refused_finishing.1 (h _ hz), fun h z' hz' => ?_⟩
    rcases hone z' hz' with rfl | hn
    · exact Stance.refused_finishing.2 h
    · exact .of_none hn

/-- A waiting worker that finds its token tripped when it has its turn gives up at once. -/
theorem Runs.givesUp {r : String} {d d' : Desk} {s : Stance} {t : Nat}
    (run : Runs Desk.GoesOn (d, s) [] (d', s)) (request : s.request? = some r)
    (waiting : s.isWaiting = true) (heeds : s.token? = some t)
    (tripped : d'.slot.isTripped t = true) :
    ∃ e i text response, Runs Desk.GoesOn (d, s)
      [(d', .finishing r i (.cancelled text)), (d', .due e)]
      ((d'.handIn r i (.cancelled text)).1, .rests (.ended response)) := by
  obtain ⟨e, stands, htoken⟩ := Stance.of_isWaiting waiting
  obtain ⟨hdue, rfl⟩ : Runs Desk.GoesOn (d, s) [] (d', .due e) ∧ e.requestId = r := by
    rcases stands with rfl | rfl
    · exact ⟨run.turn, Option.some.inj request⟩
    · exact ⟨run, Option.some.inj request⟩
  obtain ⟨i, text, _, he⟩ := Desk.advance_of_tripped (htoken.symm.trans heeds) tripped
  refine ⟨e, i, text, _, .own ?_ rfl⟩
  rw [← he]
  exact hdue.own rfl

/-- The waiting worker of a cancelled request unwinds after the request was retried and, once more
cancelled, had to make room for another one. -/
theorem Runs.retried_then_replaced :
    let perform := fun (d : Desk) (c : Command) => ((Step.command c).perform d).1
    let cancel : Command := .work (.cancelCurrent "esc")
    let opened : Desk := { replies := [⟨[], [.chunk "x", .wait "go", .chunk "y"]⟩] }
    let draft : Draft := { destination := .default, requestId := some "req-1" }
    let x := act^[6] ((opened.claim "k1").1, .due ⟨"req-1", draft, .claimed⟩)
    let d := perform x.1 cancel
    d.slot.state.phase = .cancelled ∧ ∃ l d' response,
      Runs Desk.GoesOn (perform d (.slot (.retry none)), x.2) l (d', .rests (.ended response)) ∧
        response.outcome = .cancelled ∧ LeavesSlot l ∧ d'.slot.state.holds "req-2" = true := by
  intro perform cancel opened draft x d
  let d₂ := perform (perform (perform d (.slot (.retry none))) cancel) (.gate (.claim "k2"))
  have go : ∀ d c, Desk.GoesOn d (perform d c) := fun d c => Desk.goesOn_perform d _
  have waiting : x.2.isWaiting = true := by decide +kernel
  have heeds : x.2.token? = some 1 := by decide +kernel
  have replaced : Runs Desk.GoesOn (perform d (.slot (.retry none)), x.2) [] (d₂, x.2) :=
    (Runs.start.others (go _ _)).others (go _ _)
  obtain ⟨e, i, text, response, run⟩ :=
    replaced.givesUp (r := "req-1") (by decide +kernel) waiting heeds (by decide +kernel)
  obtain ⟨_, _, z, hz, _, _, _, h⟩ := run.retried (r := "req-1") (by decide +kernel)
    (by decide +kernel) (by decide +kernel) (by decide +kernel)
  obtain ⟨cancelled, leaves, _⟩ := h 1 waiting heeds (by decide +kernel)
  have hz : z.1 = d₂ := by
    simp only [List.mem_cons, List.not_mem_nil, or_false] at hz
    rcases hz with hz | hz <;> rw [hz]
  have hl : LeavesSlot [(d₂, .finishing "req-1" i (.cancelled text)), (d₂, .due e)] := by
    rw [leaves, hz]
    decide +kernel
  have hend : (d₂.handIn "req-1" i (.cancelled text)).1.slot = d₂.slot :=
    hl.handIn List.mem_cons_self
  refine ⟨by decide +kernel, _, _, response, run, cancelled, hl, ?_⟩
  rw [hend]
  decide +kernel

/-- A request is cancelled while its worker waits, and retried. The worker cancels it again, and
trips the fresh token. -/
theorem Runs.retried_and_lost :
    let perform := fun (d : Desk) (c : Command) => ((Step.command c).perform d).1
    let opened : Desk := { replies := [⟨[], [.chunk "x", .wait "go", .chunk "y"]⟩] }
    let draft : Draft := { destination := .default, requestId := some "req-1" }
    let x := act^[6] ((opened.claim "k1").1, .due ⟨"req-1", draft, .claimed⟩)
    let d := perform (perform x.1 (.work (.cancelCurrent "esc"))) (.slot (.retry none))
    d.slot.state.holds "req-1" = true ∧ d.slot.isTripped d.slot.armed = false ∧
      ∃ l d' response, Runs Desk.GoesOn (d, x.2) l (d', .rests (.ended response)) ∧
        ¬ LeavesSlot l ∧ d'.slot.state.phase = .cancelled ∧
        d'.slot.isTripped d.slot.armed = true := by
  intro perform opened draft x d
  have holds : d.slot.state.holds "req-1" = true := by decide +kernel
  obtain ⟨e, i, text, response, run⟩ := Runs.givesUp (r := "req-1") (.start (x := (d, x.2)))
    (by decide +kernel) (by decide +kernel) (t := 1) (by decide +kernel) (by decide +kernel)
  have hend : (d.handIn "req-1" i (.cancelled text)).1.slot = (Move.cancel "req-1").after d.slot := by
    rw [Desk.handIn_slot]
    exact congrArg (·.getD d.slot) (Slot.move?_of_allowed (m := .cancel "req-1") holds)
  refine ⟨holds, by decide +kernel, _, _, response, run, fun h => ?_, ?_, ?_⟩
  · exact Slot.after_ne d.slot _ (hend.symm.trans (h.handIn List.mem_cons_self))
  · rw [hend]
    rfl
  · rw [hend]
    decide +kernel

namespace Desk

/-- A request that has a token when its worker sets out is sent, and heeds that token. -/
theorem setOut_of_token {d : Desk} {r : String} {token : Nat} (ht : d.slot.tokenFor? r = some token)
    (draft : Draft) : (d.setOut r draft).2.token? = some token ∧
      (d.setOut r draft).2.request? = some r ∧ (d.setOut r draft).2.attempt?.isSome = true ∧
      (d.setOut r draft).2.isAtWork = true := by
  simp only [setOut, ht]
  split <;> exact ⟨rfl, rfl, rfl, rfl⟩

/-- Otherwise it comes to nothing. -/
theorem setOut_of_none {d : Desk} {r : String} (ht : d.slot.tokenFor? r = none) (draft : Draft) :
    ∃ d', d.setOut r draft = (d', .rests (.ended (.empty r .cancelled d.now))) := by
  simp only [setOut, ht]
  split <;> exact ⟨_, rfl⟩

end Desk

/-- A worker that has returned leaves the slot alone. -/
theorem Runs.leavesSlot_of_rests {others : Desk → Desk → Prop} {d : Desk} {p : Progress}
    {l : List (Desk × Stance)} {y : Desk × Stance} (run : Runs others (d, .rests p) l y)
    (returned : ∀ e, p ≠ .waiting e) : y.2 = .rests p ∧ LeavesSlot l := by
  have lasts : Lasting others fun _ s => s = .rests p := {
    own := by
      rintro d _ rfl _
      rfl
    asks := by
      rintro _ _ _ _ rfl asked
      cases asked
    others := fun h _ => h
    turn := fun {_ e} h => (returned e (Stance.rests.inj h).symm).elim }
  obtain ⟨hy, hl⟩ := run.lasting lasts rfl
  refine ⟨hy, fun z hz => ?_⟩
  rw [(hl z hz).1]
  rfl

/-- A request that was cancelled is retried before its worker sets out. The worker then serves the new
attempt: it sets out with the token that the request has by that time, which is the fresh one if nobody
has come in between, and hands in by the id as any other worker; or the request has no token by that
time, and the worker comes to nothing and leaves the slot alone. -/
theorem Runs.retried_of_claimed {r : String} {draft : Draft} {d d' : Desk} {l : List (Desk × Stance)}
    {response : Response} (named : d.slot.state.isFor r = true)
    (run : Runs Desk.GoesOn (d.withSlot (d.slot.retry none), .due ⟨r, draft, .claimed⟩) l
      (d', .rests (.ended response))) :
    (d.slot.retry none).tokenFor? r = some (d.slot.retry none).armed ∧
      ∃ d₁ l', l = l' ++ [(d₁, .due ⟨r, draft, .claimed⟩)] ∧
        Runs Desk.GoesOn (d.withSlot (d.slot.retry none), .due ⟨r, draft, .claimed⟩) []
          (d₁, .due ⟨r, draft, .claimed⟩) ∧
        (d₁.slot.tokenFor? r = none → response = .empty r .cancelled d₁.now ∧ LeavesSlot l) ∧
        ∀ token, d₁.slot.tokenFor? r = some token →
          (d₁.setOut r draft).2.token? = some token ∧
            ∃ z ∈ l', (∃ i outcome, z.2 = .finishing r i outcome) ∧
              (z.1.slot.state.holds r = true → (z.1.advance z.2).1.slot.state.holds r = false) ∧
              (LeavesSlot l' → z.1.slot.state.holds r = false) := by
  obtain ⟨-, h⟩ | ⟨d₁, l', rfl, before, after⟩ := run.first rfl (by rintro _ ⟨⟩)
  · cases h
  refine ⟨?_, d₁, l', rfl, before, fun lost => ?_, fun token ht => ?_⟩
  · rw [Slot.retry_eq named]
    exact Slot.tokenFor?_send d.slot (some r)
  · obtain ⟨d₂, hd₂⟩ := Desk.setOut_of_none lost draft
    rw [Desk.advance, hd₂] at after
    obtain ⟨hy, leaves⟩ := after.leavesSlot_of_rests (by rintro _ ⟨⟩)
    refine ⟨Progress.ended.inj (Stance.rests.inj hy), fun z hz => ?_⟩
    rcases List.mem_append.1 hz with hz | hz
    · exact leaves z hz
    · rw [List.mem_singleton.1 hz]
      exact Desk.setOut_slot d₁ r draft
  · obtain ⟨heeds, request, sent, atWork⟩ := Desk.setOut_of_token ht draft
    exact ⟨heeds, after.handedIn request sent atWork⟩

end PromptDesk
