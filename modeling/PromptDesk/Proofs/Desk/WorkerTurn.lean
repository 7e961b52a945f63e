import PromptDesk.Proofs.Desk.Moves
import PromptDesk.Proofs.Desk.Worker

/-! The turn of a worker. Its steps with nobody in between come to exactly what the turn of its
execution comes to, so nothing is lost when the turn is taken apart. -/
namespace PromptDesk

namespace Desk

/-- What comes of an errand when its items were played. -/
def answered (c : Errand) : Desk × Collected → Desk × Progress
  | (d, .waiting p) =>
    match c.limit with
    | some l =>
      if l.due ≤ d.clock then d.transportFailed c.requestId c.attempt l.failure
      else (d, .waiting (c.waiting p))
    | none => (d, .waiting (c.waiting p))
  | (d, .text text) =>
    match c.stream? with
    | some items => d.streamOpened (c.waiting default) c.attempt c.token items
    | none => d.textArrived c.requestId c.attempt text
  | (d, .failed f) => d.transportFailed c.requestId c.attempt f
  | (d, .panicked message) => (d, .panicked message)

/-- What comes of an execution when its items were read. -/
def wasRead (id : String) (draft : Draft) (attempt : Nat) : Desk × Drained → Desk × Progress
  | (d, .waiting r) => (d, .waiting ⟨id, draft, .reading r⟩)
  | (d, .ended outcome) => d.finish id attempt outcome
  | (d, .panicked message) => (d, .panicked message)

theorem continueReading_eq (d : Desk) (e : Execution) (r : Reader) :
    d.continueReading e r = wasRead e.requestId e.draft r.attempt (d.read r) := by
  rw [continueReading]
  generalize d.read r = x
  obtain ⟨d', outcome | message | r'⟩ := x <;> rfl

end Desk

/-- What the rest of a turn comes to if nobody comes in between. -/
def Stance.result (d : Desk) : Stance → Desk × Progress
  | due e => d.execute e
  | playing c items text => Desk.answered c (Desk.collectItems items text d)
  | reading id draft attempt token items idle =>
    Desk.wasRead id draft attempt (Desk.readItems attempt token items idle d)
  | finishing id attempt outcome => d.finish id attempt outcome
  | storing id text attempt entry (.mk calls result) =>
    let d := ((performAll calls d).endLogEntry attempt entry result).1
    (d, .ended ⟨id, .ofText .assistant text d.now, .completed⟩)
  | storing _ _ _ _ (.panic calls payload) => (performAll calls d, .panicked payload.message)
  | stored id text attempt entry result =>
    let d := (d.endLogEntry attempt entry result).1
    (d, .ended ⟨id, .ofText .assistant text d.now, .completed⟩)
  | unwinding _ _ message => (d, .panicked message)
  | rests p => (d, p)

namespace Stance

variable {d : Desk}

theorem result_fault (d : Desk) (c : Errand) (f : Failure) :
    (d.fault c f).2.result (d.fault c f).1 = d.transportFailed c.requestId c.attempt f := by
  rw [Desk.fault, Desk.transportFailed]
  split <;> rfl

theorem result_pause (d : Desk) (c : Errand) (p : Playback) :
    (d.pause c p).2.result (d.pause c p).1 = Desk.answered c (d, .waiting p) := by
  rw [Desk.pause, Desk.answered]
  cases c.limit with
  | none => rfl
  | some l =>
    dsimp only
    split
    · exact result_fault d c _
    · rfl

/-- What a turn of an errand comes to, whether a stream is opened or the whole response expected. -/
theorem execute_waiting (d : Desk) (c : Errand) (p : Playback) :
    d.execute (c.waiting p) =
      if d.slot.isTripped c.token then d.transportFailed c.requestId c.attempt .cancelled
      else Desk.answered c (d.collect p) := by
  obtain ⟨id, draft, attempt, token, limit, stream⟩ := c
  cases stream
  all_goals
    simp only [Errand.waiting, Desk.execute, Desk.continueOpening, Desk.continueCollecting,
      Desk.collectWithin]
    refine if_congr Iff.rfl rfl ?_
    generalize d.collect p = x
    obtain ⟨d', p' | text | f | message⟩ := x
    all_goals try rfl
    cases limit with
    | none => rfl
    | some l => by_cases hl : l.due ≤ d'.clock <;> simp [Desk.answered, hl, Errand.waiting]

theorem result_resume (d : Desk) (c : Errand) (p : Playback) :
    (d.resume c p).2.result (d.resume c p).1 = d.execute (c.waiting p) := by
  rw [execute_waiting, Desk.resume]
  split
  · exact result_fault d c .cancelled
  · rw [Desk.collect]
    split
    · rfl
    · exact result_pause d c p

theorem result_arrive (d : Desk) (c : Errand) (text : String) :
    (d.arrive c text).2.result (d.arrive c text).1 = Desk.answered c (d, .text text) := by
  have hid : (c.waiting default).requestId = c.requestId := rfl
  rw [Desk.arrive, Desk.answered]
  cases c.stream? with
  | none => rfl
  | some items =>
    simp only [Desk.streamOpened, hid]
    cases d.slot.beginStreamFor? c.requestId <;> rfl

theorem result_setOut (d : Desk) (id : String) (draft : Draft) :
    (d.setOut id draft).2.result (d.setOut id draft).1 = d.launch ⟨id, draft, .claimed⟩ := by
  simp only [Desk.setOut, Desk.launch]
  cases d.slot.tokenFor? id with
  | none =>
    dsimp only
    split <;> rfl
  | some token =>
    dsimp only
    split <;> rfl

theorem result_handIn (d : Desk) (id : String) (attempt : Nat) (outcome : ReadOutcome) :
    (d.handIn id attempt outcome).2.result (d.handIn id attempt outcome).1 =
      d.finish id attempt outcome := by
  cases outcome with
  | completed text =>
    simp only [Desk.handIn, Desk.finish]
    cases d.slot.completeFor? id with
    | none => rfl
    | some s =>
      have hset : (d.withSlot s).setup = d.setup := rfl
      simp only [hset]
      cases d.setup.history with
      | none => rfl
      | some w =>
        cases w <;> rfl
  | cancelled text | failed f => rfl

theorem result_playOne (d : Desk) (c : Errand) (text : String) {items : List Item}
    (h : (playing c items text).callback? = none) :
    (d.playOne c text items).2.result (d.playOne c text items).1 =
      Desk.answered c (Desk.collectItems items text d) := by
  cases items with
  | nil => exact result_arrive d c text
  | cons item rest =>
    cases item with
    | chunk s | panic payload => rfl
    | fail f => exact result_fault d c f
    | calls calls => cases h
    | delay ms | wait name | hang =>
      simp only [Desk.playOne, Desk.collectItems]
      generalize d.pauseAt _ = pause
      cases pause with
      | none => rfl
      | some pause => exact result_pause d c _

theorem result_readOne (d : Desk) (id : String) (draft : Draft) (attempt : Nat)
    (token : Option Nat) (idle : Option Limit) {items : List Item}
    (h : (reading id draft attempt token items idle).callback? = none) :
    (d.readOne id draft attempt token idle items).2.result
        (d.readOne id draft attempt token idle items).1 =
      Desk.wasRead id draft attempt (Desk.readItems attempt token items idle d) := by
  cases items with
  | nil => rfl
  | cons item rest =>
    cases item with
    | chunk s =>
      simp only [Desk.readOne, Desk.readItems]
      generalize Desk.halt? _ attempt token _ = halted
      cases halted <;> rfl
    | fail f | panic payload => rfl
    | calls calls => cases h
    | delay ms | wait name | hang =>
      simp only [Desk.readOne, Desk.readItems]
      generalize d.pauseAt _ = pause
      cases pause <;> rfl

/-- A step of a worker of its own leaves the turn what it comes to. -/
theorem result_advance {s : Stance} (h : s.callback? = none) :
    (d.advance s).2.result (d.advance s).1 = s.result d := by
  cases s with
  | due e =>
    obtain ⟨id, draft, stage⟩ := e
    cases stage with
    | claimed => exact result_setOut d id draft
    | opening attempt token limit p items =>
      exact result_resume d ⟨id, draft, attempt, token, limit, some items⟩ p
    | collecting attempt token limit p =>
      exact result_resume d ⟨id, draft, attempt, token, limit, none⟩ p
    | reading r =>
      have hr : (due ⟨id, draft, .reading r⟩).result d = Desk.wasRead id draft r.attempt (d.read r) :=
        Desk.continueReading_eq d ⟨id, draft, .reading r⟩ r
      rw [hr, Desk.advance, Desk.read]
      cases d.halt? r.attempt r.token r.idle with
      | some out => rfl
      | none =>
        dsimp only
        by_cases hp : d.isOver r.playback.pause = true
        · rw [if_pos hp, if_pos hp]
          rfl
        · rw [if_neg hp, if_neg hp]
          rfl
  | playing c items text => exact result_playOne d c text h
  | reading id draft attempt token items idle => exact result_readOne d id draft attempt token idle h
  | finishing id attempt outcome => exact result_handIn d id attempt outcome
  | storing id text attempt entry writer =>
    cases writer <;> cases h
  | stored id text attempt entry result | unwinding id attempt message => rfl
  | rests p => rfl

theorem result_callback {s s' : Stance} {calls : List Call}
    (h : s.callback? = some (calls, s')) : s'.result (performAll calls d) = s.result d := by
  unfold callback? at h
  split at h <;> cases h <;> rfl

theorem result_act (x : Desk × Stance) : (act x).2.result (act x).1 = x.2.result x.1 := by
  obtain ⟨d, s⟩ := x
  cases h : s.callback? with
  | none =>
    rw [act_of_free h]
    exact result_advance h
  | some asked =>
    rw [act_of_callback h]
    exact result_callback h

/-- Left alone, a worker gets to the end of its turn. -/
def Done (x : Desk × Stance) : Prop :=
  ∃ n, act^[n] x = ((x.2.result x.1).1, .rests (x.2.result x.1).2)

theorem Done.act {x : Desk × Stance} (h : Done (act x)) : Done x := by
  obtain ⟨n, hn⟩ := h
  rw [result_act] at hn
  exact ⟨n + 1, hn⟩

theorem Done.own {s : Stance} (h : s.callback? = none) (hd : Done (d.advance s)) : Done (d, s) :=
  .act (act_of_free h ▸ hd)

theorem Done.asks {s s' : Stance} {calls : List Call} (h : s.callback? = some (calls, s'))
    (hd : Done (performAll calls d, s')) : Done (d, s) := .act (act_of_callback h ▸ hd)

theorem done_rests (d : Desk) (p : Progress) : Done (d, rests p) := ⟨0, rfl⟩

theorem done_storing (d : Desk) (id text : String) (attempt : Nat) (entry : HistoryEntry)
    (w : Writer) : Done (d, storing id text attempt entry w) := by
  cases w <;> exact .asks rfl (.own rfl (done_rests ..))

theorem done_finishing (d : Desk) (id : String) (attempt : Nat) (outcome : ReadOutcome) :
    Done (d, finishing id attempt outcome) := by
  refine .own rfl ?_
  rw [Desk.advance]
  cases outcome with
  | completed text =>
    simp only [Desk.handIn]
    split
    · exact done_rests ..
    · split
      · exact done_storing ..
      · exact done_rests ..
  | cancelled text | failed f => exact done_rests ..

theorem done_fault (d : Desk) (c : Errand) (f : Failure) : Done (d.fault c f) := by
  rw [Desk.fault]
  split <;> exact done_finishing ..

theorem done_pause (d : Desk) (c : Errand) (p : Playback) : Done (d.pause c p) := by
  rw [Desk.pause]
  split
  · split
    · exact done_fault ..
    · exact done_rests ..
  · exact done_rests ..

theorem done_reading (id : String) (draft : Draft) (attempt : Nat) (token : Option Nat)
    (items : List Item) (idle : Option Limit) (d : Desk) :
    Done (d, reading id draft attempt token items idle) := by
  induction items generalizing idle d with
  | nil => exact .own rfl (done_finishing ..)
  | cons item rest ih =>
    cases item with
    | chunk s =>
      refine .own rfl ?_
      rw [Desk.advance, Desk.readOne]
      split
      · exact done_finishing ..
      · exact ih ..
    | fail f => exact .own rfl (done_finishing ..)
    | panic payload => exact .own rfl (done_rests ..)
    | calls calls => exact .asks rfl (ih ..)
    | delay ms | wait name | hang =>
      refine .own rfl ?_
      simp only [Desk.advance, Desk.readOne]
      split
      · exact done_rests ..
      · exact ih ..

theorem done_due_reading (d : Desk) (id : String) (draft : Draft) (r : Reader) :
    Done (d, due ⟨id, draft, .reading r⟩) := by
  refine .own rfl ?_
  rw [Desk.advance]
  split
  · exact done_finishing ..
  · split
    · exact done_reading ..
    · exact done_rests ..

theorem done_playing (c : Errand) (items : List Item) (text : String) (d : Desk) :
    Done (d, playing c items text) := by
  induction items generalizing text d with
  | nil =>
    refine .own rfl ?_
    rw [Desk.advance, Desk.playOne, Desk.arrive]
    split
    · split
      · exact done_finishing ..
      · exact done_due_reading ..
    · exact done_finishing ..
  | cons item rest ih =>
    cases item with
    | chunk s => exact .own rfl (ih ..)
    | fail f => exact .own rfl (done_fault ..)
    | panic payload => exact .own rfl (done_rests ..)
    | calls calls => exact .asks rfl (ih ..)
    | delay ms | wait name | hang =>
      refine .own rfl ?_
      simp only [Desk.advance, Desk.playOne]
      split
      · exact done_pause ..
      · exact ih ..

theorem done_resume (d : Desk) (c : Errand) (p : Playback) : Done (d.resume c p) := by
  rw [Desk.resume]
  split
  · exact done_fault ..
  · split
    · exact done_playing ..
    · exact done_pause ..

theorem done_due (d : Desk) (e : Execution) : Done (d, due e) := by
  obtain ⟨id, draft, stage⟩ := e
  cases stage with
  | claimed =>
    refine .own rfl ?_
    simp only [Desk.advance, Desk.setOut]
    split
    · split <;> exact done_rests ..
    · split <;> exact .own rfl (done_resume ..)
  | opening attempt token limit p items | collecting attempt token limit p =>
    exact .own rfl (done_resume ..)
  | reading r => exact done_due_reading ..

theorem done (x : Desk × Stance) : Done x := by
  obtain ⟨d, s⟩ := x
  cases s with
  | due e => exact done_due d e
  | playing c items text => exact done_playing c items text d
  | reading id draft attempt token items idle => exact done_reading id draft attempt token items idle d
  | finishing id attempt outcome => exact done_finishing d id attempt outcome
  | storing id text attempt entry writer => exact done_storing d id text attempt entry writer
  | stored id text attempt entry result | unwinding id attempt message =>
    exact .own rfl (done_rests ..)
  | rests p => exact done_rests d p

/-- What a turn comes to does not depend on how much of it is over. -/
theorem result_iterate (n : Nat) (x : Desk × Stance) :
    (act^[n] x).2.result (act^[n] x).1 = x.2.result x.1 := by
  induction n generalizing x with
  | zero => rfl
  | succ n ih => exact (ih (act x)).trans (result_act x)

end Stance

/-- The steps of a worker with nobody in between come exactly to the turn of its execution. -/
theorem Desk.execute_eq_iff {d d' : Desk} {e : Execution} {p : Progress} :
    d.execute e = (d', p) ↔ ∃ n, act^[n] (d, .due e) = (d', .rests p) := by
  constructor
  · intro h
    have hd := Stance.done (d, .due e)
    rwa [Stance.Done, Stance.result, h] at hd
  · rintro ⟨n, hn⟩
    have h := Stance.result_iterate n (d, .due e)
    rw [hn] at h
    exact h.symm

end PromptDesk
