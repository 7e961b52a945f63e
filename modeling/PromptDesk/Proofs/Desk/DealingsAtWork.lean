import PromptDesk.Proofs.Desk.Dealings

/-! Work in the background is done in dealings as well: items are played, streams are read, executions
end and directives are followed, and nothing more happens to the desk in any turn. Whatever is done
at a desk, it goes on: no tripped token is armed again, and the board grows. -/
namespace PromptDesk.Desk

variable {d : Desk}

theorem dealt_recordLogEntry (d : Desk) (i : Nat) (w : Writer) :
    Dealt d (d.recordLogEntry i w).1 := by
  have h : ∀ calls, Dealt d (performAll calls (d.beginLogEntry i).1) := fun calls =>
    (dealings_beginLogEntry d fun _ => trivial).trans (dealt_performAll calls _)
  cases w with
  | mk calls result => exact (h calls).trans (dealings_endLogEntry _ _ _ fun _ _ => trivial)
  | panic calls payload => exact h calls

theorem dealt_collectItems (items : List Item) (text : String) (d : Desk) :
    Dealt d (collectItems items text d).1 := by
  induction items generalizing text d with
  | nil => exact .refl
  | cons item rest ih =>
    cases item with
    | chunk s => exact ih (text ++ s) d
    | fail f | panic payload => exact .refl
    | calls calls => exact (dealt_performAll calls d).trans (ih text _)
    | delay ms | wait name | hang =>
      simp only [collectItems]
      split
      · exact .refl
      · exact ih text d

theorem dealt_collectWithin (d : Desk) (limit : Option Limit) (p : Playback) :
    Dealt d (d.collectWithin limit p).1 := by
  have hc : Dealt d (d.collect p).1 := by
    rw [collect]
    split
    · exact dealt_collectItems ..
    · exact .refl
  rw [collectWithin]
  split
  · rename_i he
    rw [he] at hc
    split
    · split <;> exact hc
    · exact hc
  · exact hc

theorem dealt_halt {attempt : Nat} {token : Option Nat} {idle : Option Limit}
    {out : Desk × ReadOutcome} (h : d.halt? attempt token idle = some out) : Dealt d out.1 := by
  unfold halt? at h
  split at h
  · cases h
    exact .refl
  · split at h
    · split at h
      · cases h
        exact dealt_note ..
      · cases h
    · cases h

theorem dealt_readItems (attempt : Nat) (token : Option Nat) (items : List Item)
    (idle : Option Limit) (d : Desk) : Dealt d (readItems attempt token items idle d).1 := by
  induction items generalizing idle d with
  | nil => exact dealt_note ..
  | cons item rest ih =>
    cases item with
    | chunk s =>
      rw [readItems]
      split
      · rename_i hh
        exact (dealt_note d attempt (.chunk s)).trans (dealt_halt hh)
      · exact (dealt_note d attempt (.chunk s)).trans (ih _ _)
    | fail f => exact dealt_note ..
    | panic payload => exact .refl
    | calls calls => exact (dealt_performAll calls d).trans (ih idle _)
    | delay ms | wait name | hang =>
      simp only [readItems]
      split
      · exact .refl
      · exact ih idle d

theorem dealt_read (d : Desk) (r : Reader) : Dealt d (d.read r).1 := by
  rw [read]
  split
  · exact dealt_halt ‹_›
  · split
    · exact dealt_readItems ..
    · exact .refl

theorem dealt_finish (d : Desk) (id : String) (attempt : Nat) (outcome : ReadOutcome) :
    Dealt d (d.finish id attempt outcome).1 := by
  cases outcome with
  | completed text =>
    rw [finish]
    split
    · exact dealt_note ..
    · rename_i s hs
      have h : Dealt d { d.withSlot s with
          conversation := { d.conversation with lastResponse := Text.trim text } } :=
        (Dealings.slot (Slot.remembers_applyFor? hs)).trans (.aside (aside_conversation _ _))
      dsimp only
      split
      · rename_i w _
        have hr := h.trans (dealt_recordLogEntry _ attempt w)
        split <;> rename_i he <;> exact congrArg Prod.fst he ▸ hr
      · exact h
  | cancelled text =>
    rw [finish]
    dsimp only
    split
    · exact (Dealings.slot (Slot.remembers_cancelFor? ‹_›)).trans (dealt_note ..)
    · exact dealt_note ..
  | failed f => exact dealings_failOwned d id f

theorem dealt_transportFailed (d : Desk) (id : String) (attempt : Nat) (f : Failure) :
    Dealt d (d.transportFailed id attempt f).1 := by
  rw [transportFailed]
  split
  · exact dealt_finish ..
  · exact (dealt_note d attempt _).trans (dealt_finish ..)

theorem dealt_continueReading (d : Desk) (e : Execution) (r : Reader) :
    Dealt d (d.continueReading e r).1 := by
  have h := dealt_read d r
  rw [continueReading]
  split
  · rename_i he
    rwa [he] at h
  · rename_i he
    rw [he] at h
    exact h.trans (dealt_finish ..)
  · rename_i he
    rwa [he] at h

theorem dealt_streamOpened (d : Desk) (e : Execution) (attempt token : Nat) (items : List Item) :
    Dealt d (d.streamOpened e attempt token items).1 := by
  rw [streamOpened]
  split
  · exact dealt_finish ..
  · exact (Dealings.slot (Slot.remembers_applyFor? ‹_›)).trans (dealt_continueReading ..)

theorem dealt_continueOpening (d : Desk) (e : Execution) (attempt token : Nat)
    (limit : Option Limit) (p : Playback) (items : List Item) :
    Dealt d (d.continueOpening e attempt token limit p items).1 := by
  have h := dealt_collectWithin d limit p
  rw [continueOpening]
  split
  · exact dealt_transportFailed ..
  · split
    all_goals
      rename_i he
      rw [he] at h
    · exact h
    · exact h.trans (dealt_streamOpened ..)
    · exact h.trans (dealt_transportFailed ..)
    · exact h

theorem dealt_textArrived (d : Desk) (id : String) (attempt : Nat) (text : String) :
    Dealt d (d.textArrived id attempt text).1 :=
  ((dealt_note d attempt (.chunk text)).trans (dealt_note _ attempt .complete)).trans
    (dealt_finish ..)

theorem dealt_continueCollecting (d : Desk) (e : Execution) (attempt token : Nat)
    (limit : Option Limit) (p : Playback) :
    Dealt d (d.continueCollecting e attempt token limit p).1 := by
  have h := dealt_collectWithin d limit p
  rw [continueCollecting]
  split
  · exact dealt_transportFailed ..
  · split
    all_goals
      rename_i he
      rw [he] at h
    · exact h
    · exact h.trans (dealt_textArrived ..)
    · exact h.trans (dealt_transportFailed ..)
    · exact h

theorem dealings_callTransport {ok : Board.Use → Prop} (d : Desk) (r : TransportRequest) :
    Dealings ok d (d.callTransport r).1 := .aside ⟨rfl, rfl, rfl, rfl, rfl, rfl, rfl, rfl, rfl, rfl⟩

theorem dealt_launch (d : Desk) (e : Execution) : Dealt d (d.launch e).1 := by
  rw [launch]
  split
  · split
    · exact .single (.forgoes ..)
    · exact .refl
  · have h : Dealt d (d.beginAttempt e.requestId e.draft.axes).1 := .single (.begins ..)
    generalize d.beginAttempt e.requestId e.draft.axes = out at h ⊢
    obtain ⟨d₁, attempt⟩ := out
    have h := Dealings.trans h (dealings_callTransport d₁ ⟨e.requestId, e.draft.messages⟩)
    dsimp only at h ⊢
    split
    · exact h.trans (dealt_continueOpening ..)
    · exact h.trans (dealt_continueCollecting ..)

/-- A turn of an execution is a number of deeds. -/
theorem dealt_execute (d : Desk) (e : Execution) : Dealt d (d.execute e).1 := by
  rw [execute]
  split
  · exact dealt_launch ..
  · exact dealt_continueOpening ..
  · exact dealt_continueCollecting ..
  · exact dealt_continueReading ..

theorem dealt_send (d : Desk) (draft : Draft) : Dealt d (d.send draft).1 := by
  have h : Dealt d (d.enter draft).1 := dealings_enter d draft
  rw [send]
  split
  · rename_i he
    rw [he] at h
    exact h.trans (dealt_execute ..)
  · rename_i he
    rw [he] at h
    exact h.trans (.single (.forgoes ..))

theorem dealt_run (d : Desk) (r : Request) : Dealt d (d.run r).1 := by
  have h := dealt_gather r.sources d
  rw [run]
  split
  · rename_i he
    rwa [he] at h
  · rename_i he
    rw [he] at h
    exact (h.trans (dealings_prepare ..)).trans (dealt_send ..)

theorem dealt_proceedToResult (d : Desk) (destination : Destination) (p : Progress) :
    Dealt d (d.proceedToResult destination p).1 := by
  cases p with
  | waiting e | panicked message => exact .refl
  | ended r => exact dealings_conclude d destination r

theorem dealt_runLast (d : Desk) (r : Request) : Dealt d (d.runLast r).1 := by
  have h := dealt_run d r
  rw [runLast]
  split
  · rename_i he
    rwa [he] at h
  · rename_i he
    rw [he] at h
    exact h.trans (dealt_proceedToResult ..)

theorem dealt_follow (d : Desk) (r : Request) (gated : Bool) (result : PromptResult) :
    Dealt d (d.follow r gated result).1 := by
  simp only [follow]
  split
  · exact .refl
  · split
    · exact .refl
    · have h : Dealt d (if gated then d.claim delegateSource else (d, .allowed none)).1 := by
        split
        · exact dealt_claim d delegateSource
        · exact .refl
      split
      · rename_i he
        rwa [he] at h
      · rename_i he
        rw [he] at h
        exact h.trans (dealt_runLast ..)

theorem dealt_proceed (d : Desk) (destination : Destination) (sequel : Sequel) (p : Progress) :
    Dealt d (d.proceed destination sequel p).1 := by
  cases p with
  | waiting e | panicked message => cases sequel <;> exact .refl
  | ended r =>
    cases sequel with
    | respond => exact .refl
    | conclude => exact dealt_proceedToResult ..
    | delegate request gated => exact (dealings_conclude d destination r).trans (dealt_follow ..)

/-- A turn of a task is a number of deeds, unless the task is to call a presenter. -/
theorem dealt_turn (d : Desk) {t : Task} (h : t.isPresenter = false) : Dealt d (d.turn t).1 := by
  cases t with
  | request r sequel =>
    have h := dealt_run d r
    rw [turn]
    split
    · rename_i he
      rwa [he] at h
    · rename_i he
      rw [he] at h
      exact h.trans (dealt_proceed ..)
  | execution e sequel => exact (dealt_execute d e).trans (dealt_proceed ..)
  | collect limit p =>
    have h := dealt_collectWithin d limit p
    rw [turn]
    split
    all_goals
      rename_i he
      rwa [he] at h
  | read r =>
    have h := dealt_read d r
    rw [turn]
    split
    all_goals
      rename_i he
      rwa [he] at h
  | await handle limit =>
    rw [turn]
    split
    · exact .refl
    · split <;> exact .refl
  | sleep due =>
    rw [turn]
    split <;> exact .refl
  | present handle quiet => cases h
  | exports interval due =>
    simp only [turn]
    split
    · exact .single (.exports d)
    · split
      · exact .refl
      · split
        · exact .refl
        · split
          · exact .single (.exports d)
          · exact .refl

/-- A presenter that is called is told one thing, if anything. -/
theorem turn_of_isPresenter (d : Desk) {t : Task} (h : t.isPresenter = true) :
    (d.turn t).1 = d ∨ ∃ e : Effect, e.presentation?.isSome = true ∧ (d.turn t).1 = d.write e := by
  cases t with
  | present k quiet =>
    rw [turn]
    split
    · exact .inl rfl
    · exact .inr ⟨_, rfl, rfl⟩
    · split
      · exact .inl rfl
      · exact .inr ⟨_, rfl, rfl⟩
  | _ => cases h

theorem deeds_turn (d : Desk) (t : Task) : Deeds d (d.turn t).1 := by
  cases h : t.isPresenter with
  | false => exact (dealt_turn d h).deeds
  | true =>
    rcases turn_of_isPresenter d h with he | ⟨e, _, he⟩
    · rw [he]
    · rw [he]
      exact .aside rfl rfl rfl rfl

/-- What a job that has ended gives back, before it reports. -/
def returned (d : Desk) (j : Job) (e : Ending) : Desk :=
  match e, j.owner with
  | .failure f, some id => d.failOwned id f
  | _, _ => d

theorem settle_eq (d : Desk) (j : Job) (e : Ending) : d.settle j e =
    match j.handle with
    | some k => (d.returned j e).resolve k e.report
    | none => d.returned j e := rfl

theorem dealt_returned (d : Desk) (j : Job) (e : Ending) : Dealt d (d.returned j e) := by
  unfold returned
  split
  · exact dealings_failOwned ..
  · exact .refl

/-- Only the work in the background has changed: who waits for what, whose turn it is, and what is left
to do. -/
structure Backstage (d d' : Desk) : Prop where
  setup : d'.setup = d.setup
  slot : d'.slot = d.slot
  gate : d'.gate = d.gate
  board : d'.board = d.board
  stopped : d'.stopped = d.stopped
  journal : d'.journal = d.journal

theorem respected_turn {R : Desk → Desk → Prop} (refl : ∀ d, R d d)
    (dealt : ∀ {d d'}, Dealt d d' → R d d')
    (presents : ∀ {d} {e : Effect}, e.presentation?.isSome = true → R d (d.write e)) (d : Desk)
    (t : Task) : R d (d.turn t).1 := by
  cases h : t.isPresenter with
  | false => exact dealt (dealt_turn d h)
  | true =>
    rcases turn_of_isPresenter d h with he | ⟨e, hp, he⟩
    · rw [he]
      exact refl d
    · rw [he]
      exact presents hp

section

variable {R : Desk → Desk → Prop} (refl : ∀ d, R d d)
  (trans : ∀ {d d' d''}, R d d' → R d' d'' → R d d'')
  (dealt : ∀ {d d'}, Dealt d d' → R d d')
  (presents : ∀ {d} {e : Effect}, e.presentation?.isSome = true → R d (d.write e))
  (backstage : ∀ {d d'}, Backstage d d' → R d d')
include refl trans dealt backstage

theorem respected_settle (d : Desk) (j : Job) (e : Ending) : R d (d.settle j e) := by
  have h : R d (d.returned j e) := dealt (dealt_returned d j e)
  rw [settle_eq]
  split
  · refine trans h ?_
    rw [resolve]
    split
    · exact refl _
    · exact backstage ⟨rfl, rfl, rfl, rfl, rfl, rfl⟩
  · exact h

include presents

/-- What everything that is done at a desk respects, the turn of any job respects. -/
theorem respected_turnOfJob (d : Desk) (i : Nat) : R d (d.turnOfJob i) := by
  rw [turnOfJob]
  cases (d.job i).task with
  | none => exact refl d
  | some t =>
    have h₀ : R d { d with jobs := d.jobs.set i { d.job i with task := none } } :=
      backstage ⟨rfl, rfl, rfl, rfl, rfl, rfl⟩
    have h := trans h₀ (respected_turn refl dealt presents _ t)
    dsimp only
    generalize turn _ t = out at h ⊢
    obtain ⟨d₁, t' | e⟩ := out
    · refine trans h (backstage ?_)
      dsimp only
      split <;> exact ⟨rfl, rfl, rfl, rfl, rfl, rfl⟩
    · have hw : R d₁ (d₁.await i []) := backstage ⟨rfl, rfl, rfl, rfl, rfl, rfl⟩
      exact trans h (trans hw (respected_settle refl trans dealt backstage _ (d.job i) e))

end

/-- From one moment to another no tripped token was armed again, and the board grew. -/
structure GoesOn (d d' : Desk) : Prop where
  slot : d.slot.Remembers d'.slot
  board : d.board.Follows d'.board

namespace GoesOn

variable {d' d'' : Desk}

theorem of_eq (hs : d'.slot = d.slot) (hb : d'.board = d.board) : GoesOn d d' :=
  ⟨hs ▸ .refl _, hb ▸ .refl _⟩

theorem refl (d : Desk) : GoesOn d d := of_eq rfl rfl

theorem trans (h : GoesOn d d') (h' : GoesOn d' d'') : GoesOn d d'' :=
  ⟨fun k hk => h'.slot k (h.slot k hk), h.board.trans h'.board⟩

theorem of_deed (h : Deed d d') : GoesOn d d' := by
  cases h with
  | slot h => exact ⟨h, .refl _⟩
  | board h => exact ⟨.refl _, h.trans (.of_eq rfl rfl)⟩
  | spawn | dispatch | settled => exact of_eq rfl rfl
  | aside slot board _ _ => exact of_eq slot board

theorem of_deeds (h : Deeds d d') : GoesOn d d' := by
  induction h with
  | refl => exact refl d
  | tail _ hd ih => exact ih.trans (of_deed hd)

end GoesOn

theorem goesOn_perform (d : Desk) (s : Step) : GoesOn d (s.perform d).1 :=
  .of_deeds (d.dealt_perform s).deeds

theorem goesOn_performAll (d : Desk) (calls : List Call) : GoesOn d (performAll calls d) :=
  .of_deeds (dealt_performAll calls d).deeds

/-- In the turn of any job the desk goes on. -/
theorem goesOn_turnOfJob (d : Desk) (i : Nat) : GoesOn d (d.turnOfJob i) :=
  respected_turnOfJob .refl .trans (fun h => .of_deeds h.deeds) (fun _ => .of_eq rfl rfl)
    (fun h => .of_eq h.slot h.board) d i

end PromptDesk.Desk
