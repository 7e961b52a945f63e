import PromptDesk.Proofs.Desk.Neighbours
import PromptDesk.Proofs.Desk.Tokens

/-! Handles that cancel. As long as the work behind a handle is on the request that the handle carries,
the handle cancels it: the slot says so, and the token is tripped that the work heeds. Work that has
gone on to a request of another id, as it does when a directive is followed, is out of its reach, and
then the handle cancels nothing ever again. -/
namespace PromptDesk

open Slot (Move)

namespace Desk

/-- Handles that carry a request can cancel it. -/
def Able (d : Desk) : Prop := ∀ h ∈ d.handles, h.requestId.isSome = true → h.cancels = true

/-- A handle cancels the work on a request: it says so, the slot is that of a cancelled request, and a
token that the work heeds is tripped, which nobody did before. -/
structure Withdraws (d : Desk) (k : Nat) (t : Task) (q : String) : Prop where
  answer : (d.cancelHandle k).2 = true
  state : (d.cancelHandle k).1.slot.state =
    { phase := .cancelled, requestId := some q, cancelRequested := true }
  token : ∀ n, t.token? = some n →
    d.slot.isTripped n = false ∧ (d.cancelHandle k).1.slot.isTripped n = true

variable {d d' : Desk}

namespace Able

theorem of_handles (h : d.Able) (hh : d'.handles = d.handles) : d'.Able := by rwa [Able, hh]

theorem deeds (h : d.Able) (hd : Deeds d d') : d'.Able := by
  induction hd with
  | refl => exact h
  | tail _ hd ih =>
    cases hd with
    | slot | board | spawn => exact ih
    | aside _ _ handles _ => exact ih.of_handles handles
    | dispatch | settled =>
      intro x hx
      rcases List.mem_append.1 hx with hx | hx
      · exact ih x hx
      · rw [List.mem_singleton.1 hx]
        simp

theorem resolve (h : d.Able) (k : Nat) (report : Except Defeat Product) :
    (d.resolve k report).Able := by
  rw [Desk.resolve]
  split
  · exact h
  · intro x hx hid
    rcases List.mem_or_eq_of_mem_set hx with hx | rfl
    · exact h x hx hid
    · by_cases hk : k < d.handles.length
      · exact h (d.handle k) (by simp [handle, List.getElem?_eq_getElem hk]) hid
      · simp [handle, List.getElem?_eq_none (Nat.le_of_not_lt hk), default] at hid

theorem settle (h : d.Able) (j : Job) (e : Ending) : (d.settle j e).Able := by
  have hr := h.deeds (dealt_returned d j e).deeds
  rw [settle_eq]
  split
  · exact hr.resolve _ _
  · exact hr

theorem turnOfJob (h : d.Able) (i : Nat) : (d.turnOfJob i).Able := by
  rw [Desk.turnOfJob]
  cases (d.job i).task with
  | none => exact h
  | some t =>
    have h₀ : { d with jobs := d.jobs.set i { d.job i with task := none } }.Able := h
    have h₁ := h₀.deeds (deeds_turn _ t)
    dsimp only
    generalize Desk.turn _ t = out at h₁ ⊢
    obtain ⟨d₁, t' | e⟩ := out
    · dsimp only
      split <;> exact h₁
    · have h₂ : (d₁.await i []).Able := h₁
      exact h₂.settle (d.job i) e

end Able

end Desk

namespace Lobby

variable {x y : Lobby} {T : List (String × Nat)} {E : List String}

theorem able_turnOfGuest (h : x.desk.Able) (i : Nat) : (x.turnOfGuest i).desk.Able := by
  rw [Lobby.turnOfGuest]
  cases (x.guests.getD i default).task with
  | none => exact h
  | some t =>
    have h₁ := h.deeds (x.desk.deeds_turn t)
    dsimp only
    generalize x.desk.turn t = out at h₁ ⊢
    obtain ⟨d, t' | e⟩ := out
    · exact h₁
    · exact h₁.settle _ e

/-- The jobs that report to a handle heed the tokens of their requests. -/
structure Watched (T : List (String × Nat)) (E : List String) (x : Lobby) : Prop where
  tended : x.Tended Step.isOrderly (Desk.Heeded T) E
  watched : x.desk.Watched T
  able : x.desk.Able
  guests : ∀ j ∈ x.guests, j.handle = none

theorem Occurs.watched (hs : Occurs Step.isOrderly x y) (h : x.Watched T E) :
    ∃ T' E', y.Watched T' E' := by
  obtain ⟨E', _, htended⟩ := hs.happens.tended (Desk.custody_heeded T) h.tended
  obtain ⟨tended, watched, able, guests⟩ := h
  have hfiles : x.desk.Files y.desk → y.desk.Able → (∀ j ∈ y.guests, j.handle = none) →
      ∃ T' E', y.Watched T' E' := fun hf ha hg => ⟨T, E', htended, watched.files hf, ha, hg⟩
  cases hs with
  | step s hs =>
    have hd := fun d : Desk => (d.dealt_perform s).deeds
    exact hfiles (.of_deeds (hd _)) (able.deeds (hd _)) guests
  | @arrival d d' gs source id q hq hc =>
    have hd := (d.dealt_claim source).deeds
    rw [hc] at hd
    refine hfiles (.of_deeds hd) (able.deeds hd) fun j hj => ?_
    rcases List.mem_append.1 hj with hj | hj
    · exact guests j hj
    · rw [List.mem_singleton.1 hj]
      rfl
  | @refusal d d' gs source message reason hc =>
    have hd := (d.dealt_claim source).deeds
    rw [hc] at hd
    exact hfiles (.of_deeds hd) (able.deeds hd) guests
  | visit j hj hh =>
    refine hfiles (.of_eq rfl rfl) able fun k hk => ?_
    rcases List.mem_append.1 hk with hk | hk
    · exact guests k hk
    · rwa [List.mem_singleton.1 hk]
  | guest _ i =>
    obtain ⟨hf, hg⟩ := files_turnOfGuest guests i
    exact hfiles hf (able_turnOfGuest able i) hg
  | job i =>
    obtain ⟨E', T', hE, hd, hw⟩ := Desk.Heeding.turnOfJob tended.desk watched i
    exact ⟨T', E', ⟨hd, fun j hj => (tended.guests j hj).mono hE⟩, hw, able.turnOfJob i, guests⟩
  | quiet hq handles jobs => exact hfiles (.of_eq handles jobs) (able.of_handles handles) guests

theorem Watched.run (h : x.Watched T E) (run : Relation.ReflTransGen (Occurs Step.isOrderly) x y) :
    ∃ T' E', y.Watched T' E' := by
  induction run with
  | refl => exact ⟨T, E, h⟩
  | tail _ hs ih =>
    obtain ⟨T', E', h'⟩ := ih
    exact hs.watched h'

theorem watched_opened {setup : Setup} {replies : List Reply} {reporting : Bool}
    (behaves : (Desk.opened setup replies reporting).Behaves Step.isOrderly) :
    Watched [] [] ⟨Desk.opened setup replies reporting, []⟩ where
  tended := tended_opened ⟨⟨⟨.refl, by simp⟩, by simp, False.elim⟩, by simp⟩ behaves
  watched := by simp [Desk.Watched, Desk.opened]
  able := by simp [Desk.Able, Desk.opened]
  guests := by simp

/-- Work that holds the slot heeds the current token. -/
theorem Watched.armed (h : x.Watched T E) (hb : x.desk.slot.Unwrapped) {j : Job} {t : Task}
    {q : String} {n : Nat} (mem : j ∈ x.desk.jobs) (reports : j.handle.isSome = true)
    (task : j.task = some t) (works : t.under? = some q)
    (inFlight : x.desk.slot.state.holds q = true) (token : t.token? = some n) :
    x.desk.slot.armed = n :=
  ((h.tended.desk.custody.heeded _ (h.watched j mem reports t task q n works token)).2 hb).2 inFlight

/-- A request that is past is never cancelled by a handle that carries it. -/
theorem cancelHandle_of_past {r : String}
    (h : x.Tended Step.isOrderly (Desk.Sorted r True) E) (hb : x.desk.slot.Unwrapped) {k : Nat}
    {handle : Handle} (hk : x.desk.handles[k]? = some handle) (hr : handle.requestId = some r) :
    x.desk.cancelHandle k = (x.desk, false) := by
  have hh : x.desk.handle k = handle := by simp [Desk.handle, hk]
  rcases Desk.cancelHandle_cases h.desk.labelled k with ⟨id, hid, hholds, _⟩ | ⟨_, he⟩
  · rw [hh, hr] at hid
    have hn := ((h.desk.custody.past trivial).2 hb).2
    rw [Option.some.inj hid, hholds] at hn
    cases hn
  · exact he

/-- A handle cancels the work behind it while the work is on the request that the handle carries. Once
it is on another request that holds the slot, no handle that carries the former one ever cancels
anything again. -/
theorem withdraws_of_works {setup : Setup} {replies : List Reply} {reporting : Bool} {y : Lobby}
    {j : Job} {t : Task} {k : Nat} {h : Handle} {r q : String}
    (behaves : (Desk.opened setup replies reporting).Behaves Step.isOrderly)
    (run : Relation.ReflTransGen (Occurs Step.isOrderly) ⟨Desk.opened setup replies reporting, []⟩ y)
    (unwrapped : y.desk.slot.Unwrapped) (mem : j ∈ y.desk.jobs) (reports : j.handle = some k)
    (handle : y.desk.handles[k]? = some h) (carries : h.requestId = some r)
    (task : j.task = some t) (works : t.under? = some q)
    (inFlight : y.desk.slot.state.holds q = true) :
    (q = r → y.desk.Withdraws k t q) ∧
      (q ≠ r → ∀ z, Relation.ReflTransGen (Occurs Step.isOrderly) y z → z.desk.slot.Unwrapped →
        ∀ i h', z.desk.handles[i]? = some h' → h'.requestId = some r →
          z.desk.cancelHandle i = (z.desk, false)) := by
  refine ⟨?_, fun hne z hz hb i h' hi hr => ?_⟩
  · rintro rfl
    obtain ⟨T, E, hy⟩ := (watched_opened behaves).run run
    have hh : y.desk.handle k = h := by simp [Desk.handle, handle]
    have sound := hy.tended.desk.custody.reach.sound Slot.sound_new
    have hcancel : y.desk.cancelHandle k = (y.desk.moved (.cancel q), true) := by
      rcases Desk.cancelHandle_cases hy.tended.desk.labelled k with ⟨id, hid, _, he⟩ | ⟨hn, _⟩
      · rw [hh, carries] at hid
        rw [he, Option.some.inj hid]
      · have hable := hy.able h (List.mem_of_getElem? handle) (by simp [carries])
        have hlost := hn q (by rwa [hh]) (by rw [hh, carries])
        rw [inFlight] at hlost
        cases hlost
    refine ⟨by rw [hcancel], by rw [hcancel]; rfl, fun n hn => ?_⟩
    obtain rfl := hy.armed unwrapped mem (by simp [reports]) task works inFlight hn
    refine ⟨sound.untripped (PhaseState.holds_iff.1 inFlight).2, ?_⟩
    rw [hcancel]
    simp [Slot.isTripped, Move.after, Move.tokens, sound.inRange]
  · obtain ⟨past, E, hy⟩ := (accounts_opened r behaves).run run
    have hpast : past := by
      refine (hy.reports.isOn mem task ⟨k, h, reports, handle, carries⟩).resolve_right fun hon => ?_
      cases t with
      | request request sequel =>
        exact hne (Option.some.inj (works.symm.trans hon.1))
      | execution e sequel => exact hne ((Option.some.inj works).symm.trans hon)
      | _ => exact hon
    have hruns : Run Step.isOrderly y z :=
      Relation.ReflTransGen.mono (fun _ _ hs => Occurs.happens hs) _ _ hz
    obtain ⟨E', _, hz'⟩ := hruns.tended (Desk.custody_sorted r True)
      (hy.tended.imp fun _ hs => hs.imp fun _ => hpast)
    exact cancelHandle_of_past hz' hb hi hr

end Lobby

/-- A job has something to do for a request and reports to a handle. -/
def Desk.worksFor (d : Desk) (k : Nat) (q : String) : Bool :=
  d.jobs.any fun j => j.handle == some k && (j.task.bind Task.under? == some q)

theorem Desk.exists_job (d : Desk) {k : Nat} {q : String} (h : d.worksFor k q = true) :
    ∃ j ∈ d.jobs, j.handle = some k ∧ ∃ t, j.task = some t ∧ t.under? = some q := by
  simpa [Desk.worksFor, Option.bind_eq_some_iff] using h

namespace Lobby

/-- A stream is being read for a submission, which may yet be followed by a delegate. -/
theorem withdraws_while_reading :
    let opened := Desk.opened { delegates := true } [⟨[], [.chunk "x", .wait "go"]⟩] true
    let x : Lobby := ⟨((Step.submit (.mk "a" [] none none ∅) "k1" "h").perform opened).1.turnOfJob 0, []⟩
    Relation.ReflTransGen (Occurs Step.isOrderly) ⟨opened, []⟩ x ∧ x.desk.slot.Unwrapped ∧
      x.desk.slot.state.holds "req-1" = true ∧ ∃ h, x.desk.handles[0]? = some h ∧
        h.requestId = some "req-1" ∧ ∃ j ∈ x.desk.jobs, j.handle = some 0 ∧
          ∃ t, j.task = some t ∧ t.under? = some "req-1" ∧ x.desk.Withdraws 0 t "req-1" := by
  intro opened x
  have run : Relation.ReflTransGen (Occurs Step.isOrderly) ⟨opened, []⟩ x :=
    (Relation.ReflTransGen.single (.step (.submit (.mk "a" [] none none ∅) "k1" "h") rfl)).tail (.job 0)
  have unwrapped : x.desk.slot.Unwrapped := by
    rw [Slot.Unwrapped]
    decide +kernel
  have inFlight : x.desk.slot.state.holds "req-1" = true := by decide +kernel
  have behaves : opened.Behaves Step.isOrderly :=
    ⟨by simp [opened, Desk.opened], by simp [opened, Desk.opened, Reply.all, Item.allIn, Item.all]⟩
  have hlen : 0 < x.desk.handles.length := by decide +kernel
  have handle : x.desk.handles[0]? = some (x.desk.handle 0) := by
    simp [Desk.handle, List.getElem?_eq_getElem hlen]
  have carries : (x.desk.handle 0).requestId = some "req-1" := by decide +kernel
  obtain ⟨j, mem, reports, t, task, works⟩ :=
    x.desk.exists_job (k := 0) (q := "req-1") (by decide +kernel)
  exact ⟨run, unwrapped, inFlight, _, handle, carries, j, mem, reports, t, task, works,
    (withdraws_of_works behaves run unwrapped mem reports handle carries task works inFlight).1 rfl⟩

/-- The directive of a controller was followed, and the delegate waits for its stream. The handle has
not reported, and cancels nothing. -/
theorem not_withdraws_of_delegate :
    let directive : Reply := ⟨[], [.chunk "\x7b\"action\":\"delegate\",\"prompt\":\"b\"\x7d"]⟩
    let opened := Desk.opened { delegates := true } [directive, ⟨[], [.wait "go"]⟩] true
    let x : Lobby := ⟨((Step.submit (.mk "a" [] none none ∅) "k1" "h").perform opened).1.turnOfJob 0, []⟩
    Relation.ReflTransGen (Occurs Step.isOrderly) ⟨opened, []⟩ x ∧ x.desk.slot.Unwrapped ∧
      (x.desk.handle 0).report = none ∧ x.desk.slot.state.holds "req-2" = true ∧
      (x.desk.cancelHandle 0).2 = false ∧ ∃ j ∈ x.desk.jobs, j.handle = some 0 ∧
        ∃ t, j.task = some t ∧ t.under? = some "req-2" ∧ ¬ x.desk.Withdraws 0 t "req-2" := by
  intro directive opened x
  have run : Relation.ReflTransGen (Occurs Step.isOrderly) ⟨opened, []⟩ x :=
    (Relation.ReflTransGen.single (.step (.submit (.mk "a" [] none none ∅) "k1" "h") rfl)).tail (.job 0)
  have refused : (x.desk.cancelHandle 0).2 = false := by decide +kernel
  obtain ⟨j, mem, reports, t, task, works⟩ :=
    x.desk.exists_job (k := 0) (q := "req-2") (by decide +kernel)
  refine ⟨run, by rw [Slot.Unwrapped]; decide +kernel, ?_, by decide +kernel, refused, j, mem, reports,
    t, task, works, fun hw => ?_⟩
  · rw [← Option.isNone_iff_eq_none]
    decide +kernel
  · rw [hw.answer] at refused
    cases refused

end Lobby

end PromptDesk
