import PromptDesk.Proofs.Board.Changes
import PromptDesk.Proofs.Board.Contents
import PromptDesk.Proofs.Board.Drops

/-! The latest refusal as a board shows it. An attempt takes over the counts that are shown for its
request, but not which refusal was the latest one. So until it has logged a refusal of its own there is
none to be shown, whatever the counts say. -/
namespace PromptDesk

namespace Attempt

theorem transcript_noted (a : Attempt) (n : Note) (now : Timestamp) :
    (a.noted n now).transcript = a.transcript.heed n := by
  rw [noted, record?, Transcript.heed]
  cases a.transcript.note? n <;> rfl

end Attempt

namespace Board

namespace Past

/-- The refusals of a request that were logged since an attempt was last begun, the latest first. -/
def own (past : Past) (requestId : String) : List Drop :=
  ((past.takeWhile fun p => p.2.begins?.isNone).filterMap fun p => p.2.drop? p.1).filter
    (·.requestId == requestId)

variable {past : Past} {b : Board} {u : Use} {requestId other : String}

/-- They are the latest of the refusals that count. -/
theorem own_prefix (past : Past) (requestId : String) :
    past.own requestId <+: past.drops requestId := by
  refine List.IsPrefix.filter _ (List.IsPrefix.filterMap _ ?_)
  rw [sinceOther]
  -- beginning any attempt ends the one list, only beginning one for another request the other list
  induction past with
  | nil => exact List.prefix_rfl
  | cons p past ih =>
    cases h : p.2.begins? with
    | none => simpa [h] using ih
    | some id => simp [h]

theorem head?_drops {d : Drop} (h : (past.own requestId).head? = some d) :
    (past.drops requestId).head? = some d := by
  obtain ⟨rest, hrest⟩ := past.own_prefix requestId
  rw [← hrest, List.head?_append, h]
  rfl

theorem own_begins (hu : u.begins? = some other) : own ((b, u) :: past) requestId = [] := by
  simp [own, hu]

theorem own_cons (hu : u.begins? = none) : own ((b, u) :: past) requestId =
    ((u.drop? b).filter (·.requestId == requestId)).toList ++ past.own requestId := by
  cases hd : u.drop? b with
  | none => simp [own, hu, hd]
  | some d => by_cases hid : d.requestId = requestId <;> simp [own, hu, hd, hid, Option.filter]

end Past

variable {b : Board} {i : Nat} {u : Use} {past : Past}

/-- What a note of any attempt makes of the latest refusal of the current one. -/
theorem lastDrop_note (hc : b.current = some i) (hi : i < b.attempts.length) (j : Nat) (n : Note)
    (now : Timestamp) : ((b.note j n now).attempt i).transcript.lastDrop =
      (((Use.note j n now).drop? b).map (·.reason)).or (b.attempt i).transcript.lastDrop := by
  by_cases hij : i = j
  · subst hij
    rw [attempt_note hi, Attempt.transcript_noted, Transcript.heed_eq]
    cases n <;> simp [Use.drop?, Note.reason?, hc]
  · rw [attempt_note_ne n now hij]
    cases n <;> simp [Use.drop?, hc, hij]

/-- The latest refusal that the current attempt has logged stays until it logs another one. -/
theorem InStep.lastDrop_use (h : b.InStep) (hu : u.Fits b) (hbegins : u.begins? = none)
    (hc : b.current = some i) : ((b.use u).attempt i).transcript.lastDrop =
      ((u.drop? b).map (·.reason)).or (b.attempt i).transcript.lastDrop := by
  have hi := h.bound i hc
  cases u with
  | begin requestId => cases hbegins
  | beginOwned requestId state =>
    have hfor : state.isFor requestId = false := by simpa [Use.begins?] using hbegins
    rw [Board.use, Board.beginOwned, if_neg (by simp [hfor]), Board.detached, attempt_add_of_lt hi]
    rfl
  | gatingDrop state reason source message now =>
    rw [Board.use, Board.gatingDrop]
    simp only [hc]
    split
    · rename_i hcon
      rw [lastDrop_note hc hi]
      simp [Use.drop?, hc, hcon]
    · rename_i hcon
      simp [Use.drop?, hc, hcon]
  | note j n now => exact lastDrop_note hc hi j n now
  | setAxes j requested catalog =>
    by_cases hij : i = j
    · subst hij
      rw [Board.use, attempt_setAxes hi]
      rfl
    · have hne : b.current ≠ some j := fun hj => hij (Option.some.inj (hc.symm.trans hj))
      have hleaves := leaves_use (u := .setAxes j requested catalog) rfl (hu j rfl)
        (h.others j (hu j rfl) hne)
      rw [hleaves.2 i hij]
      rfl
  | cancelRequested j state source now =>
    rw [Board.use, Board.cancelRequested]
    split
    · exact lastDrop_note hc hi j _ now
    · rfl
  | report on => rfl

theorem display_congr {b b' : Board} (h : b'.displays = b.displays) : b'.display = b.display := by
  rw [display, displayAt, h, display, displayAt]

/-- Nothing else is shown while there is no current attempt. -/
theorem InStep.display_use (h : b.InStep) (hu : u.Fits b) (hbegins : u.begins? = none)
    (hc : b.current = none) : (b.use u).display = b.display := by
  refine display_congr ?_
  cases u with
  | begin requestId => cases hbegins
  | beginOwned requestId state =>
    have hfor : state.isFor requestId = false := by simpa [Use.begins?] using hbegins
    rw [Board.use, Board.beginOwned, if_neg (by simp [hfor])]
    exact displays_add_retired ..
  | gatingDrop state reason source message now => simp [Board.use, Board.gatingDrop, hc]
  | note j | setAxes j | cancelRequested j =>
    exact (leaves_use rfl (hu j rfl) (h.others j (hu j rfl) (by simp [hc]))).1.1
  | report on => rfl

/-- The latest refusal of the current attempt is the latest one since it was begun. -/
structure Recent (past : Past) (b : Board) : Prop where
  current : ∀ i, b.current = some i → (b.attempt i).transcript.lastDrop =
    (past.own (b.attempt i).requestId).head?.map (·.reason)
  idle : b.current = none → b.display.latest.lastDrop = none ∧ ∀ id, past.own id = []

namespace Recent

theorem fresh : Recent [] {} := ⟨nofun, fun _ => ⟨rfl, fun _ => rfl⟩⟩

/-- An attempt begins without a refusal of its own. -/
theorem begins {requestId : String} (hu : u.begins? = some requestId) :
    Recent ((b, u) :: past) (b.use u) := by
  have huse := (begin_of_begins (b := b) hu).1
  have hblank := blank_begin b requestId
  refine ⟨fun i hc => ?_, fun hc => ?_⟩
  all_goals rw [huse] at hc
  · obtain rfl : (b.begin requestId).2 = i := Option.some.inj hc
    rw [huse, hblank.transcript, Past.own_begins hu]
    rfl
  · cases hc

theorem use (h : Recent past b) (hs : b.InStep) (hu : u.Fits b) :
    Recent ((b, u) :: past) (b.use u) := by
  cases hbegins : u.begins? with
  | some requestId => exact begins hbegins
  | none =>
    refine ⟨fun i hc => ?_, fun hc => ?_⟩
    all_goals rw [current_use hbegins] at hc
    · rw [hs.lastDrop_use hu hbegins hc, (follows_use b u).requestId i (hs.bound i hc),
        Past.own_cons hbegins, h.current i hc]
      cases hdrop : u.drop? b with
      | none => rfl
      | some d =>
        obtain ⟨j, hj, hid, _⟩ := hs.countsOneMore_use hdrop
        obtain rfl : j = i := Option.some.inj (hj.symm.trans hc)
        simp [hid, Option.filter]
    · obtain ⟨hlast, hown⟩ := h.idle hc
      have hdrop : u.drop? b = none := by
        cases hd : u.drop? b with
        | none => rfl
        | some d =>
          obtain ⟨j, hj, _⟩ := hs.countsOneMore_use hd
          exact absurd (hj.symm.trans hc) nofun
      refine ⟨?_, fun id => ?_⟩
      · rw [hs.display_use hu hbegins hc]
        exact hlast
      · rw [Past.own_cons hbegins, hdrop, hown]
        rfl

end Recent

theorem Came.recent (h : Came past b) : Recent past b := by
  induction h with
  | fresh => exact .fresh
  | use u hb hu ih => exact ih.use hb.used.inStep hu

/-- What is shown as the latest refusal. -/
theorem Came.lastDrop (h : Came past b) : b.display.latest.lastDrop =
    (past.own b.display.latest.requestId).head?.map fun d =>
      ⟨d.reason, b.display.latest.dropCounts.count d.reason⟩ := by
  cases hc : b.current with
  | none =>
    obtain ⟨hlast, hown⟩ := h.recent.idle hc
    rw [hlast, hown]
    rfl
  | some i =>
    have hshown := h.used.inStep.shown i hc
    have hlast : b.display.latest.lastDrop = (b.attempt i).transcript.lastDrop.map fun reason =>
        ⟨reason, b.display.latest.dropCounts.count reason⟩ := by
      rw [hshown]
      rfl
    rw [hlast, h.recent.current i hc, h.tallied.named i hc, Option.map_map]
    rfl

/-- Some refusal was counted, as long as the counts fit words. -/
theorem Came.dropTotal_pos (h : Came past b)
    (few : (past.drops b.display.latest.requestId).length < 2 ^ 64) :
    0 < b.display.latest.dropTotal ↔ past.drops b.display.latest.requestId ≠ [] := by
  rw [h.tallied.total, h.tallied.reasons, Counts.total_tally, List.length_map,
    UInt64.lt_iff_toNat_lt, UInt64.toNat_ofNat_of_lt' few]
  exact List.length_pos_iff

/-- A use shows at most one more snapshot. -/
def ShowsNext (b b' : Board) : Prop :=
  b'.display = b.display ∨ ∃ s, b'.display = b.display.publish s

theorem ShowsNext.of_displays {b b' : Board} (h : b'.displays = b.displays) : ShowsNext b b' :=
  .inl (display_congr h)

theorem showsNext_publish (b : Board) (i : Nat) : ShowsNext b (b.publish i) := by
  cases hr : (b.attempt i).retired with
  | true => exact .of_displays (congrArg displays (publish_of_retired hr))
  | false =>
    rw [publish_of_live hr, publishTo]
    generalize (b.attempt i).display = k
    generalize (b.attempt i).snapshot = s
    -- only what is published to the display of its own is a change of it
    by_cases hk : k = 0 ∧ 0 < b.displays.length
    · obtain ⟨rfl, hpos⟩ := hk
      exact .inr ⟨s, by simp [display, displayAt, hpos]⟩
    · refine .inl ?_
      simp only [display, displayAt, List.getD_eq_getElem?_getD, List.getElem?_set]
      split
      · rename_i h0
        rw [if_neg fun hpos => hk ⟨h0, h0 ▸ hpos⟩]
        simp_all
      · rfl

theorem showsNext_note (b : Board) (i : Nat) (n : Note) (now : Timestamp) :
    ShowsNext b (b.note i n now) := by
  rw [note, record]
  dsimp only
  split
  · exact .of_displays rfl
  · rename_i a e _
    split <;> exact showsNext_publish (b.setAttempt i a) i

theorem showsNext_add (b : Board) (requestId : String) (display : Nat) (reports retired : Bool) :
    ShowsNext b (b.add requestId display reports retired).1 := by
  rw [add]
  exact showsNext_publish { b with attempts := b.attempts ++ _ } _

theorem showsNext_begin (b : Board) (requestId : String) : ShowsNext b (b.begin requestId).1 := by
  have hnext := showsNext_add b.retireCurrent requestId 0 b.reporting false
  rwa [ShowsNext, display_congr (displays_retireCurrent b)] at hnext

theorem showsNext_use (b : Board) (u : Use) : ShowsNext b (b.use u) := by
  cases u with
  | begin requestId => exact showsNext_begin b requestId
  | beginOwned requestId state =>
    rw [use, beginOwned]
    split
    · exact showsNext_begin b requestId
    · exact showsNext_add b requestId 0 b.reporting true
  | gatingDrop state reason source message now =>
    rw [use, gatingDrop]
    split
    · exact .of_displays rfl
    · split
      · exact showsNext_note b _ _ now
      · exact .of_displays rfl
  | note i n now => exact showsNext_note b i n now
  | setAxes i requested catalog => exact showsNext_publish (b.setAttempt i _) i
  | cancelRequested i state source now =>
    rw [use, cancelRequested]
    split
    · exact showsNext_note b i _ now
    · exact .of_displays rfl
  | report on => exact .of_displays rfl

/-- Every snapshot shown before was the latest one once. -/
theorem Came.exists_latest (h : Came past b) {s : Snapshot} (hs : s ∈ b.display.earlier) :
    ∃ (before : Past) (b' : Board), before <:+ past ∧ Came before b' ∧ b'.display.latest = s := by
  induction h with
  | fresh => cases hs
  | @use past b u hb hu ih =>
    have hold : s = b.display.latest ∨ s ∈ b.display.earlier := by
      rcases showsNext_use b u with hsame | ⟨s', hnext⟩
      · rw [hsame] at hs
        exact .inr hs
      · rw [hnext] at hs
        exact List.mem_cons.1 hs
    rcases hold with rfl | hs
    · exact ⟨past, b, List.suffix_cons .., hb, rfl⟩
    · obtain ⟨before, b', hbefore, hb', hlatest⟩ := ih hs
      exact ⟨before, b', hbefore.trans (List.suffix_cons ..), hb', hlatest⟩

end Board

/-- A snapshot names the latest of some refusals, the latest first. -/
structure Snapshot.NamesLatest (s : Snapshot) (drops : List Board.Drop) : Prop where
  present : s.lastDrop.isSome = true ↔ 0 < s.dropTotal
  reason : ∀ c ∈ s.lastDrop, drops.head?.map (·.reason) = some c.reason
  count : ∀ c ∈ s.lastDrop, c.count = s.dropCounts.count c.reason

namespace Board

variable {past : Past} {b : Board}

/-- What a board shows as the latest refusal is the latest one that counts, with the count of its reason.
Where it shows none although some count, all of them were taken over: the attempt shown has not logged
one itself. Every snapshot shown before was the latest one at its time, so this held of it, too. -/
theorem lastDrop_shown (h : Came past b) :
    let shown := b.display.latest
    let drops := past.drops shown.requestId
    let own := past.own shown.requestId
    shown.lastDrop = own.head?.map (fun d => ⟨d.reason, shown.dropCounts.count d.reason⟩) ∧
      (∀ c ∈ shown.lastDrop, drops.head?.map (·.reason) = some c.reason ∧
        c.count = shown.dropCounts.count c.reason) ∧
      (drops.length < 2 ^ 64 → (shown.NamesLatest drops ↔ (own = [] → drops = []))) ∧
      ∀ s ∈ b.display.earlier, ∃ (before : Past) (b' : Board),
        before <:+ past ∧ Came before b' ∧ b'.display.latest = s := by
  intro shown drops own
  have hlast : shown.lastDrop = own.head?.map fun d =>
    ⟨d.reason, shown.dropCounts.count d.reason⟩ := h.lastDrop
  have told : ∀ c ∈ shown.lastDrop, drops.head?.map (·.reason) = some c.reason ∧
      c.count = shown.dropCounts.count c.reason := by
    intro c hc
    rw [hlast] at hc
    obtain ⟨d, hd, rfl⟩ := Option.map_eq_some_iff.1 hc
    exact ⟨congrArg (Option.map _) (Past.head?_drops hd), rfl⟩
  refine ⟨hlast, told, fun few => ?_, fun s hs => h.exists_latest hs⟩
  have hsome : shown.lastDrop.isSome = true ↔ own ≠ [] := by
    rw [hlast, Option.isSome_map, List.isSome_head?]
  have hsub : own ≠ [] → drops ≠ [] := fun hown hdrops =>
    hown (List.prefix_nil.1 (hdrops ▸ Past.own_prefix past _))
  have hnames : shown.NamesLatest drops ↔ (own ≠ [] ↔ drops ≠ []) := by
    rw [← hsome, ← h.dropTotal_pos few]
    exact ⟨fun h => h.present, fun h => ⟨h, fun c hc => (told c hc).1, fun c hc => (told c hc).2⟩⟩
  exact hnames.trans ⟨fun h => not_imp_not.1 h.2, fun h => ⟨hsub, mt h⟩⟩

/-- A request is begun again after two refusals, and the new attempt logs a third one, for a reason that
was given before. -/
theorem lastDrop_shown_again : ∃ (past : Past) (b : Board), Came past b ∧ past.length = 5 ∧
    b.display.latest.lastDrop = some ⟨"in_flight", 2⟩ ∧
    b.display.latest.NamesLatest (past.drops b.display.latest.requestId) := by
  let logged (reason source : String) (i : Nat) : Use :=
    .note i (.gatingDrop reason "sending" source "busy") default
  have fits (reason source : String) {i : Nat} {b : Board} (hi : i < b.attempts.length) :
      (logged reason source i).Fits b := fun j hj => by cases hj; exact hi
  have h := Came.use (.begin "req-1") .fresh nofun
  have h := Came.use (logged "in_flight" "menu" 0) h (fits _ _ (by decide +kernel))
  have h := Came.use (logged "quota" "menu" 0) h (fits _ _ (by decide +kernel))
  have h := Came.use (.begin "req-1") h nofun
  have h := Came.use (logged "in_flight" "voice" 1) h (fits _ _ (by decide +kernel))
  obtain ⟨hlast, -, hnames, -⟩ := lastDrop_shown h
  refine ⟨_, _, h, rfl, hlast.trans (by decide +kernel), ?_⟩
  exact (hnames (by decide +kernel)).2 fun hown => absurd hown (by decide +kernel)

/-- An attempt follows another one of its request, for which a refusal was counted: it shows the count
and no latest refusal. -/
theorem lastDrop_not_carried : ¬ ∀ (past : Past) (b : Board), Came past b →
    b.display.latest.NamesLatest (past.drops b.display.latest.requestId) := by
  intro h
  have hb := Came.use (.begin "req-1") .fresh nofun
  have hb := Came.use (.note 0 (.gatingDrop "in_flight" "sending" "menu" "busy") default) hb
    fun j hj => by cases hj; decide +kernel
  have hb := Came.use (.begin "req-1") hb nofun
  exact absurd (h _ _ hb).present (by decide +kernel)

end Board

end PromptDesk
