import Mathlib
import PromptDesk.Proofs.Counts
import PromptDesk.Proofs.Board.Published

/-! Refusals as a board shows them. An attempt takes over what is shown for its request and adds what
it logs itself, so what is shown for a request counts each refusal once that was logged on a current
attempt of that request, over any number of attempts, until one is begun for another request. -/
namespace PromptDesk

namespace Board

/-- A refusal with the request of the attempt that logged it. -/
structure Drop where
  requestId : String
  reason : String
  source : String

namespace Use

/-- The request that an attempt is begun for. A detached attempt is not begun. -/
def begins? : Use → Option String
  | begin requestId => some requestId
  | beginOwned requestId state => if state.isFor requestId then some requestId else none
  | gatingDrop .. | note .. | setAxes .. | cancelRequested .. | report _ => none

/-- The refusal that the current attempt logs, be it routed to it or noted on it. -/
def drop? (b : Board) : Use → Option Drop
  | gatingDrop state reason source _ _ =>
    b.current.bind fun i =>
      if concerns state (b.attempt i) then some ⟨(b.attempt i).requestId, reason.code, source⟩
      else none
  | note i (.gatingDrop reason _ source _) _ =>
    if b.current = some i then some ⟨(b.attempt i).requestId, reason, source⟩ else none
  | _ => none

end Use

/-- Uses, each with the board that it was made of, the latest first. -/
abbrev Past := List (Board × Use)

/-- What has become of a fresh board, and how. -/
inductive Came : Past → Board → Prop
  | fresh : Came [] {}
  | use {past : Past} {b : Board} (u : Use) : Came past b → u.Fits b → Came ((b, u) :: past) (b.use u)

namespace Past

/-- The uses since an attempt was last begun for another request. -/
def sinceOther (past : Past) (requestId : String) : Past :=
  past.takeWhile fun p => p.2.begins?.all (· == requestId)

/-- The refusals that current attempts of a request have logged since an attempt was last begun for
another request, the latest first. -/
def drops (past : Past) (requestId : String) : List Drop :=
  ((past.sinceOther requestId).filterMap fun p => p.2.drop? p.1).filter
    (·.requestId == requestId)

variable {past : Past} {b : Board} {u : Use} {requestId : String}

theorem drops_begins {other : String} (hu : u.begins? = some other) (hne : requestId ≠ other) :
    drops ((b, u) :: past) requestId = [] := by
  have h : (other == requestId) = false := beq_eq_false_iff_ne.2 hne.symm
  simp [drops, sinceOther, hu, h]

/-- Beginning another attempt of the same request logs nothing. -/
theorem drops_begins_self (hu : u.begins? = some requestId) (hd : u.drop? b = none) :
    drops ((b, u) :: past) requestId = drops past requestId := by
  simp [drops, sinceOther, hu, hd]

theorem drops_none (hu : u.begins? = none) (hd : u.drop? b = none) :
    drops ((b, u) :: past) requestId = drops past requestId := by
  simp [drops, sinceOther, hu, hd]

theorem drops_some {d : Drop} (hu : u.begins? = none) (hd : u.drop? b = some d) :
    drops ((b, u) :: past) requestId =
      if d.requestId = requestId then d :: drops past requestId else drops past requestId := by
  simp [drops, sinceOther, hu, hd, List.filter_cons]

end Past

theorem Came.used {past : Past} {b : Board} (h : Came past b) : b.Used := by
  induction h with
  | fresh => exact .fresh
  | use u _ hu ih => exact .use u ih hu

/-- Two snapshots that count the same refusals for the same request. -/
structure CountsSame (s s' : Snapshot) : Prop where
  requestId : s'.requestId = s.requestId
  reasons : s'.dropCounts = s.dropCounts
  sources : s'.dropSources = s.dropSources
  total : s'.dropTotal = s.dropTotal

theorem CountsSame.refl (s : Snapshot) : CountsSame s s := ⟨rfl, rfl, rfl, rfl⟩

theorem CountsSame.of_displays {b b' : Board} (h : b'.displays = b.displays) :
    CountsSame b.display.latest b'.display.latest := by
  rw [display, displayAt, ← h]
  exact .refl _

/-- A snapshot that counts one more refusal. -/
structure CountsOneMore (s s' : Snapshot) (reason source : String) : Prop where
  requestId : s'.requestId = s.requestId
  reasons : s'.dropCounts = s.dropCounts.bump reason
  sources : s'.dropSources = s.dropSources.bump source
  total : s'.dropTotal = s'.dropCounts.total

theorem countsSame_of {t t' : Transcript} (base : Baseline) (hid : t'.requestId = t.requestId)
    (hc : t'.dropCounts = t.dropCounts) (hs : t'.dropSources = t.dropSources) :
    CountsSame (.of t base) (.of t' base) := by
  constructor <;> simp [Snapshot.of, hid, hc, hs]

theorem countsOneMore_of (t : Transcript) (base : Baseline) (reason source : String) :
    CountsOneMore (.of t base) (.of (t.gatingDrop reason source) base) reason source :=
  ⟨rfl, Counts.merge_bump .., Counts.merge_bump .., rfl⟩

/-- A note other than a refusal leaves the counts of a transcript as they are. -/
theorem countsSame_note {t t' : Transcript} {n : Note} (base : Baseline) (h : t.note? n = some t')
    (hn : n.kind ≠ .gatingDrop) : CountsSame (.of t base) (.of t' base) := by
  cases n with
  | gatingDrop => exact absurd rfl hn
  | chunk text =>
    simp only [Transcript.note?, Transcript.chunk?] at h
    split at h
    · cases h
      exact countsSame_of base rfl rfl rfl
    · cases h
  | complete =>
    simp only [Transcript.note?, Transcript.complete?] at h
    split at h
    · cases h
    · cases h
      exact countsSame_of base rfl rfl rfl
  | _ =>
    cases h
    exact countsSame_of base rfl rfl rfl

variable {b : Board} {i : Nat}

/-- What is shown once the current attempt was worked on. -/
theorem InStep.latest_revise (h : b.InStep) (hc : b.current = some i) {a : Attempt}
    (hdisplay : a.display = (b.attempt i).display) (hretired : a.retired = (b.attempt i).retired) :
    ((b.setAttempt i a).publish i).display.latest = a.snapshot := by
  have hshown := (h.revise (h.bound i hc) hdisplay hretired).shown i
    ((current_publish _ _).trans hc)
  rwa [attempt_publish, attempt_setAttempt_self a (h.bound i hc)] at hshown

/-- What is shown after a note of the current attempt. -/
theorem InStep.latest_note (h : b.InStep) (hc : b.current = some i) (n : Note) (now : Timestamp) :
    (b.note i n now).display.latest =
      match (b.attempt i).transcript.note? n with
      | some t => .of t (b.attempt i).baseline
      | none => b.display.latest := by
  rw [Board.note, record, Attempt.record?]
  cases hn : (b.attempt i).transcript.note? n with
  | none => rfl
  | some t =>
    dsimp only
    split <;> exact h.latest_revise hc rfl rfl

theorem InStep.countsSame_note (h : b.InStep) (hi : i < b.attempts.length) {n : Note}
    (hn : n.kind ≠ .gatingDrop) (now : Timestamp) :
    CountsSame b.display.latest (b.note i n now).display.latest := by
  by_cases hc : b.current = some i
  · rw [h.latest_note hc]
    split
    · rename_i t ht
      rw [h.shown i hc]
      exact Board.countsSame_note _ ht hn
    · exact .refl _
  · exact .of_displays (leaves_note (h.others i hi hc) n now).1.1

theorem InStep.countsOneMore_note (h : b.InStep) (hc : b.current = some i)
    (reason phase source message : String) (now : Timestamp) :
    CountsOneMore b.display.latest
      (b.note i (.gatingDrop reason phase source message) now).display.latest reason source := by
  rw [h.latest_note hc, h.shown i hc]
  exact countsOneMore_of ..

/-- A use that neither begins an attempt nor logs a refusal on the current one. -/
theorem InStep.countsSame_use (h : b.InStep) {u : Use} (hu : u.Fits b) (hbegins : u.begins? = none)
    (hdrop : u.drop? b = none) : CountsSame b.display.latest (b.use u).display.latest := by
  cases u with
  | begin requestId => cases hbegins
  | beginOwned requestId state =>
    have hfor : state.isFor requestId = false := by simpa [Use.begins?] using hbegins
    refine .of_displays ?_
    rw [Board.use, Board.beginOwned, if_neg (by simp [hfor])]
    exact displays_add_retired ..
  | gatingDrop state reason source message now =>
    rw [Board.use, Board.gatingDrop]
    split
    · exact .refl _
    · rename_i i hc
      rw [if_neg fun hcon => by simp [Use.drop?, hc, hcon] at hdrop]
      exact .refl _
  | note i n now =>
    by_cases hn : n.kind = .gatingDrop
    · obtain ⟨reason, phase, source, message, rfl⟩ :
          ∃ reason phase source message, n = .gatingDrop reason phase source message := by
        cases n <;> simp_all [Note.kind]
      have hc : b.current ≠ some i := fun hc => by simp [Use.drop?, hc] at hdrop
      exact .of_displays (leaves_note (h.others i (hu i rfl) hc) _ now).1.1
    · exact h.countsSame_note (hu i rfl) hn now
  | setAxes i requested catalog =>
    by_cases hc : b.current = some i
    · have hlatest : (b.use (.setAxes i requested catalog)).display.latest = _ :=
        h.latest_revise hc rfl rfl
      rw [hlatest, h.shown i hc]
      exact countsSame_of _ rfl rfl rfl
    · exact .of_displays (leaves_use rfl (hu i rfl) (h.others i (hu i rfl) hc)).1.1
  | cancelRequested i state source now =>
    rw [Board.use, Board.cancelRequested]
    split
    · exact h.countsSame_note (hu i rfl) (by simp [Note.kind]) now
    · exact .refl _
  | report on => exact .refl _

/-- A use that logs a refusal on the current attempt. -/
theorem InStep.countsOneMore_use (h : b.InStep) {u : Use} {d : Drop} (hdrop : u.drop? b = some d) :
    ∃ i, b.current = some i ∧ (b.attempt i).requestId = d.requestId ∧
      CountsOneMore b.display.latest (b.use u).display.latest d.reason d.source := by
  cases u with
  | gatingDrop state reason source message now =>
    obtain ⟨i, hc, hd⟩ := Option.bind_eq_some_iff.1 hdrop
    split at hd
    · rename_i hcon
      cases hd
      refine ⟨i, hc, rfl, ?_⟩
      have hnote : b.use (.gatingDrop state reason source message now) =
          b.note i (.gatingDrop reason.code (name state.phase) source message) now := by
        simp [Board.use, Board.gatingDrop, hc, hcon]
      rw [hnote]
      exact h.countsOneMore_note hc ..
    · cases hd
  | note i n now =>
    cases n with
    | gatingDrop reason phase source message =>
      rw [Use.drop?] at hdrop
      split at hdrop
      · rename_i hc
        cases hdrop
        exact ⟨i, hc, rfl, h.countsOneMore_note hc ..⟩
      · cases hdrop
    | _ => cases hdrop
  | begin | beginOwned | setAxes | cancelRequested | report => cases hdrop

theorem current_note (b : Board) (i : Nat) (n : Note) (now : Timestamp) :
    (b.note i n now).current = b.current := by
  rw [note, record]
  dsimp only
  split
  · rfl
  · split <;> exact current_publish _ i

/-- Only by beginning an attempt does another one become the current one. -/
theorem current_use {u : Use} (hu : u.begins? = none) : (b.use u).current = b.current := by
  cases u with
  | begin requestId => cases hu
  | beginOwned requestId state =>
    rw [Use.begins?] at hu
    split at hu
    · cases hu
    · rename_i hfor
      rw [use, beginOwned, if_neg hfor]
      exact current_publish _ _
  | gatingDrop state reason source message now =>
    rw [use, gatingDrop]
    split
    · rfl
    · split
      · exact current_note b _ _ now
      · rfl
  | note i n now => exact current_note b i n now
  | setAxes i requested catalog => exact current_publish _ i
  | cancelRequested i state source now =>
    rw [use, cancelRequested]
    split
    · exact current_note b i _ now
    · rfl
  | report on => rfl

theorem follows_use (b : Board) (u : Use) : Follows b (b.use u) := by
  cases u with
  | begin requestId => exact follows_begin b requestId
  | beginOwned requestId state => exact follows_beginOwned b requestId state
  | gatingDrop state reason source message now =>
    exact follows_gatingDrop b state reason source message now
  | note i n now => exact follows_note b i n now
  | setAxes i requested catalog => exact follows_setAxes b i requested catalog
  | cancelRequested i state source now => exact follows_cancelRequested b i state source now
  | report on => exact .of_eq rfl rfl

/-- What is shown for an attempt that was just begun: what was shown before, if that was of the same
request, and else no refusal. -/
theorem latest_begin (h : b.InStep) (requestId : String) :
    (b.begin requestId).1.display.latest =
      .of { requestId := requestId } (.inherit b.display.latest requestId) := by
  have hpos : 0 < b.retireCurrent.displays.length := by
    rw [displays_retireCurrent]
    exact h.displays
  have hshown := shown_add hpos requestId b.reporting
  have hbase : b.retireCurrent.displayAt 0 = b.display := by
    rw [display, displayAt, displayAt, displays_retireCurrent]
  refine hshown.trans ?_
  rw [add, attempt_publish, hbase]
  simp [attempt, Attempt.snapshot]

theorem begin_of_begins {u : Use} {requestId : String} (hu : u.begins? = some requestId) :
    b.use u = (b.begin requestId).1 ∧ u.drop? b = none := by
  cases u with
  | begin id => cases hu; exact ⟨rfl, rfl⟩
  | beginOwned id state =>
    rw [Use.begins?] at hu
    split at hu
    · rename_i hfor
      cases hu
      exact ⟨congrArg Prod.fst (if_pos hfor), rfl⟩
    · cases hu
  | gatingDrop | note | setAxes | cancelRequested | report => cases hu

/-- The counts shown are those of the refusals logged for the request shown. -/
structure Tallied (past : Past) (b : Board) : Prop where
  reasons : b.display.latest.dropCounts =
    .tally ((past.drops b.display.latest.requestId).map (·.reason))
  sources : b.display.latest.dropSources =
    .tally ((past.drops b.display.latest.requestId).map (·.source))
  total : b.display.latest.dropTotal = b.display.latest.dropCounts.total
  /-- The attempt shown was begun last, and for this request. -/
  others : ∀ requestId, requestId ≠ b.display.latest.requestId → past.drops requestId = []
  named : ∀ i, b.current = some i → (b.attempt i).requestId = b.display.latest.requestId

namespace Tallied

variable {past : Past} {u : Use}

theorem fresh : Tallied [] {} := by
  constructor
  · rfl
  · rfl
  · rfl
  · intros; rfl
  · nofun

/-- Beginning an attempt carries the counts of its own request over and drops those of another. -/
theorem begins (h : Tallied past b) (hs : b.InStep) {requestId : String}
    (hu : u.begins? = some requestId) : Tallied ((b, u) :: past) (b.use u) := by
  obtain ⟨huse, hdrop⟩ := begin_of_begins (b := b) hu
  have hlatest : (b.use u).display.latest = _ := huse ▸ latest_begin hs requestId
  have hself : Past.drops ((b, u) :: past) requestId = past.drops requestId :=
    Past.drops_begins_self hu hdrop
  have hbase : Baseline.inherit b.display.latest requestId =
      ⟨.tally ((past.drops requestId).map (·.reason)),
        .tally ((past.drops requestId).map (·.source))⟩ := by
    rw [Baseline.inherit]
    split
    · rename_i heq
      obtain rfl := beq_iff_eq.1 heq
      rw [h.reasons, h.sources]
    · rename_i hne
      rw [h.others requestId fun he => hne (beq_iff_eq.2 he.symm)]
      rfl
  refine ⟨?_, ?_, ?_, fun other hne => ?_, fun i hc => ?_⟩
  all_goals rw [hlatest] at *
  · simp [Snapshot.of, hself, hbase]
  · simp [Snapshot.of, hself, hbase]
  · rfl
  · exact Past.drops_begins hu hne
  · rw [huse] at hc ⊢
    obtain rfl : b.retireCurrent.attempts.length = i := Option.some.inj hc
    simp [Board.begin, add, attempt, Snapshot.of]

/-- Whatever else is done leaves the current attempt its request. -/
theorem named_use (h : Tallied past b) (hs : b.InStep) (hu : u.begins? = none)
    (hid : (b.use u).display.latest.requestId = b.display.latest.requestId) {i : Nat}
    (hc : (b.use u).current = some i) :
    ((b.use u).attempt i).requestId = (b.use u).display.latest.requestId := by
  rw [current_use hu] at hc
  rw [(follows_use b u).requestId i (hs.bound i hc), hid]
  exact h.named i hc

theorem use (h : Tallied past b) (hs : b.InStep) (hu : u.Fits b) :
    Tallied ((b, u) :: past) (b.use u) := by
  cases hbegins : u.begins? with
  | some requestId => exact h.begins hs hbegins
  | none =>
    cases hdrop : u.drop? b with
    | none =>
      have hsame := hs.countsSame_use hu hbegins hdrop
      have hdrops : ∀ id, Past.drops ((b, u) :: past) id = past.drops id := fun _ =>
        Past.drops_none hbegins hdrop
      refine ⟨?_, ?_, ?_, fun id hid => ?_, fun i hc => h.named_use hs hbegins hsame.requestId hc⟩
      · rw [hsame.reasons, hdrops, hsame.requestId, h.reasons]
      · rw [hsame.sources, hdrops, hsame.requestId, h.sources]
      · rw [hsame.total, hsame.reasons, h.total]
      · rw [hdrops]
        exact h.others id (hsame.requestId ▸ hid)
    | some d =>
      obtain ⟨i, hc, hid, hmore⟩ := hs.countsOneMore_use hdrop
      have hshown : d.requestId = b.display.latest.requestId := hid.symm.trans (h.named i hc)
      refine ⟨?_, ?_, hmore.total, fun id hne => ?_,
        fun i hc => h.named_use hs hbegins hmore.requestId hc⟩
      · rw [hmore.reasons, hmore.requestId, Past.drops_some hbegins hdrop, if_pos hshown, h.reasons]
        rfl
      · rw [hmore.sources, hmore.requestId, Past.drops_some hbegins hdrop, if_pos hshown, h.sources]
        rfl
      · rw [hmore.requestId] at hne
        rw [Past.drops_some hbegins hdrop, if_neg fun he => hne (he.symm.trans hshown)]
        exact h.others id hne

end Tallied

theorem Came.tallied {past : Past} (h : Came past b) : Tallied past b := by
  induction h with
  | fresh => exact .fresh
  | use u hb hu ih => exact ih.use hb.used.inStep hu

/-- Whatever is done with a board, it counts for the request that it shows every refusal, by reason and
by source, that a current attempt of that request has logged since an attempt was last begun for
another one. No other refusal counts, and none counts twice. Counts are words, so they are exact below
the number of words. -/
theorem counts_logged {past : Past} (h : Came past b) :
    let shown := b.display.latest
    let drops := past.drops shown.requestId
    (∀ reason, let n := (drops.map (·.reason)).count reason
      shown.dropCounts.find? reason = (if n = 0 then none else some (UInt64.ofNat n)) ∧
        (n < 2 ^ 64 → (shown.dropCounts.count reason).toNat = n)) ∧
      (∀ source, let n := (drops.map (·.source)).count source
        shown.dropSources.find? source = (if n = 0 then none else some (UInt64.ofNat n)) ∧
          (n < 2 ^ 64 → (shown.dropSources.count source).toNat = n)) ∧
      shown.dropTotal = shown.dropCounts.total ∧ shown.dropTotal = shown.dropSources.total ∧
      shown.dropTotal = UInt64.ofNat drops.length := by
  intro shown drops
  have ht := h.tallied
  have hreasons : shown.dropCounts = .tally (drops.map (·.reason)) := ht.reasons
  have hsources : shown.dropSources = .tally (drops.map (·.source)) := ht.sources
  have htotal : shown.dropTotal = UInt64.ofNat drops.length := by
    rw [ht.total, ht.reasons, Counts.total_tally, List.length_map]
  refine ⟨fun reason => ?_, fun source => ?_, ht.total, ?_, htotal⟩
  · rw [hreasons]
    exact ⟨Counts.find?_tally _ _, Counts.toNat_count_tally⟩
  · rw [hsources]
    exact ⟨Counts.find?_tally _ _, Counts.toNat_count_tally⟩
  · rw [htotal, hsources, Counts.total_tally, List.length_map]

/-- A request that comes back after another one and is begun twice more. Of the refusals logged for it,
those before the other request, that of its detached attempt and that of its retired attempt do not
count. -/
theorem counts_logged_returning :
    ∃ (past : Past) (b : Board), Came past b ∧ past.length = 12 ∧
      b.display.latest.requestId = "req-1" ∧
      (past.drops "req-1").map (·.source) = ["menu", "voice"] ∧
      (b.display.latest.dropCounts.count "in_flight").toNat = 2 ∧
      (b.display.latest.dropSources.count "voice").toNat = 1 ∧
      (b.display.latest.dropSources.count "retired").toNat = 0 := by
  let busy (source : String) (i : Nat) : Use :=
    .note i (.gatingDrop "in_flight" "sending" source "busy") default
  let asking : PhaseState := { phase := .sending, requestId := some "req-1" }
  let routed (source : String) : Use := .gatingDrop asking .inFlight source "busy" default
  have fits (source : String) {i : Nat} {b : Board} (hi : i < b.attempts.length) :
      (busy source i).Fits b := fun j hj => by cases hj; exact hi
  have h := Came.use (.begin "req-1") .fresh nofun
  have h := Came.use (busy "old" 0) h (fits _ (by decide +kernel))
  have h := Came.use (.beginOwned "req-1" {}) h nofun
  have h := Came.use (busy "detached" 1) h (fits _ (by decide +kernel))
  have h := Came.use (.begin "req-2") h nofun
  have h := Came.use (busy "other" 2) h (fits _ (by decide +kernel))
  have h := Came.use (routed "unconcerned") h nofun
  have h := Came.use (.begin "req-1") h nofun
  have h := Came.use (busy "voice" 3) h (fits _ (by decide +kernel))
  have h := Came.use (.beginOwned "req-1" asking) h nofun
  have h := Came.use (busy "retired" 3) h (fits _ (by decide +kernel))
  have h := Came.use (routed "menu") h nofun
  obtain ⟨hreasons, hsources, -⟩ := counts_logged h
  refine ⟨_, _, h, rfl, by decide +kernel, by decide +kernel, ?_, ?_, ?_⟩
  · exact ((hreasons "in_flight").2 (by decide +kernel)).trans (by decide +kernel)
  · exact ((hsources "voice").2 (by decide +kernel)).trans (by decide +kernel)
  · exact ((hsources "retired").2 (by decide +kernel)).trans (by decide +kernel)

end Board

end PromptDesk
