import PromptDesk.Proofs.Board.Drops

/-! The log of an attempt tells its transcript. Taking in the entries one after another makes the
transcript out of an empty one, but for the axes; the entries are numbered from one on, and all of
them name the request of the attempt. Whoever listens to attempts from their beginning has heard
their logs. -/
namespace PromptDesk

namespace StreamEvent

/-- The text under a key, empty if there is none. -/
def textAt (e : StreamEvent) (key : String) : String := (e.text? key).getD ""

end StreamEvent

namespace Attempt

theorem textAt_chunk (a : Attempt) (text : String) (now : Timestamp) :
    (a.entry (.chunk text) now).textAt "text" = text := by
  simp [StreamEvent.textAt, StreamEvent.text?, StreamEvent.get?, entry, Note.fields, Keyed.ofList,
    Json.text?]

theorem textAt_error (a : Attempt) (message : String) (now : Timestamp) :
    (a.entry (.error message) now).textAt "message" = message := by
  simp [StreamEvent.textAt, StreamEvent.text?, StreamEvent.get?, entry, Note.fields, Keyed.ofList,
    Json.text?]

theorem textAt_gatingDrop (a : Attempt) (reason phase source message : String) (now : Timestamp) :
    (a.entry (.gatingDrop reason phase source message) now).textAt "reason" = reason ∧
      (a.entry (.gatingDrop reason phase source message) now).textAt "source" = source := by
  simp [StreamEvent.textAt, StreamEvent.text?, StreamEvent.get?, entry, Note.fields, Keyed.ofList,
    Json.text?]

end Attempt

namespace Transcript

/-- Takes in an entry of a log, with nothing but what the entry tells. -/
def take (t : Transcript) (e : StreamEvent) : Transcript :=
  match e.kind with
  | .chunk => (t.chunk? (e.textAt "text")).getD t
  | .complete => t.complete?.getD t
  | .error => t.error (e.textAt "message")
  | .gatingDrop => t.gatingDrop (e.textAt "reason") (e.textAt "source")
  | .cancelRequested | .cancelExecuted | .historySaved | .historyWriteRequested | .logEntry
  | .uiRefreshRequested | .uiRefreshExecuted => t

/-- The transcript that a log tells of a request. -/
def replay (requestId : String) (log : List StreamEvent) : Transcript :=
  log.foldl take { requestId := requestId }

/-- A transcript but for the axes, of which no log tells. -/
def bare (t : Transcript) : Transcript := { t with axes := ∅ }

/-- An entry tells all that its note did. -/
theorem take_entry {t t' : Transcript} {n : Note} (h : t.note? n = some t') (a : Attempt)
    (now : Timestamp) : t.bare.take (a.entry n now) = t'.bare := by
  cases n with
  | chunk text =>
    have hk : t.keeps text = true := by
      by_contra hk
      simp [note?, chunk?, hk] at h
    obtain rfl : { t with chunks := t.chunks ++ [text] } = t' := by
      simpa [note?, chunk?, hk] using h
    have hb : t.bare.keeps text = true := hk
    change (t.bare.chunk? ((a.entry (.chunk text) now).textAt "text")).getD t.bare = _
    rw [Attempt.textAt_chunk, chunk?, if_pos hb]
    rfl
  | complete =>
    have he : t.errored = false := by
      by_contra he
      simp [note?, complete?, he] at h
    obtain rfl : { t with completed := true } = t' := by simpa [note?, complete?, he] using h
    have hb : t.bare.errored = false := he
    change t.bare.complete?.getD t.bare = _
    rw [complete?, if_neg (by simp [hb])]
    rfl
  | error message =>
    obtain rfl : t.error message = t' := Option.some.inj h
    change t.bare.error ((a.entry (.error message) now).textAt "message") = _
    rw [Attempt.textAt_error]
    rfl
  | gatingDrop reason phase source message =>
    obtain rfl : t.gatingDrop reason source = t' := Option.some.inj h
    obtain ⟨hreason, hsource⟩ := a.textAt_gatingDrop reason phase source message now
    change t.bare.gatingDrop ((a.entry (.gatingDrop ..) now).textAt "reason")
      ((a.entry (.gatingDrop ..) now).textAt "source") = _
    rw [hreason, hsource]
    rfl
  | _ =>
    obtain rfl : t = t' := Option.some.inj h
    rfl

/-- A note changes nothing if it is a chunk that is not kept, or an end after an error. -/
theorem note?_eq_none_iff {t : Transcript} {n : Note} : t.note? n = none ↔
    (∃ text, n = .chunk text ∧ (Text.isBlankText text = true ∨ t.errored = true)) ∨
      (n = .complete ∧ t.errored = true) := by
  cases n with
  | chunk text =>
    by_cases hb : Text.isBlankText text = true <;> by_cases he : t.errored = true <;>
      simp [note?, chunk?, keeps, hb, he]
  | complete => by_cases he : t.errored = true <;> simp [note?, complete?, he]
  | _ => simp [note?]

end Transcript

namespace Attempt

/-- The log of an attempt tells everything that happened in it. -/
structure Told (a : Attempt) : Prop where
  replay : Transcript.replay a.requestId a.events = a.transcript.bare
  seqs : a.events.map StreamEvent.seq =
    (List.range a.events.length).map fun k => UInt64.ofNat (k + 1)
  ids : ∀ e ∈ a.events, e.requestId = a.requestId

/-- What somebody hears of an attempt who listens from its beginning. -/
def report (a : Attempt) : List StreamEvent := if a.reports then a.events else []

variable {a a' : Attempt} {n : Note} {now : Timestamp} {e : StreamEvent}

theorem reports_default : (default : Attempt).reports = false := rfl

theorem record?_eq_some (h : a.record? n now = some (a', e)) :
    ∃ t, a.transcript.note? n = some t ∧ e = a.entry n now ∧
      a' = { a with transcript := t, events := a.events ++ [e] } := by
  unfold record? at h
  split at h
  · rename_i t ht
    cases h
    exact ⟨t, ht, rfl, rfl⟩
  · cases h

/-- A note on an attempt that reports is heard at once. -/
theorem report_of_record? (h : a.record? n now = some (a', e)) :
    a'.report = a.report ++ if a.reports then [e] else [] := by
  obtain ⟨t, _, _, rfl⟩ := record?_eq_some h
  rw [report, report]
  split <;> simp

theorem record?_eq_none : a.record? n now = none ↔ a.transcript.note? n = none := by
  unfold record?
  split <;> simp_all

namespace Told

theorem fresh (requestId : String) (baseline : Baseline) (display : Nat) (reports retired : Bool) :
    Told ⟨requestId, { requestId := requestId }, [], baseline, display, reports, retired⟩ where
  replay := rfl
  seqs := rfl
  ids := by simp

/-- Neither the axes nor where an attempt publishes are told. -/
theorem of_eq (h : a.Told) (hid : a'.requestId = a.requestId) (he : a'.events = a.events)
    (ht : a'.transcript.bare = a.transcript.bare) : a'.Told where
  replay := by rw [hid, he, ht, h.replay]
  seqs := by rw [he, h.seqs]
  ids := by rw [hid, he]; exact h.ids

theorem record? (h : a.Told) (hr : a.record? n now = some (a', e)) : a'.Told := by
  obtain ⟨t, ht, rfl, rfl⟩ := record?_eq_some hr
  refine ⟨?_, ?_, fun x hx => ?_⟩
  · have hr : Transcript.replay a.requestId (a.events ++ [a.entry n now]) =
        (Transcript.replay a.requestId a.events).take (a.entry n now) := by
      simp [Transcript.replay]
    rw [hr, h.replay]
    exact Transcript.take_entry ht a now
  · simp [List.range_succ, h.seqs, entry]
  · rcases List.mem_append.1 hx with hx | hx
    · exact h.ids x hx
    · rw [List.mem_singleton.1 hx]
      rfl

end Told

end Attempt

namespace Board

/-- The share that an attempt has in what was said. -/
def share (said : List (Nat × StreamEvent)) (i : Nat) : List StreamEvent :=
  (said.filter (·.1 == i)).map Prod.snd

theorem share_append (said said' : List (Nat × StreamEvent)) (i : Nat) :
    share (said ++ said') i = share said i ++ share said' i := by
  rw [share, List.filter_append, List.map_append, share, share]

/-- What was sent before and what is still in the outbox are the logs of the attempts that report, run
together entry by entry. -/
def Heard (sent : List StreamEvent) (b : Board) : Prop :=
  ∃ said, said.map Prod.snd = sent ++ b.outbox ∧ ∀ i, share said i = (b.attempt i).report

/-- All logs are told, and whoever listens has heard them. -/
structure Told (sent : List StreamEvent) (b : Board) : Prop where
  logs : ∀ i < b.attempts.length, (b.attempt i).Told
  heard : b.Heard sent

variable {b b' : Board} {sent : List StreamEvent} {i : Nat}

theorem attempt_of_le (h : b.attempts.length ≤ i) : b.attempt i = default := by
  simp [attempt, List.getElem?_eq_none h]

/-- Nothing is heard of an attempt that is not there. -/
theorem report_of_le (h : b.attempts.length ≤ i) : (b.attempt i).report = [] := by
  rw [attempt_of_le h, Attempt.report, Attempt.reports_default]
  rfl

/-- The attempts with one more at the end. -/
theorem attempt_snoc (b : Board) (a : Attempt) (j : Nat) :
    attempt { b with attempts := b.attempts ++ [a] } j =
      if j = b.attempts.length then a else b.attempt j := by
  rcases Nat.lt_trichotomy j b.attempts.length with hj | rfl | hj
  · rw [attempt_append b _ hj, if_neg hj.ne]
  · simp [attempt]
  · have hle : (b.attempts ++ [a]).length ≤ j := by
      rw [List.length_append, List.length_singleton]
      omega
    rw [if_neg hj.ne', attempt_of_le hj.le]
    exact attempt_of_le (b := { b with attempts := b.attempts ++ [a] }) hle

theorem outbox_publish (b : Board) (i : Nat) : (b.publish i).outbox = b.outbox := by
  rw [publish]
  split <;> rfl

namespace Told

theorem fresh {reporting : Bool} : Told [] { reporting := reporting } where
  logs _ hi := absurd hi (Nat.not_lt_zero _)
  heard := ⟨[], rfl, fun _ => rfl⟩

theorem of_eq (h : b.Told sent) (ha : b'.attempts = b.attempts) (ho : b'.outbox = b.outbox) :
    b'.Told sent := by
  have hat : b'.attempt = b.attempt := by
    funext i
    rw [attempt, ha, attempt]
  obtain ⟨logs, said, hs, hshare⟩ := h
  exact ⟨by rwa [ha, hat], said, by rw [ho, hs], by rwa [hat]⟩

theorem publish (h : b.Told sent) (i : Nat) : (b.publish i).Told sent :=
  h.of_eq (attempts_publish b i) (outbox_publish b i)

/-- An attempt may change as long as its log tells all of it. -/
theorem setAttempt (h : b.Told sent) {a : Attempt} (ha : i < b.attempts.length → a.Told)
    (hr : i < b.attempts.length → a.report = (b.attempt i).report) : (b.setAttempt i a).Told sent := by
  obtain ⟨logs, said, hs, hshare⟩ := h
  refine ⟨fun j hj => ?_, said, hs, fun j => ?_⟩
  · rw [attempt_setAttempt]
    split
    · exact ha (by omega)
    · exact logs j (by simpa [Board.setAttempt] using hj)
  · rw [attempt_setAttempt]
    split
    · rename_i hij
      obtain ⟨rfl, hi⟩ := hij
      exact (hshare i).trans (hr hi).symm
    · exact hshare j

theorem retire (h : b.Told sent) (i : Nat) : (b.retire i).Told sent :=
  h.setAttempt (fun hi => (h.logs i hi).of_eq rfl rfl rfl) fun _ => rfl

theorem retireCurrent (h : b.Told sent) : b.retireCurrent.Told sent := by
  rw [Board.retireCurrent]
  split
  · exact (h.retire _).of_eq rfl rfl
  · exact h

theorem add (h : b.Told sent) (requestId : String) (display : Nat) (reports retired : Bool) :
    (b.add requestId display reports retired).1.Told sent := by
  refine publish ?_ _
  obtain ⟨logs, said, hs, hshare⟩ := h
  refine ⟨fun j hj => ?_, said, hs, fun j => ?_⟩
  · rw [attempt_snoc]
    split
    · exact .fresh ..
    · refine logs j ?_
      have : j < b.attempts.length + 1 := by simpa using hj
      omega
  · rw [attempt_snoc, hshare]
    split
    · rename_i hj
      subst hj
      rw [report_of_le (Nat.le_refl _), Attempt.report]
      split <;> rfl
    · rfl

theorem begin (h : b.Told sent) (requestId : String) : (b.begin requestId).1.Told sent :=
  (h.retireCurrent.add requestId 0 b.reporting false).of_eq rfl rfl

theorem beginOwned (h : b.Told sent) (requestId : String) (state : PhaseState) :
    (b.beginOwned requestId state).1.Told sent := by
  rw [Board.beginOwned]
  split
  · exact h.begin requestId
  · exact h.add requestId 0 b.reporting true

/-- A note is logged and reported together. -/
theorem note (h : b.Told sent) (i : Nat) (n : Note) (now : Timestamp) :
    (b.note i n now).Told sent := by
  rw [Board.note, record]
  dsimp only
  split
  · exact h
  · rename_i a e hr
    have hlogs : ∀ j < (b.setAttempt i a).attempts.length, ((b.setAttempt i a).attempt j).Told := by
      intro j hj
      have hj : j < b.attempts.length := by simpa [Board.setAttempt] using hj
      rw [attempt_setAttempt]
      split
      · rename_i hij
        obtain ⟨rfl, _⟩ := hij
        exact (h.logs i hj).record? hr
      · exact h.logs j hj
    have hreport := Attempt.report_of_record? hr
    obtain ⟨said, hs, hshare⟩ := h.heard
    split
    · rename_i hrep
      rw [if_pos hrep] at hreport
      -- an attempt that reports is there
      have hi : i < b.attempts.length := by
        by_contra hi
        rw [attempt_of_le (Nat.le_of_not_lt hi)] at hrep
        cases Attempt.reports_default.symm.trans hrep
      have ht : Told sent { b.setAttempt i a with outbox := b.outbox ++ [e] } := by
        refine ⟨hlogs, said ++ [(i, e)], by simp [hs], fun j => ?_⟩
        change _ = ((b.setAttempt i a).attempt j).report
        rw [share_append, hshare, attempt_setAttempt]
        by_cases hij : i = j
        · subst hij
          rw [if_pos ⟨rfl, hi⟩, hreport]
          simp [share]
        · rw [if_neg fun h => hij h.1]
          simp [share, hij]
      refine ht.of_eq (attempts_publish _ i) ?_
      rw [outbox_publish]
      rfl
    · rename_i hrep
      rw [if_neg hrep, List.append_nil] at hreport
      refine publish ⟨hlogs, said, hs, fun j => ?_⟩ i
      rw [attempt_setAttempt, hshare]
      split
      · rename_i hij
        obtain ⟨rfl, _⟩ := hij
        exact hreport.symm
      · rfl

theorem use (h : b.Told sent) (u : Use) : (b.use u).Told sent := by
  cases u with
  | begin id => exact h.begin id
  | beginOwned id state => exact h.beginOwned id state
  | gatingDrop state reason source message now =>
    change (b.gatingDrop state reason source message now).Told sent
    rw [gatingDrop]
    split
    · exact h
    · split
      · exact h.note _ _ now
      · exact h
  | note i n now => exact h.note i n now
  | setAxes i requested catalog =>
    let a : Attempt := { b.attempt i with
      transcript := { (b.attempt i).transcript with axes := requested.filter catalog } }
    have hset : (b.setAttempt i a).Told sent :=
      h.setAttempt (fun hi => (h.logs i hi).of_eq rfl rfl rfl) fun _ => rfl
    exact hset.publish i
  | cancelRequested i state source now =>
    change (b.cancelRequested i state source now).1.Told sent
    rw [cancelRequested]
    split
    · exact h.note i _ now
    · exact h
  | report on => exact h.of_eq rfl rfl

/-- What is in the outbox is sent. -/
theorem sends (h : b.Told sent) : Told (sent ++ b.outbox) { b with outbox := [] } := by
  obtain ⟨logs, said, hs, hshare⟩ := h
  exact ⟨logs, said, by rw [hs, List.append_nil], hshare⟩

end Told

/-- A note that is said to have changed nothing was not logged. -/
theorem record_eq_false {n : Note} {now : Timestamp} : (b.record i n now).2 = false ↔
    (b.attempt i).transcript.note? n = none := by
  rw [record]
  dsimp only
  split
  · rename_i h
    exact iff_of_true rfl (Attempt.record?_eq_none.1 h)
  · rename_i h
    refine iff_of_false (by simp) fun hn => ?_
    rw [Attempt.record?_eq_none.2 hn] at h
    cases h

theorem record_fst_of_false {n : Note} {now : Timestamp} (h : (b.record i n now).2 = false) :
    (b.record i n now).1 = b := by
  rw [record, Attempt.record?_eq_none.2 (record_eq_false.1 h)]

/-- A note that changes something is one more entry of the log. -/
theorem events_record {n : Note} {now : Timestamp} (hi : i < b.attempts.length)
    (h : (b.record i n now).2 = true) :
    ((b.record i n now).1.attempt i).events =
      (b.attempt i).events ++ [(b.attempt i).entry n now] := by
  cases hr : (b.attempt i).record? n now with
  | none =>
    rw [record_eq_false.2 (Attempt.record?_eq_none.1 hr)] at h
    cases h
  | some x =>
    obtain ⟨a, e⟩ := x
    obtain ⟨t, _, rfl, ha⟩ := Attempt.record?_eq_some hr
    have hat : ((b.setAttempt i a).publish i).attempt i = a := by
      rw [attempt_publish, attempt_setAttempt_self a hi]
    have hrec : ((b.record i n now).1.attempt i) = a := by
      rw [record, hr]
      dsimp only
      split <;> exact hat
    rw [hrec, ha]

end Board

end PromptDesk
