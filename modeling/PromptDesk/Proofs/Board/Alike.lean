import PromptDesk.Proofs.Board.Published

/-! Boards that are alike. Their attempts have the same text, in whatever pieces it came, and their
displays show the same; logs and what was shown before may differ. Whatever is done with both boards,
they stay alike. -/
namespace PromptDesk

/-- The same text in other pieces. -/
structure Transcript.Alike (t t' : Transcript) : Prop where
  requestId : t'.requestId = t.requestId
  text : t'.text = t.text
  completed : t'.completed = t.completed
  errored : t'.errored = t.errored
  errorMessage : t'.errorMessage = t.errorMessage
  axes : t'.axes = t.axes
  dropCounts : t'.dropCounts = t.dropCounts
  dropSources : t'.dropSources = t.dropSources
  lastDrop : t'.lastDrop = t.lastDrop

namespace Transcript.Alike

variable {t t' t'' : Transcript}

theorem refl (t : Transcript) : Alike t t := ⟨rfl, rfl, rfl, rfl, rfl, rfl, rfl, rfl, rfl⟩

theorem symm (h : Alike t t') : Alike t' t :=
  ⟨h.requestId.symm, h.text.symm, h.completed.symm, h.errored.symm, h.errorMessage.symm,
    h.axes.symm, h.dropCounts.symm, h.dropSources.symm, h.lastDrop.symm⟩

theorem trans (h : Alike t t') (h' : Alike t' t'') : Alike t t'' where
  requestId := h'.requestId.trans h.requestId
  text := h'.text.trans h.text
  completed := h'.completed.trans h.completed
  errored := h'.errored.trans h.errored
  errorMessage := h'.errorMessage.trans h.errorMessage
  axes := h'.axes.trans h.axes
  dropCounts := h'.dropCounts.trans h.dropCounts
  dropSources := h'.dropSources.trans h.dropSources
  lastDrop := h'.lastDrop.trans h.lastDrop

/-- More of the same text, in whatever pieces it comes. -/
theorem append (h : Alike t t') {chunks chunks' : List String}
    (hc : String.join chunks' = String.join chunks) :
    Alike { t with chunks := t.chunks ++ chunks } { t' with chunks := t'.chunks ++ chunks' } :=
  { h with
    text := by
      have text : String.join t'.chunks = String.join t.chunks := h.text
      simp only [Transcript.text, String.join_append, hc, text] }

/-- A note does the same to transcripts that are alike, or nothing. -/
theorem note? (h : Alike t t') (n : Note) :
    Option.Rel Alike (t.note? n) (t'.note? n) := by
  cases n with
  | chunk text =>
    have hk : t'.keeps text = t.keeps text := by rw [keeps, keeps, h.errored]
    rw [Transcript.note?, Transcript.note?, chunk?, chunk?, hk]
    split
    · exact .some (h.append rfl)
    · exact .none
  | complete =>
    rw [Transcript.note?, Transcript.note?, complete?, complete?]
    by_cases he : t.errored = true
    · rw [if_pos he, if_pos (h.errored.trans he)]
      exact .none
    · rw [if_neg he, if_neg (h.errored ▸ he)]
      exact .some { h with completed := rfl }
  | error message =>
    exact .some { h with completed := rfl, errored := rfl, errorMessage := rfl }
  | gatingDrop reason phase source message =>
    refine .some { h with dropCounts := ?_, dropSources := ?_, lastDrop := rfl }
    · exact congrArg (Counts.bump · reason) h.dropCounts
    · exact congrArg (Counts.bump · source) h.dropSources
  | _ => exact .some h

end Transcript.Alike

/-- The same attempt, apart from its log and the pieces of its text. -/
structure Attempt.Alike (a a' : Attempt) : Prop where
  requestId : a'.requestId = a.requestId
  transcript : a.transcript.Alike a'.transcript
  baseline : a'.baseline = a.baseline
  display : a'.display = a.display
  reports : a'.reports = a.reports
  retired : a'.retired = a.retired

/-- An attempt with one more chunk, whatever its log says. -/
def Attempt.received (a : Attempt) (s : String) (events : List StreamEvent) : Attempt :=
  { a with
    transcript := { a.transcript with chunks := a.transcript.chunks ++ [s] }
    events := events }

namespace Attempt.Alike

variable {a a' a'' : Attempt}

theorem refl (a : Attempt) : Alike a a := ⟨rfl, .refl _, rfl, rfl, rfl, rfl⟩

theorem symm (h : Alike a a') : Alike a' a :=
  ⟨h.requestId.symm, h.transcript.symm, h.baseline.symm, h.display.symm, h.reports.symm,
    h.retired.symm⟩

theorem trans (h : Alike a a') (h' : Alike a' a'') : Alike a a'' where
  requestId := h'.requestId.trans h.requestId
  transcript := h.transcript.trans h'.transcript
  baseline := h'.baseline.trans h.baseline
  display := h'.display.trans h.display
  reports := h'.reports.trans h.reports
  retired := h'.retired.trans h.retired

theorem text (h : Alike a a') : a'.text = a.text := h.transcript.text

theorem snapshot (h : Alike a a') : a'.snapshot = a.snapshot := by
  obtain ⟨_, ⟨_, _, _, _, _, _, _, _, _⟩, _, _, _, _⟩ := h
  simp only [Attempt.snapshot, Snapshot.of, *]

theorem historyEntry (h : Alike a a') : a'.historyEntry = a.historyEntry := by
  rw [Attempt.historyEntry, Attempt.historyEntry, h.requestId, h.text, h.transcript.axes]

theorem withAxes (h : Alike a a') (axes : Axes) :
    Alike { a with transcript := { a.transcript with axes := axes } }
      { a' with transcript := { a'.transcript with axes := axes } } :=
  { h with transcript := { h.transcript with axes := rfl } }

theorem retire (h : Alike a a') : Alike { a with retired := true } { a' with retired := true } :=
  { h with retired := rfl }

/-- Two chunks, or both in one. -/
theorem received_append (h : Alike a a') (s t : String) (es es' es'' : List StreamEvent) :
    Alike ((a.received s es).received t es') (a'.received (s ++ t) es'') := by
  have text : String.join a'.transcript.chunks = String.join a.transcript.chunks := h.text
  refine { h with transcript := { h.transcript with text := ?_ } }
  simp [received, Transcript.text, String.join_append, text]

/-- A note does the same to attempts that are alike, or is not logged. -/
theorem record? (h : Alike a a') (n : Note) (now now' : Timestamp) :
    Option.Rel (fun x y => Alike x.1 y.1) (a.record? n now) (a'.record? n now') := by
  have hn := h.transcript.note? n
  simp only [Attempt.record?]
  generalize a.transcript.note? n = t at hn
  generalize a'.transcript.note? n = t' at hn
  cases hn with
  | none => exact .none
  | some ht => exact .some { h with transcript := ht }

end Attempt.Alike

/-- Boards with the same to show. -/
structure Board.Alike (b b' : Board) : Prop where
  length : b'.attempts.length = b.attempts.length
  attempt : ∀ i, (b.attempt i).Alike (b'.attempt i)
  current : b'.current = b.current
  lengthDisplays : b'.displays.length = b.displays.length
  latest : ∀ i, (b'.displayAt i).latest = (b.displayAt i).latest
  reporting : b'.reporting = b.reporting

namespace Board.Alike

variable {b b' b'' : Board} {a a' : Attempt} {i : Nat}

theorem refl (b : Board) : Alike b b := ⟨rfl, fun _ => .refl _, rfl, rfl, fun _ => rfl, rfl⟩

theorem symm (h : Alike b b') : Alike b' b :=
  ⟨h.length.symm, fun i => (h.attempt i).symm, h.current.symm, h.lengthDisplays.symm,
    fun i => (h.latest i).symm, h.reporting.symm⟩

theorem trans (h : Alike b b') (h' : Alike b' b'') : Alike b b'' where
  length := h'.length.trans h.length
  attempt i := (h.attempt i).trans (h'.attempt i)
  current := h'.current.trans h.current
  lengthDisplays := h'.lengthDisplays.trans h.lengthDisplays
  latest i := (h'.latest i).trans (h.latest i)
  reporting := h'.reporting.trans h.reporting

theorem setAttempt (h : Alike b b') (ha : a.Alike a') (i : Nat) :
    Alike (b.setAttempt i a) (b'.setAttempt i a') :=
  { h with
    length := by simp [Board.setAttempt, h.length]
    attempt := fun j => by
      rw [attempt_setAttempt, attempt_setAttempt, h.length]
      split
      · exact ha
      · exact h.attempt j }

theorem latest_publishTo (b : Board) (i j : Nat) (s : Snapshot) :
    ((b.publishTo i s).displayAt j).latest =
      if i = j ∧ j < b.displays.length then s else (b.displayAt j).latest := by
  simp only [publishTo, displayAt, List.getD_eq_getElem?_getD, List.getElem?_set]
  by_cases hij : i = j
  · subst hij
    by_cases hi : i < b.displays.length <;> simp [hi, Display.publish]
  · simp [hij]

theorem publishTo (h : Alike b b') (i : Nat) (s : Snapshot) :
    Alike (b.publishTo i s) (b'.publishTo i s) :=
  { h with
    lengthDisplays := by simp [Board.publishTo, h.lengthDisplays]
    latest := fun j => by
      rw [latest_publishTo, latest_publishTo, h.lengthDisplays, h.latest] }

theorem publish (h : Alike b b') (i : Nat) : Alike (b.publish i) (b'.publish i) := by
  obtain ha := h.attempt i
  simp only [Board.publish, ha.retired, ha.display, ha.snapshot]
  split
  · exact h
  · exact h.publishTo _ _

theorem record (h : Alike b b') (i : Nat) (n : Note) (now now' : Timestamp) :
    Alike (b.record i n now).1 (b'.record i n now').1 := by
  have hr := (h.attempt i).record? n now now'
  simp only [Board.record]
  generalize (b.attempt i).record? n now = x at hr
  generalize (b'.attempt i).record? n now' = x' at hr
  cases hr with
  | none => exact h
  | some ha =>
    have h' := (h.setAttempt ha i).publish i
    dsimp only
    split <;> split <;> exact { h' with }

theorem note (h : Alike b b') (i : Nat) (n : Note) (now now' : Timestamp) :
    Alike (b.note i n now) (b'.note i n now') := h.record i n now now'

theorem append (h : Alike b b') (ha : a.Alike a') :
    Alike { b with attempts := b.attempts ++ [a] } { b' with attempts := b'.attempts ++ [a'] } :=
  { h with
    length := by simp [h.length]
    attempt := fun i => by
      rcases Nat.lt_trichotomy i b.attempts.length with hi | rfl | hi
      · rw [attempt_append b _ hi, attempt_append b' _ (h.length ▸ hi)]
        exact h.attempt i
      · have hnew : ∀ (b : Board) (a : Attempt),
            Board.attempt { b with attempts := b.attempts ++ [a] } b.attempts.length = a := by
          simp [Board.attempt]
        rw [hnew, ← h.length, hnew]
        exact ha
      · have hout : ∀ (b : Board) (a : Attempt), b.attempts.length < i →
            Board.attempt { b with attempts := b.attempts ++ [a] } i = default := fun b a hi => by
          simp [Board.attempt, List.getElem?_eq_none (l := b.attempts ++ [a]) (by simpa using hi)]
        rw [hout b a hi, hout b' a' (h.length ▸ hi)]
        exact .refl _ }

theorem add (h : Alike b b') (requestId : String) (display : Nat) (reports retired : Bool) :
    Alike (b.add requestId display reports retired).1 (b'.add requestId display reports retired).1 ∧
      (b'.add requestId display reports retired).2 = (b.add requestId display reports retired).2 := by
  refine ⟨?_, h.length⟩
  have ha := h.append (.refl ⟨requestId, { requestId := requestId }, [],
    .inherit (b.displayAt display).latest requestId, display, reports, retired⟩)
  simp only [Board.add, h.latest, h.length]
  exact ha.publish _

/-- One more display, which shows nothing yet. -/
theorem addDisplay (h : Alike b b') :
    Alike { b with displays := b.displays ++ [{}] } { b' with displays := b'.displays ++ [{}] } := by
  have hlatest : ∀ (b : Board) i, Board.displayAt { b with displays := b.displays ++ [{}] } i =
      b.displayAt i := fun b i => by
    simp only [displayAt, List.getD_eq_getElem?_getD, List.getElem?_append]
    split
    · rfl
    · rename_i hi
      rw [List.getElem?_eq_none (Nat.le_of_not_lt hi)]
      cases i - b.displays.length <;> rfl
  exact { h with
    lengthDisplays := by simp [h.lengthDisplays]
    latest := fun i => by rw [hlatest, hlatest, h.latest] }

theorem retireCurrent (h : Alike b b') : Alike b.retireCurrent b'.retireCurrent := by
  simp only [Board.retireCurrent, h.current]
  split
  · rename_i i _
    have hr : Alike (b.retire i) (b'.retire i) := h.setAttempt (h.attempt i).retire i
    exact { hr with current := rfl }
  · exact h

theorem begin (h : Alike b b') (requestId : String) :
    Alike (b.begin requestId).1 (b'.begin requestId).1 ∧
      (b'.begin requestId).2 = (b.begin requestId).2 := by
  obtain ⟨ha, hi⟩ := h.retireCurrent.add requestId 0 b.reporting false
  simp only [Board.begin, h.reporting]
  exact ⟨{ ha with current := congrArg some hi }, hi⟩

theorem beginOwned (h : Alike b b') (requestId : String) (state : PhaseState) :
    Alike (b.beginOwned requestId state).1 (b'.beginOwned requestId state).1 ∧
      (b'.beginOwned requestId state).2 = (b.beginOwned requestId state).2 := by
  simp only [Board.beginOwned]
  split
  · exact h.begin requestId
  · simp only [Board.detached, h.reporting]
    exact h.add requestId 0 b.reporting true

theorem gatingDrop (h : Alike b b') (state : PhaseState) (reason : DropReason)
    (source message : String) (now now' : Timestamp) :
    Alike (b.gatingDrop state reason source message now)
      (b'.gatingDrop state reason source message now') := by
  simp only [Board.gatingDrop, h.current]
  split
  · exact h
  · rename_i i _
    have hc : concerns state (b'.attempt i) = concerns state (b.attempt i) := by
      rw [concerns, concerns, (h.attempt i).requestId]
    rw [hc]
    split
    · exact h.note i _ now now'
    · exact h

theorem setAxes (h : Alike b b') (i : Nat) (requested : Axes) (catalog : Catalog) :
    Alike (b.setAxes i requested catalog).1 (b'.setAxes i requested catalog).1 := by
  exact (h.setAttempt ((h.attempt i).withAxes (requested.filter catalog)) i).publish i

theorem cancelRequested (h : Alike b b') (i : Nat) (state : PhaseState) (source : String)
    (now now' : Timestamp) :
    Alike (b.cancelRequested i state source now).1 (b'.cancelRequested i state source now').1 := by
  simp only [Board.cancelRequested]
  split
  · exact h.note i _ now now'
  · exact h

/-- What a display shows when an attempt was published. -/
theorem latest_publish (b : Board) (i j : Nat) :
    ((b.publish i).displayAt j).latest =
      if (b.attempt i).retired = false ∧ (b.attempt i).display = j ∧ j < b.displays.length then
        (b.attempt i).snapshot
      else (b.displayAt j).latest := by
  cases hr : (b.attempt i).retired with
  | true => rw [publish_of_retired hr, if_neg (by simp)]
  | false => rw [publish_of_live hr, latest_publishTo]; simp

theorem attempt_revise (a : Attempt) (hi : i < b.attempts.length) (j : Nat) :
    ((b.setAttempt i a).publish i).attempt j = if i = j then a else b.attempt j := by
  rw [attempt_publish]
  split
  · rename_i hij
    exact hij ▸ attempt_setAttempt_self a hi
  · rename_i hij
    exact attempt_setAttempt_ne a hij

theorem latest_revise (a : Attempt) (hi : i < b.attempts.length) (j : Nat) :
    (((b.setAttempt i a).publish i).displayAt j).latest =
      if a.retired = false ∧ a.display = j ∧ j < b.displays.length then a.snapshot
      else (b.displayAt j).latest := by
  rw [latest_publish, attempt_setAttempt_self a hi]
  rfl

/-- Of two revisions of an attempt the later one is what is left to see. -/
theorem revise_twice (hi : i < b.attempts.length) (hd : a'.display = a.display)
    (hr : a'.retired = a.retired) :
    Alike ((((b.setAttempt i a).publish i).setAttempt i a').publish i)
      ((b.setAttempt i a').publish i) := by
  have hi' : i < ((b.setAttempt i a).publish i).attempts.length := by
    simpa [Board.setAttempt, attempts_publish] using hi
  have current : ((b.setAttempt i a).publish i).current = b.current := current_publish ..
  have displays : ((b.setAttempt i a).publish i).displays.length = b.displays.length :=
    length_displays_publish ..
  have reporting : ∀ b : Board, (b.publish i).reporting = b.reporting := fun b => by
    rw [Board.publish]
    split <;> rfl
  have reports : ((b.setAttempt i a).publish i).reporting = b.reporting := reporting _
  constructor
  case length => simp [Board.setAttempt, attempts_publish]
  case attempt =>
    intro j
    rw [attempt_revise a' hi', attempt_revise a' hi, attempt_revise a hi]
    split <;> exact .refl _
  case current =>
    rw [current_publish, current_publish]
    exact current.symm
  case lengthDisplays =>
    rw [length_displays_publish, length_displays_publish]
    exact displays.symm
  case latest =>
    intro j
    rw [latest_revise a' hi', latest_revise a' hi, latest_revise a hi, displays, hd, hr]
    split <;> rfl
  case reporting =>
    rw [reporting, reporting]
    exact reports.symm

/-- A note that is logged is a revision of its attempt. -/
theorem revise_of_record? {n : Note} {now : Timestamp} {e : StreamEvent}
    (h : (b.attempt i).record? n now = some (a, e)) :
    Alike (b.note i n now) ((b.setAttempt i a).publish i) := by
  rw [Board.note, Board.record]
  simp only [h]
  split
  · exact { refl ((b.setAttempt i a).publish i) with }
  · exact .refl _

/-- A chunk that is not kept leaves no trace. -/
theorem note_chunk_of_dropped {s : String} (h : (b.attempt i).transcript.keeps s = false)
    (now : Timestamp) : b.note i (.chunk s) now = b := by
  have hr : (b.attempt i).record? (.chunk s) now = none := by
    simp [Attempt.record?, Transcript.note?, Transcript.chunk?, h]
  simp [Board.note, Board.record, hr]

theorem note_chunk_of_kept {s : String} (h : (b.attempt i).transcript.keeps s = true)
    (now : Timestamp) : ∃ events,
      Alike (b.note i (.chunk s) now) ((b.setAttempt i ((b.attempt i).received s events)).publish i) := by
  have hr : (b.attempt i).record? (.chunk s) now = some ((b.attempt i).received s
      ((b.attempt i).events ++ [(b.attempt i).entry (.chunk s) now]),
      (b.attempt i).entry (.chunk s) now) := by
    simp [Attempt.record?, Attempt.received, Transcript.note?, Transcript.chunk?, h]
  exact ⟨_, revise_of_record? hr⟩

/-- Two chunks of a response come to the same as both in one. -/
theorem chunk_append (h : Alike b b') (hi : i < b.attempts.length) {s t : String}
    (hs : Text.isBlankText s = false) (ht : t = "" ∨ Text.isBlankText t = false)
    (now now' now'' : Timestamp) :
    Alike ((b.note i (.chunk s) now).note i (.chunk t) now') (b'.note i (.chunk (s ++ t)) now'') := by
  have hst : Text.isBlankText (s ++ t) = false := by
    simp only [Text.isBlankText, String.toList_append, List.all_append] at hs ⊢
    rw [hs, Bool.false_and]
  have errored := (h.attempt i).transcript.errored
  cases he : (b.attempt i).transcript.errored with
  | true =>
    have hb : b.note i (.chunk s) now = b := note_chunk_of_dropped (by simp [Transcript.keeps, he]) now
    have hb' : b'.note i (.chunk (s ++ t)) now'' = b' :=
      note_chunk_of_dropped (by simp [Transcript.keeps, errored, he]) now''
    rw [hb, note_chunk_of_dropped (by simp [Transcript.keeps, he]), hb']
    exact h
  | false =>
    rcases ht with rfl | ht
    · rw [note_chunk_of_dropped (by simp [Transcript.keeps, Text.isBlankText]), String.append_empty]
      exact h.note i _ now now''
    · obtain ⟨es, first⟩ := note_chunk_of_kept (b := b) (i := i) (s := s)
        (by simp [Transcript.keeps, he, hs]) now
      let c := (b.setAttempt i ((b.attempt i).received s es)).publish i
      have ha : c.attempt i = (b.attempt i).received s es := by
        rw [attempt_publish, attempt_setAttempt_self _ hi]
      obtain ⟨es', second⟩ := note_chunk_of_kept (b := c) (i := i) (s := t)
        (by rw [ha]; simp [Attempt.received, Transcript.keeps, he, ht]) now'
      obtain ⟨es'', whole⟩ := note_chunk_of_kept (b := b') (i := i) (s := s ++ t)
        (by simp [Transcript.keeps, errored, he, hst]) now''
      rw [ha] at second
      have pieces := ((first.note i _ now' now').trans second).trans (revise_twice hi rfl rfl)
      have same := (h.setAttempt ((h.attempt i).received_append s t es es' es'') i).publish i
      exact (pieces.trans same).trans whole.symm

end Board.Alike

end PromptDesk
