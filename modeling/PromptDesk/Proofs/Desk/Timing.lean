import PromptDesk.Proofs.Desk.Waiting

/-! Reading against the clock. A stream whose items are apart in time is read item by item, and every
chunk starts the idle limit anew, so reading lasts until the first gap that is not shorter than the
limit, or to the end of the stream. -/
namespace PromptDesk

/-- A stream of chunks, each of them after a gap, that ends after a last gap, well or with a failure. -/
structure TimedStream where
  chunks : List (Nat × String)
  last : Nat
  ending : Option Failure
  deriving DecidableEq, Repr

namespace TimedStream

/-- What the transport does on such a stream. -/
def items (s : TimedStream) : List Item :=
  s.chunks.flatMap (fun c => [.delay c.1, .chunk c.2]) ++
    .delay s.last :: (s.ending.map Item.fail).toList

/-- A gap is shorter than the idle limit, where there is one. -/
def inTime (idle : Option Nat) (gap : Nat) : Bool := idle.all fun ms => ms = 0 || gap < ms

/-- The chunks before the first gap that is too long. -/
def delivered (s : TimedStream) (idle : Option Nat) : List (Nat × String) :=
  s.chunks.takeWhile fun c => inTime idle c.1

/-- Some gap is too long, the last one included. -/
def isLate (s : TimedStream) (idle : Option Nat) : Bool :=
  !(s.chunks.all (inTime idle ·.1) && inTime idle s.last)

/-- How long chunks are on their way. -/
def elapsed (chunks : List (Nat × String)) : Nat := (chunks.map Prod.fst).sum

/-- The texts of chunks that are not blank. -/
def kept (chunks : List (Nat × String)) : List String :=
  (chunks.map Prod.snd).filter (!Text.isBlankText ·)

/-- How long reading takes: to the end of the stream, or until a limit is over that started with the last
chunk before it. -/
def duration (s : TimedStream) (idle : Option Nat) : Nat :=
  elapsed (s.delivered idle) + if s.isLate idle then idle.getD 0 else s.last

/-- How reading ends, with the texts that were there before. -/
def outcome (s : TimedStream) (idle : Option Nat) (before : List String) : ReadOutcome :=
  if s.isLate idle then .failed (.timeout (UInt64.ofNat (idle.getD 0)))
  else match s.ending with
    | none => .completed (String.join (before ++ kept (s.delivered idle)))
    | some f => .failed f

/-- The gap in front of the chunks that are left, or of the end. -/
def gapBefore (s : TimedStream) (left : List (Nat × String)) : Nat :=
  (left.head?.map Prod.fst).getD s.last

/-- The stream with one more chunk in front. -/
def after (s : TimedStream) (gap : Nat) (text : String) : TimedStream :=
  { s with chunks := (gap, text) :: s.chunks }

variable {s : TimedStream} {idle : Option Nat} {gap : Nat} {text : String}

theorem items_after : (s.after gap text).items = .delay gap :: .chunk text :: s.items := rfl

theorem delivered_after (h : inTime idle gap = true) :
    (s.after gap text).delivered idle = (gap, text) :: s.delivered idle := List.takeWhile_cons_of_pos h

theorem isLate_after (h : inTime idle gap = true) : (s.after gap text).isLate idle = s.isLate idle := by
  simp [isLate, after, h]

theorem duration_after (h : inTime idle gap = true) :
    (s.after gap text).duration idle = gap + s.duration idle := by
  rw [duration, delivered_after h, isLate_after h, duration, elapsed, List.map_cons, List.sum_cons,
    Nat.add_assoc]
  rfl

theorem kept_cons (chunks : List (Nat × String)) :
    kept ((gap, text) :: chunks) = kept [(gap, text)] ++ kept chunks := by
  rw [kept, List.map_cons, ← List.singleton_append, List.filter_append]
  rfl

theorem outcome_after (h : inTime idle gap = true) (before : List String) :
    (s.after gap text).outcome idle before = s.outcome idle (before ++ kept [(gap, text)]) := by
  rw [outcome, isLate_after h, delivered_after h, kept_cons, ← List.append_assoc]
  rfl

theorem late_of_first (h : inTime idle (s.gapBefore s.chunks) = false) :
    s.delivered idle = [] ∧ s.isLate idle = true := by
  obtain ⟨_ | ⟨⟨gap, text⟩, chunks⟩, last, ending⟩ := s
  · have h : inTime idle last = false := h
    simp [delivered, isLate, h]
  · have h : inTime idle gap = false := h
    simp [delivered, isLate, h]

end TimedStream

namespace Attempt

/-- An attempt has some more texts, and an ending if there is one. -/
structure Extended (texts : List String) (ending : List EventKind) (a a' : Attempt) : Prop where
  chunks : a'.transcript.chunks = a.transcript.chunks ++ texts
  course : a'.course = a.course ++ (texts.map fun _ => EventKind.chunk) ++ ending
  chunkTexts : a'.chunkTexts = a.chunkTexts ++ texts
  errored : a'.transcript.errored = (a.transcript.errored || ending.contains .error)

variable {a a' a'' : Attempt} {texts texts' : List String} {ending : List EventKind}

namespace Extended

theorem of_glossed (h : a.Glossed a') : Extended [] [] a a' where
  chunks := by rw [h.chunks, List.append_nil]
  course := by rw [h.course, List.map_nil, List.append_nil, List.append_nil]
  chunkTexts := by rw [h.chunkTexts, List.append_nil]
  errored := by rw [h.errored]; simp

theorem trans (h : Extended texts [] a a') (h' : Extended texts' ending a' a'') :
    Extended (texts ++ texts') ending a a'' where
  chunks := by rw [h'.chunks, h.chunks, List.append_assoc]
  course := by
    rw [h'.course, h.course, List.append_nil, List.map_append]
    simp only [List.append_assoc]
  chunkTexts := by rw [h'.chunkTexts, h.chunkTexts, List.append_assoc]
  errored := by rw [h'.errored, h.errored]; simp

/-- A chunk is kept, unless it is blank. -/
theorem chunk (fresh : a.transcript.errored = false) (now : Timestamp) (gap : Nat) (text : String) :
    Extended (TimedStream.kept [(gap, text)]) [] a (a.noted (.chunk text) now) := by
  cases hb : Text.isBlankText text with
  | true =>
    have hn : a.transcript.note? (.chunk text) = none := by
      simp [Transcript.note?, Transcript.chunk?, Transcript.keeps, hb]
    have hk : TimedStream.kept [(gap, text)] = [] := by simp [TimedStream.kept, hb]
    rw [noted_of_none hn, hk]
    exact .of_glossed (.refl a)
  | false =>
    have hn : a.transcript.note? (.chunk text) =
        some { a.transcript with chunks := a.transcript.chunks ++ [text] } := by
      simp [Transcript.note?, Transcript.chunk?, Transcript.keeps, hb, fresh]
    have hk : TimedStream.kept [(gap, text)] = [text] := by simp [TimedStream.kept, hb]
    have hc : (a.entry (.chunk text) now).kind = .chunk := rfl
    rw [noted_of_some hn, hk]
    refine ⟨rfl, ?_, ?_, by simp [fresh]⟩
    · rw [course_append, List.append_nil]
      rfl
    · rw [chunkTexts_append, if_pos hc, textAt_chunk]

theorem complete (fresh : a.transcript.errored = false) (now : Timestamp) :
    Extended [] [.complete] a (a.noted .complete now) := by
  have hn : a.transcript.note? .complete = some { a.transcript with completed := true } := by
    simp [Transcript.note?, Transcript.complete?, fresh]
  have hc : Note.complete.kind ≠ .chunk := by decide
  rw [noted_of_some hn]
  refine ⟨(List.append_nil _).symm, ?_, ?_, by simp [fresh]⟩
  · rw [course_append, List.map_nil, List.append_nil]
    rfl
  · exact (chunkTexts_append a _ _).trans (congrArg _ (if_neg hc))

theorem error (a : Attempt) (message : String) (now : Timestamp) :
    Extended [] [.error] a (a.noted (.error message) now) ∧
      (a.noted (.error message) now).transcript.errorMessage = message := by
  have hn : a.transcript.note? (.error message) = some (a.transcript.error message) := rfl
  have hc : (Note.error message).kind ≠ .chunk := by simp [Note.kind]
  rw [noted_of_some hn]
  refine ⟨⟨(List.append_nil _).symm, ?_, ?_, by simp [Transcript.error]⟩, rfl⟩
  · rw [course_append, List.map_nil, List.append_nil]
    rfl
  · exact (chunkTexts_append a _ _).trans (congrArg _ (if_neg hc))

end Extended

end Attempt

namespace TimedStream

variable {s : TimedStream} {idle : Option Nat} {i gap : Nat} {text : String}
  {d d₁ d' : Desk} {outcome : ReadOutcome}

/-- What reading a stream into an attempt comes to if nobody cancels it. -/
structure Ends (s : TimedStream) (idle : Option Nat) (i : Nat) (d d' : Desk)
    (outcome : ReadOutcome) : Prop where
  result : outcome = s.outcome idle (d.board.attempt i).transcript.chunks
  clock : d'.clock = d.clock + s.duration idle
  recorded : (d.board.attempt i).Extended (kept (s.delivered idle)) (outcome.notes.map Note.kind)
    (d'.board.attempt i)
  message : ∀ f, outcome = .failed f → (d'.board.attempt i).transcript.errorMessage = f.message

/-- What it comes to if it is cancelled: some chunks were read, and the clock stands somewhere in the gap
behind them. -/
structure CutOff (s : TimedStream) (idle : Option Nat) (i : Nat) (d d' : Desk)
    (outcome : ReadOutcome) : Prop where
  result : outcome = .cancelled (d'.board.attempt i).text
  recorded : ∃ read left, s.chunks = read ++ left ∧ (∀ c ∈ read, inTime idle c.1 = true) ∧
    (d.board.attempt i).Extended (kept read) [] (d'.board.attempt i) ∧
    d.clock + elapsed read ≤ d'.clock ∧ d'.clock ≤ d.clock + elapsed read + s.gapBefore left

theorem Ends.after (h : s.Ends idle i d₁ d' outcome) (early : inTime idle gap = true)
    (clock : d₁.clock = d.clock + gap)
    (recorded : (d.board.attempt i).Extended (kept [(gap, text)]) [] (d₁.board.attempt i)) :
    (s.after gap text).Ends idle i d d' outcome where
  result := by rw [h.result, outcome_after early, recorded.chunks]
  clock := by rw [h.clock, clock, duration_after early, Nat.add_assoc]
  recorded := by
    rw [delivered_after early, kept_cons]
    exact recorded.trans h.recorded
  message := h.message

theorem CutOff.after (h : s.CutOff idle i d₁ d' outcome) (early : inTime idle gap = true)
    (clock : d₁.clock = d.clock + gap)
    (recorded : (d.board.attempt i).Extended (kept [(gap, text)]) [] (d₁.board.attempt i)) :
    (s.after gap text).CutOff idle i d d' outcome where
  result := h.result
  recorded := by
    obtain ⟨read, left, hs, inTime, recorded', lower, upper⟩ := h.recorded
    have helapsed : elapsed ((gap, text) :: read) = gap + elapsed read := rfl
    refine ⟨(gap, text) :: read, left, congrArg _ hs, ?_, ?_, ?_, ?_⟩
    · simpa using ⟨early, fun a b => inTime (a, b)⟩
    · rw [kept_cons]
      exact recorded.trans recorded'
    · rw [helapsed]
      omega
    · have hgap : (s.after gap text).gapBefore left = s.gapBefore left := rfl
      rw [helapsed, hgap]
      omega

/-- Reading ends as the stream says, unless the token is tripped when it ends. -/
structure Follows (s : TimedStream) (idle : Option Nat) (i : Nat) (token : Option Nat)
    (d d' : Desk) (outcome : ReadOutcome) : Prop where
  ends : token.any d'.slot.isTripped = false → s.Ends idle i d d' outcome
  cutOff : token.any d'.slot.isTripped = true → s.CutOff idle i d d' outcome

theorem Follows.after {token : Option Nat} (h : s.Follows idle i token d₁ d' outcome)
    (early : inTime idle gap = true) (clock : d₁.clock = d.clock + gap)
    (recorded : (d.board.attempt i).Extended (kept [(gap, text)]) [] (d₁.board.attempt i)) :
    (s.after gap text).Follows idle i token d d' outcome where
  ends untripped := (h.ends untripped).after early clock recorded
  cutOff tripped := (h.cutOff tripped).after early clock recorded

end TimedStream

namespace Desk

open TimedStream (inTime kept)

variable {s : TimedStream} {idle : Option Nat} {i gap : Nat} {token : Option Nat}
  {d d₁ d' : Desk} {outcome : ReadOutcome} {rest : List Item}

/-- The idle limit of a reader that starts now, or that has just read something. -/
def idleLimit (idle : Option Nat) (d : Desk) : Option Limit := idle.bind (Limit.start · d.clock)

theorem mem_idleLimit {l : Limit} :
    l ∈ d.idleLimit idle ↔ ∃ ms, idle = some ms ∧ ms ≠ 0 ∧ l = ⟨ms, d.clock + ms⟩ := by
  cases idle with
  | none => simp [idleLimit]
  | some ms =>
    by_cases h : ms = 0
    · simp [idleLimit, Limit.start, h]
    · simp [idleLimit, Limit.start, h, eq_comm]

theorem ahead_idleLimit (idle : Option Nat) (d : Desk) : ∀ l ∈ d.idleLimit idle, d.clock < l.due := by
  intro l hl
  obtain ⟨ms, -, hms, rfl⟩ := mem_idleLimit.1 hl
  exact Nat.lt_add_of_pos_right (Nat.pos_of_ne_zero hms)

theorem inTime_of_ahead (clock : d₁.clock = d.clock + gap)
    (ahead : ∀ l ∈ d.idleLimit idle, d₁.clock < l.due) : inTime idle gap = true := by
  cases idle with
  | none => rfl
  | some ms =>
    rw [inTime, Option.all_some, Bool.or_eq_true, decide_eq_true_iff, decide_eq_true_iff]
    by_cases hms : ms = 0
    · exact .inl hms
    · have hlt := ahead _ (mem_idleLimit.2 ⟨ms, rfl, hms, rfl⟩)
      rw [clock] at hlt
      exact .inr (Nat.lt_of_add_lt_add_left hlt)

theorem restart_idleLimit (idle : Option Nat) (d d₁ : Desk) :
    (d.idleLimit idle).map (·.restart d₁.clock) = d₁.idleLimit idle := by
  cases idle with
  | none => rfl
  | some ms => by_cases h : ms = 0 <;> simp [idleLimit, Limit.start, Limit.restart, h]

theorem readItems_delay (i : Nat) (token : Option Nat) (limit : Option Limit) (gap : Nat)
    (rest : List Item) (d : Desk) : readItems i token (.delay gap :: rest) limit d =
      if gap = 0 then readItems i token rest limit d
      else (d, .waiting ⟨i, token, limit, { pause := some (.clock (d.clock + gap)), rest := rest }⟩) := by
  by_cases h : gap = 0 <;> simp [readItems, pauseAt, h]

/-- A chunk that has come is noted, and then the idle limit starts anew. -/
theorem readItems_chunk (untripped : token.any d₁.slot.isTripped = false) (i : Nat)
    (idle : Option Nat) (d : Desk) (text : String) (rest : List Item) :
    readItems i token (.chunk text :: rest) (d.idleLimit idle) d₁ =
      readItems i token rest ((d₁.note i (.chunk text)).idleLimit idle) (d₁.note i (.chunk text)) := by
  generalize hd₂ : d₁.note i (.chunk text) = d₂
  have untripped₂ : token.any d₂.slot.isTripped = false := hd₂ ▸ untripped
  have hclock : d₂.clock = d₁.clock := hd₂ ▸ rfl
  rw [readItems, hd₂, ← hclock, restart_idleLimit, halt?_eq_none i untripped₂ (ahead_idleLimit idle d₂)]

/-- A gap in the stream is a pause, unless it is none. -/
theorem ReadsTo.of_delay
    (h : ReadsTo (readItems i token (.delay gap :: rest) (d.idleLimit idle) d) d' outcome)
    (untripped : token.any d.slot.isTripped = false) :
    ∃ d₁, Glosses i d d₁ ∧ d.clock ≤ d₁.clock ∧ d₁.clock ≤ d.clock + gap ∧
      Wakes i token (d.idleLimit idle) (d.clock + gap) rest d₁ d' outcome := by
  rw [readItems_delay] at h
  by_cases hgap : gap = 0
  · rw [if_pos hgap] at h
    subst hgap
    exact ⟨d, .of_eq rfl rfl, le_refl _, le_refl _, .passed untripped rfl (ahead_idleLimit idle d) h⟩
  · rw [if_neg hgap] at h
    obtain ⟨d₁, glosses, lower, upper, -, wakes⟩ :=
      h.wakes (Nat.lt_add_of_pos_right (Nat.pos_of_ne_zero hgap)) (ahead_idleLimit idle d)
    exact ⟨d₁, glosses, lower, upper, wakes⟩

theorem Glosses.extended (h : Glosses i d d₁) (hi : i < d.board.attempts.length) :
    (d.board.attempt i).Extended [] [] (d₁.board.attempt i) := .of_glossed (h.glossed hi)

/-- Reading that is cancelled in front of the first chunk. -/
theorem cutOff_first (glosses : Glosses i d d₁) (hi : i < d.board.attempts.length)
    (lower : d.clock ≤ d₁.clock) (upper : d₁.clock ≤ d.clock + s.gapBefore s.chunks) :
    s.CutOff idle i d d₁ (.cancelled (d₁.board.attempt i).text) where
  result := rfl
  recorded := ⟨[], s.chunks, rfl, by simp, glosses.extended hi, lower, upper⟩

/-- Reading that waits in vain for the first chunk. -/
theorem ends_late (glosses : Glosses i d d₁) (hi : i < d.board.attempts.length)
    (upper : d₁.clock ≤ d.clock + s.gapBefore s.chunks) {l : Limit} (hl : l ∈ d.idleLimit idle)
    (clock : d₁.clock = l.due) :
    s.Ends idle i d (d₁.note i (.error l.failure.message)) (.failed l.failure) := by
  obtain ⟨ms, rfl, hms, rfl⟩ := mem_idleLimit.1 hl
  have hclock : d₁.clock = d.clock + ms := clock
  have hlate : inTime (some ms) (s.gapBefore s.chunks) = false := by
    simp only [inTime, Option.all_some, Bool.or_eq_false_iff, decide_eq_false_iff_not]
    exact ⟨hms, by omega⟩
  obtain ⟨hdelivered, hisLate⟩ := TimedStream.late_of_first hlate
  have hi₁ : i < d₁.board.attempts.length := Nat.lt_of_lt_of_le hi glosses.grows
  obtain ⟨recorded, message⟩ := Attempt.Extended.error (d₁.board.attempt i)
    (Limit.failure ⟨ms, d.clock + ms⟩).message d₁.now
  rw [← attempt_note hi₁] at recorded message
  refine ⟨?_, ?_, ?_, ?_⟩
  · rw [TimedStream.outcome, hisLate, if_pos rfl]
    rfl
  · rw [TimedStream.duration, hdelivered, hisLate, if_pos rfl]
    exact hclock.trans (by simp [TimedStream.elapsed])
  · rw [hdelivered]
    exact (glosses.extended hi).trans recorded
  · intro f hf
    cases hf
    exact message

/-- Reading of what is left when all chunks have come in time. -/
theorem ends_last (glosses : Glosses i d d₁) (hi : i < d.board.attempts.length)
    (fresh : (d.board.attempt i).transcript.errored = false) {last : Nat} {ending : Option Failure}
    (early : inTime idle last = true) (clock : d₁.clock = d.clock + last)
    {limit : Option Limit}
    (run : ReadsTo (readItems i token (ending.map Item.fail).toList limit d₁) d' outcome) :
    (TimedStream.mk [] last ending).Ends idle i d d' outcome ∧
      d'.slot = d₁.slot := by
  have hi₁ : i < d₁.board.attempts.length := Nat.lt_of_lt_of_le hi glosses.grows
  have fresh₁ : (d₁.board.attempt i).transcript.errored = false := by
    rw [(glosses.glossed hi).errored, fresh]
  have hlate : (TimedStream.mk [] last ending).isLate idle = false := by
    simp [TimedStream.isLate, early]
  have hduration : d₁.clock = d.clock + (TimedStream.mk [] last ending).duration idle := by
    rw [TimedStream.duration, hlate, clock]
    simp [TimedStream.delivered, TimedStream.elapsed]
  cases ending with
  | none =>
    have recorded := Attempt.Extended.complete fresh₁ d₁.now
    rw [← attempt_note hi₁] at recorded
    have recorded := (glosses.extended hi).trans recorded
    cases run
    refine ⟨⟨?_, hduration, recorded, nofun⟩, rfl⟩
    rw [TimedStream.outcome, hlate, if_neg Bool.false_ne_true]
    exact congrArg (ReadOutcome.completed ∘ String.join) recorded.chunks
  | some f =>
    obtain ⟨recorded, message⟩ := Attempt.Extended.error (d₁.board.attempt i) f.message d₁.now
    rw [← attempt_note hi₁] at recorded message
    have recorded := (glosses.extended hi).trans recorded
    cases run
    refine ⟨⟨?_, hduration, recorded, ?_⟩, rfl⟩
    · rw [TimedStream.outcome, hlate, if_neg Bool.false_ne_true]
    · rintro _ ⟨⟩
      exact message

/-- In front of the first chunk, or of the end, a run is through, or the gap is over in time. -/
theorem ReadsTo.first
    (run : ReadsTo (readItems i token (.delay (s.gapBefore s.chunks) :: rest) (d.idleLimit idle) d)
      d' outcome)
    (untripped : token.any d.slot.isTripped = false) (hi : i < d.board.attempts.length) :
    s.Follows idle i token d d' outcome ∨ ∃ d₁, Glosses i d d₁ ∧
      token.any d₁.slot.isTripped = false ∧ inTime idle (s.gapBefore s.chunks) = true ∧
      d₁.clock = d.clock + s.gapBefore s.chunks ∧
      ReadsTo (readItems i token rest (d.idleLimit idle) d₁) d' outcome := by
  obtain ⟨d₁, glosses, lower, upper, wakes⟩ := run.of_delay untripped
  cases wakes with
  | cancelled tripped desk outcome =>
    subst desk outcome
    refine .inl ⟨fun h => ?_, fun _ => cutOff_first glosses hi lower upper⟩
    rw [tripped] at h
    cases h
  | late untripped₁ l limit clock desk outcome =>
    subst desk outcome
    refine .inl ⟨fun _ => ends_late glosses hi upper limit clock, fun h => ?_⟩
    have h : token.any d₁.slot.isTripped = true := h
    rw [untripped₁] at h
    cases h
  | passed untripped₁ clock ahead run =>
    exact .inr ⟨d₁, glosses, untripped₁, inTime_of_ahead clock ahead, clock, run⟩

/-- A run of a reader follows the stream. -/
theorem ReadsTo.stream
    (run : ReadsTo (readItems i token s.items (d.idleLimit idle) d) d' outcome)
    (untripped : token.any d.slot.isTripped = false) (hi : i < d.board.attempts.length)
    (fresh : (d.board.attempt i).transcript.errored = false) :
    s.Follows idle i token d d' outcome := by
  obtain ⟨chunks, last, ending⟩ := s
  induction chunks generalizing d with
  | nil =>
    obtain follows | ⟨d₁, glosses, untripped₁, early, clock, run⟩ :=
      ReadsTo.first (s := ⟨[], last, ending⟩) run untripped hi
    · exact follows
    · obtain ⟨ends, slot⟩ := ends_last glosses hi fresh early clock run
      refine ⟨fun _ => ends, fun h => ?_⟩
      rw [slot, untripped₁] at h
      cases h
  | cons c chunks ih =>
    obtain ⟨gap, text⟩ := c
    have run : ReadsTo (readItems i token ((TimedStream.mk chunks last ending).after gap text).items
        (d.idleLimit idle) d) d' outcome := run
    rw [TimedStream.items_after] at run
    obtain follows | ⟨d₁, glosses, untripped₁, early, clock, run⟩ :=
      ReadsTo.first (s := ⟨(gap, text) :: chunks, last, ending⟩) run untripped hi
    · exact follows
    · have hi₁ : i < d₁.board.attempts.length := Nat.lt_of_lt_of_le hi glosses.grows
      have fresh₁ : (d₁.board.attempt i).transcript.errored = false := by
        rw [(glosses.glossed hi).errored, fresh]
      have recorded := (glosses.extended hi).trans (.chunk fresh₁ d₁.now gap text)
      rw [← attempt_note hi₁] at recorded
      rw [readItems_chunk untripped₁] at run
      have hi₂ : i < (d₁.note i (.chunk text)).board.attempts.length := by rwa [length_note]
      have fresh₂ : ((d₁.note i (.chunk text)).board.attempt i).transcript.errored = false := by
        rw [recorded.errored, fresh]
        rfl
      exact (ih (d := d₁.note i (.chunk text)) untripped₁ hi₂ fresh₂ run).after early clock recorded

/-! ### Alone at a desk -/

/-- A reader in the foreground is through after some turns, and its token is not tripped then. -/
structure Finishes (n : Nat) (token : Option Nat) (x : Desk × Drained) (d' : Desk)
    (outcome : ReadOutcome) : Prop where
  run : ReadsTo x d' outcome
  untripped : token.any d'.slot.isTripped = false
  finishes : ∀ fuel, n ≤ fuel → goOn fuel x = (d', some (.success (.reading outcome)))

theorem Finishes.mono {n m : Nat} {x : Desk × Drained} (h : Finishes n token x d' outcome)
    (hn : n ≤ m) : Finishes m token x d' outcome :=
  ⟨h.run, h.untripped, fun fuel hf => h.finishes fuel (hn.trans hf)⟩

theorem Finishes.of_ended {x : Desk × Drained} (ended : x.2 = .ended outcome)
    (untripped : token.any x.1.slot.isTripped = false) : Finishes 0 token x x.1 outcome := by
  obtain ⟨d, _⟩ := x
  obtain rfl := ended
  exact ⟨.ends d outcome, untripped, fun _ _ => rfl⟩

/-- For a reader that is alone a gap ends at its limit or in time. -/
theorem AtRest.finishes_delay (h : d.AtRest) (untripped : token.any d.slot.isTripped = false)
    (i : Nat) (idle : Option Nat) (gap : Nat) (rest : List Item) :
    let x := readItems i token (.delay gap :: rest) (d.idleLimit idle) d
    (∃ d' outcome, Finishes 1 token x d' outcome) ∨ ∃ now, ∀ n d' outcome,
      Finishes n token (readItems i token rest (d.idleLimit idle) { d with clock := now }) d' outcome →
        Finishes (n + 1) token x d' outcome := by
  intro x
  have hx : x = _ := readItems_delay i token (d.idleLimit idle) gap rest d
  by_cases hgap : gap = 0
  · rw [if_pos hgap] at hx
    refine .inr ⟨d.clock, fun n d' outcome hn => ?_⟩
    rw [hx]
    exact hn.mono (Nat.le_succ n)
  · rw [if_neg hgap] at hx
    have hdue : d.clock < d.clock + gap := Nat.lt_add_of_pos_right (Nat.pos_of_ne_zero hgap)
    have ahead := ahead_idleLimit idle d
    obtain ⟨now, awaits, hgoOn, hnow⟩ := h.goOn_waiting untripped hdue ahead i rest ""
    generalize hd₁ : ({ d with clock := now } : Desk) = d₁ at awaits hgoOn
    have untripped₁ : token.any d₁.slot.isTripped = false := hd₁ ▸ untripped
    have hclock : d₁.clock = now := hd₁ ▸ rfl
    -- one turn later
    have turn : ∀ n d' outcome, Finishes n token
        (d₁.read ⟨i, token, d.idleLimit idle, ⟨some (.clock (d.clock + gap)), rest, ""⟩⟩) d' outcome →
        Finishes (n + 1) token x d' outcome := by
      intro n d' outcome hn
      rw [hx]
      refine ⟨.waits awaits hn.run, hn.untripped, fun fuel hf => ?_⟩
      obtain ⟨fuel, rfl⟩ := Nat.exists_eq_add_of_le' (Nat.le_of_add_left_le hf)
      exact (hgoOn fuel).trans (hn.finishes fuel (Nat.le_of_add_le_add_right hf))
    by_cases late : ∃ l, d.idleLimit idle = some l ∧ l.due ≤ d₁.clock
    · obtain ⟨l, hl, hdue⟩ := late
      rw [hl, read_late untripped₁ hdue] at turn
      exact .inl ⟨_, _, turn 0 _ _ (.of_ended rfl untripped₁)⟩
    · have ahead₁ : ∀ l ∈ d.idleLimit idle, d₁.clock < l.due :=
        fun l hl => Nat.lt_of_not_le fun hle => late ⟨l, hl, hle⟩
      have hdue : d.clock + gap ≤ d₁.clock := by
        rcases hnow with rfl | ⟨l, hl, rfl⟩
        · exact hclock.ge
        · exact absurd hclock (ahead₁ l hl).ne
      rw [read_pause untripped₁ ahead₁, if_pos hdue] at turn
      refine .inr ⟨now, fun n d' outcome hn => turn n d' outcome ?_⟩
      rwa [hd₁] at hn

/-- A reader that is alone comes to the end of a stream, or to its idle limit. -/
theorem AtRest.finishes_stream (h : d.AtRest) (untripped : token.any d.slot.isTripped = false)
    (i : Nat) (idle : Option Nat) (s : TimedStream) : ∃ d' outcome,
      Finishes (s.chunks.length + 1) token (readItems i token s.items (d.idleLimit idle) d) d'
        outcome := by
  obtain ⟨chunks, last, ending⟩ := s
  induction chunks generalizing d with
  | nil =>
    obtain hlate | ⟨now, passed⟩ := h.finishes_delay untripped i idle last (ending.map Item.fail).toList
    · exact hlate
    · cases ending with
      | none => exact ⟨_, _, passed 0 _ _ (.of_ended rfl untripped)⟩
      | some f => exact ⟨_, _, passed 0 _ _ (.of_ended rfl untripped)⟩
  | cons c chunks ih =>
    obtain ⟨gap, text⟩ := c
    obtain ⟨d', outcome, hlate⟩ | ⟨now, passed⟩ := h.finishes_delay untripped i idle gap
      (.chunk text :: (TimedStream.mk chunks last ending).items)
    · exact ⟨d', outcome, hlate.mono (by simp)⟩
    · generalize hd₁ : ({ d with clock := now } : Desk) = d₁ at passed
      have untripped₁ : token.any d₁.slot.isTripped = false := hd₁ ▸ untripped
      have rest₁ : (d₁.note i (.chunk text)).AtRest := hd₁ ▸ ⟨h.queue, h.waits⟩
      obtain ⟨d', outcome, hn⟩ := ih (d := d₁.note i (.chunk text)) rest₁ untripped₁
      refine ⟨d', outcome, passed _ _ _ ?_⟩
      rwa [readItems_chunk untripped₁]

/-! ### The reader -/

/-- A reader that finds its token tripped behind a chunk is through, and that chunk was its last. -/
theorem readItems_tripped (tripped : token.any d.slot.isTripped = true) (i : Nat) (text : String)
    (rest : List Item) (limit : Option Limit) :
    readItems i token (.chunk text :: rest) limit d = (d.note i (.chunk text),
      .ended (.cancelled ((d.note i (.chunk text)).board.attempt i).text)) := by
  have hhalt := halt?_of_tripped (d := d.note i (.chunk text)) tripped i
  rw [readItems]
  simp only [hhalt]

/-- The first poll of a reader finds nothing, unless its token is tripped. -/
theorem read_start (untripped : token.any d.slot.isTripped = false) (i : Nat) (idle : Option Nat)
    (items : List Item) : d.read ⟨i, token, d.idleLimit idle, { rest := items }⟩ =
      readItems i token items (d.idleLimit idle) d := by
  rw [read, halt?_eq_none i untripped (ahead_idleLimit idle d)]
  rfl

/-- A failure is the only outcome that leaves an error on the attempt. -/
theorem errored_of_follows (h : s.Follows idle i token d d' outcome)
    (fresh : (d.board.attempt i).transcript.errored = false) :
    (d'.board.attempt i).transcript.errored = true ↔ ∃ f, outcome = .failed f := by
  cases tripped : token.any d'.slot.isTripped with
  | false =>
    have recorded := (h.ends tripped).recorded
    rw [recorded.errored, fresh, Bool.false_or]
    cases outcome <;> simp [ReadOutcome.notes, Note.kind]
  | true =>
    obtain ⟨result, _, _, _, _, recorded, _⟩ := h.cutOff tripped
    rw [recorded.errored, fresh]
    simp [result]

/-- A stream of chunks is read until the first gap that is not shorter than the idle limit, or to its end,
and what was read until then is recorded, blank chunks aside. A reader that finds its token tripped is
cancelled, with what was recorded before. -/
theorem reads_timed_stream (s : TimedStream) (idle : Option Nat) (token : Option Nat) {d : Desk}
    {i : Nat} (hi : i < d.board.attempts.length)
    (fresh : (d.board.attempt i).transcript.errored = false) :
    let r : Reader := ⟨i, token, idle.bind (Limit.start · d.clock), { rest := s.items }⟩
    (∀ d' outcome, ReadsTo (d.read r) d' outcome →
      (token.any d'.slot.isTripped = false → s.Ends idle i d d' outcome) ∧
      (token.any d'.slot.isTripped = true → s.CutOff idle i d d' outcome) ∧
      ((d'.board.attempt i).transcript.errored = true ↔ ∃ f, outcome = .failed f)) ∧
    (token.any d.slot.isTripped = false → d.AtRest → ∀ fuel, s.chunks.length + 1 < fuel →
      ∃ d' outcome, finishTask fuel (.read r) d = (d', some (.success (.reading outcome))) ∧
        ReadsTo (d.read r) d' outcome ∧ token.any d'.slot.isTripped = false) ∧
    (∀ (r : Reader) (d : Desk), r.token.any d.slot.isTripped = true →
      d.read r = (d, .ended (.cancelled (d.board.attempt r.attempt).text))) ∧
    ∀ text rest limit (d : Desk), token.any d.slot.isTripped = true →
      readItems i token (.chunk text :: rest) limit d = (d.note i (.chunk text),
        .ended (.cancelled ((d.note i (.chunk text)).board.attempt i).text)) := by
  intro r
  refine ⟨fun d' outcome run => ?_, fun untripped rest fuel hf => ?_, fun r d tripped => ?_,
    fun text rest limit d tripped => readItems_tripped tripped i text rest limit⟩
  · have follows : s.Follows idle i token d d' outcome := by
      cases untripped : token.any d.slot.isTripped with
      | false =>
        have hread : d.read r = _ := read_start untripped i idle s.items
        rw [hread] at run
        exact run.stream untripped hi fresh
      | true =>
        obtain ⟨rfl, rfl⟩ := run.of_tripped (r := r) untripped
        refine ⟨fun h => ?_, fun _ => cutOff_first (.of_eq rfl rfl) hi (le_refl _) (Nat.le_add_right _ _)⟩
        rw [untripped] at h
        cases h
    exact ⟨follows.ends, follows.cutOff, errored_of_follows follows fresh⟩
  · have hread : d.read r = _ := read_start untripped i idle s.items
    obtain ⟨d', outcome, run, untripped', finishes⟩ := rest.finishes_stream untripped i idle s
    obtain ⟨fuel, rfl⟩ := Nat.exists_eq_add_of_lt hf
    refine ⟨d', outcome, ?_, ?_, untripped'⟩
    · rw [finishTask_read, hread]
      exact finishes _ (by omega)
    · rw [hread]
      exact run
  · rw [read, halt?_of_tripped tripped]

/-- A blank chunk comes in time and is not kept, and the chunk after it comes too late. -/
theorem reads_timed_stream_late :
    let d : Desk := ({} : Desk).withBoard (({} : Board).begin "req-1").1
    let s : TimedStream := ⟨[(10, "a"), (5, " \n"), (15, "b")], 0, none⟩
    0 < d.board.attempts.length ∧ (d.board.attempt 0).transcript.errored = false ∧
      ∃ d', finishTask 5 (.read ⟨0, some 0, Limit.start 15 0, { rest := s.items }⟩) d =
          (d', some (.success (.reading (.failed (.timeout 15))))) ∧
        d'.clock = 30 ∧ (d'.board.attempt 0).transcript.chunks = ["a"] ∧
        (d'.board.attempt 0).transcript.errorMessage = "Timeout after 15ms" := by
  intro d s
  have hi : 0 < d.board.attempts.length := by decide
  have fresh : (d.board.attempt 0).transcript.errored = false := rfl
  obtain ⟨follows, finishes, -⟩ := reads_timed_stream s (some 15) (some 0) hi fresh
  obtain ⟨d', outcome, finish, run, untripped⟩ := finishes rfl ⟨rfl, rfl⟩ 5 (by decide)
  have ends := (follows d' outcome run).1 untripped
  have hdelivered : TimedStream.kept (s.delivered (some 15)) = ["a"] := by decide
  have hclock : d.clock + s.duration (some 15) = 30 := by decide
  obtain rfl : outcome = .failed (.timeout 15) := ends.result
  refine ⟨hi, fresh, d', finish, ends.clock.trans hclock, ?_, ?_⟩
  · rw [ends.recorded.chunks, hdelivered]
    rfl
  · rw [ends.message _ rfl]
    rfl

end Desk

end PromptDesk
