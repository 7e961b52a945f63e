import PromptDesk.Proofs.Board.Changes
import PromptDesk.Proofs.Board.Replay

/-! The course of an attempt is its log without what happened beside its request. What is read is
logged chunk by chunk, with all of the text that was kept, and then comes an ending. Refusals of
others and wishes to cancel may be logged in between and change nothing of that. -/
namespace PromptDesk

namespace Board.Use

/-- Whoever uses a board so logs nothing on an attempt but what happened beside its request. -/
def Glosses (i : Nat) : Use → Prop
  | note j n _ => j = i → n.kind.isMarginal = true
  | setAxes j _ _ => j ≠ i
  | begin _ | beginOwned _ _ | gatingDrop _ _ _ _ _ | cancelRequested _ _ _ _ | report _ => True

end Board.Use

namespace Attempt

/-- The kinds in the log, without what happened beside the request. -/
def course (a : Attempt) : List EventKind := (a.events.map StreamEvent.kind).filter (!·.isMarginal)

/-- The texts of the chunks in the log. -/
def chunkTexts (a : Attempt) : List String :=
  (a.events.filter (·.kind = .chunk)).map (·.textAt "text")

/-- An attempt is the same but for what happened beside its request. -/
structure Glossed (a a' : Attempt) : Prop where
  requestId : a'.requestId = a.requestId
  chunks : a'.transcript.chunks = a.transcript.chunks
  errored : a'.transcript.errored = a.transcript.errored
  axes : a'.transcript.axes = a.transcript.axes
  course : a'.course = a.course
  chunkTexts : a'.chunkTexts = a.chunkTexts

/-- The log of an attempt has chunks, with all of its text, and an ending. -/
structure Logged (a : Attempt) (ending : List EventKind) : Prop where
  course : ∃ n, a.course = List.replicate n .chunk ++ ending
  texts : a.chunkTexts = a.transcript.chunks
  errored : a.transcript.errored = true → .error ∈ ending

variable {a a' a'' : Attempt} {n : Note} {now : Timestamp} {ending : List EventKind} {i : Nat}

theorem noted_of_some {t : Transcript} (h : a.transcript.note? n = some t) :
    a.noted n now = { a with transcript := t, events := a.events ++ [a.entry n now] } := by
  rw [noted, record?, h]
  rfl

theorem noted_of_none (h : a.transcript.note? n = none) : a.noted n now = a := by
  rw [noted, record?, h]
  rfl

theorem course_append (a : Attempt) (t : Transcript) (e : StreamEvent) :
    course { a with transcript := t, events := a.events ++ [e] } =
      a.course ++ if e.kind.isMarginal then [] else [e.kind] := by
  cases h : e.kind.isMarginal <;> simp [course, h]

theorem chunkTexts_append (a : Attempt) (t : Transcript) (e : StreamEvent) :
    chunkTexts { a with transcript := t, events := a.events ++ [e] } =
      a.chunkTexts ++ if e.kind = .chunk then [e.textAt "text"] else [] := by
  by_cases h : e.kind = .chunk <;> simp [chunkTexts, h]

namespace Glossed

theorem refl (a : Attempt) : Glossed a a := ⟨rfl, rfl, rfl, rfl, rfl, rfl⟩

theorem trans (h : Glossed a a') (h' : Glossed a' a'') : Glossed a a'' where
  requestId := h'.requestId.trans h.requestId
  chunks := h'.chunks.trans h.chunks
  errored := h'.errored.trans h.errored
  axes := h'.axes.trans h.axes
  course := h'.course.trans h.course
  chunkTexts := h'.chunkTexts.trans h.chunkTexts

theorem of_change (h : Change (Board.Use.Glosses i) i a a') : a.Glossed a' := by
  cases h with
  | retires => exact ⟨rfl, rfl, rfl, rfl, rfl, rfl⟩
  | @logs _ n now e allowed logged =>
    obtain ⟨t, ht, rfl, rfl⟩ := record?_eq_some logged
    have hn : n.kind.isMarginal = true := allowed.elim id fun h => h rfl
    have hc : n.kind ≠ .chunk := fun hc => by
      rw [hc] at hn
      cases hn
    have hcourse := course_append a t (a.entry n now)
    have htexts := chunkTexts_append a t (a.entry n now)
    have hkind : (a.entry n now).kind = n.kind := rfl
    rw [hkind, if_pos hn, List.append_nil] at hcourse
    rw [hkind, if_neg hc, List.append_nil] at htexts
    cases n with
    | gatingDrop | cancelRequested =>
      cases ht
      exact ⟨rfl, rfl, rfl, rfl, hcourse, htexts⟩
    | _ => cases hn
  | sets allowed => exact absurd rfl allowed

end Glossed

namespace Logged

theorem glossed (h : a.Logged ending) (hg : a.Glossed a') : a'.Logged ending where
  course := hg.course ▸ h.course
  texts := by rw [hg.chunkTexts, hg.chunks, h.texts]
  errored := by
    rw [hg.errored]
    exact h.errored

theorem fresh (events : a.events = []) (chunks : a.transcript.chunks = [])
    (errored : a.transcript.errored = false) : a.Logged [] where
  course := ⟨0, by rw [Attempt.course, events]; rfl⟩
  texts := by rw [chunkTexts, events, chunks]; rfl
  errored h := by
    rw [errored] at h
    cases h

/-- A chunk is logged with its text, or not at all. -/
theorem chunk (h : a.Logged []) (text : String) : (a.noted (.chunk text) now).Logged [] := by
  cases hk : a.transcript.keeps text with
  | false => rwa [noted_of_none (by simp [Transcript.note?, Transcript.chunk?, hk])]
  | true =>
    have hn : a.transcript.note? (.chunk text) =
        some { a.transcript with chunks := a.transcript.chunks ++ [text] } := if_pos hk
    obtain ⟨k, hk⟩ := h.course
    rw [noted_of_some hn]
    refine ⟨⟨k + 1, ?_⟩, ?_, h.errored⟩
    · rw [course_append, hk, List.append_nil, List.append_nil, List.replicate_succ']
      rfl
    · have hc : (a.entry (.chunk text) now).kind = .chunk := rfl
      rw [chunkTexts_append, h.texts, if_pos hc, textAt_chunk]

/-- The next thing at the end. There is no end after an error. -/
theorem note (h : a.Logged ending) (marginal : n.kind.isMarginal = false) (chunk : n.kind ≠ .chunk)
    (complete : n = .complete → .error ∉ ending) : (a.noted n now).Logged (ending ++ [n.kind]) := by
  obtain ⟨k, hk⟩ := h.course
  -- what is logged besides the transcript
  have hlog : ∀ t : Transcript, a.transcript.note? n = some t → t.chunks = a.transcript.chunks →
      (t.errored = true → a.transcript.errored = true ∨ n.kind = .error) →
      (a.noted n now).Logged (ending ++ [n.kind]) := by
    intro t ht hchunks herrored
    rw [noted_of_some ht]
    refine ⟨⟨k, ?_⟩, ?_, fun he => ?_⟩
    · have hm : (a.entry n now).kind.isMarginal = false := marginal
      rw [course_append, hm, hk, List.append_assoc]
      rfl
    · have hc : (a.entry n now).kind ≠ .chunk := chunk
      rw [chunkTexts_append, if_neg hc, List.append_nil, h.texts]
      exact hchunks.symm
    · rcases herrored he with he | he
      · exact List.mem_append_left _ (h.errored he)
      · exact List.mem_append_right _ (by simp [he])
  cases n with
  | chunk => exact absurd rfl chunk
  | gatingDrop | cancelRequested => cases marginal
  | complete =>
    have he : a.transcript.errored = false := by
      by_contra he
      exact complete rfl (h.errored (by simpa using he))
    exact hlog { a.transcript with completed := true }
      (by simp [Transcript.note?, Transcript.complete?, he]) rfl .inl
  | error message => exact hlog (a.transcript.error message) rfl rfl fun _ => .inr rfl
  | _ => exact hlog a.transcript rfl rfl .inl

end Logged

end Attempt

end PromptDesk
