import PromptDesk.Board.Attempt
import PromptDesk.Proofs.Counts

/-! What a transcript holds after any notes, in whichever order they came: the text is that of the chunks
before the first error, an error outweighs every end, and refusals are counted throughout. So the text
only grows, and an error stays. -/
namespace PromptDesk

namespace Note

def isError : Note → Bool
  | error _ => true
  | _ => false

/-- The text of a chunk that is not blank. -/
def text? : Note → Option String
  | chunk text => if Text.isBlankText text then none else some text
  | _ => none

def error? : Note → Option String
  | error message => some message
  | _ => none

/-- The reason that was given for a refusal. -/
def reason? : Note → Option String
  | gatingDrop reason _ _ _ => some reason
  | _ => none

/-- Where a refused attempt came from. -/
def source? : Note → Option String
  | gatingDrop _ _ source _ => some source
  | _ => none

/-- The chunks before the first error that are not blank. -/
def kept (ns : List Note) : List String := (ns.takeWhile (!·.isError)).filterMap text?

theorem any_isError {ns : List Note} : ns.any isError = true ↔ ∃ message, .error message ∈ ns := by
  rw [List.any_eq_true]
  constructor
  · rintro ⟨n, hn, he⟩
    cases n with
    | error message => exact ⟨message, hn⟩
    | _ => cases he
  · rintro ⟨message, hm⟩
    exact ⟨_, hm, rfl⟩

/-- A further note adds its chunk, unless there was an error. -/
theorem kept_concat (ns : List Note) (n : Note) :
    kept (ns ++ [n]) = kept ns ++ if ns.any isError then [] else n.text?.toList := by
  induction ns with
  | nil =>
    have hn : n.isError = true → n.text? = none := by cases n <;> simp [isError, text?]
    cases he : n.isError <;> cases ht : n.text? <;> simp_all [kept]
  | cons m ns ih =>
    rw [kept, kept] at ih
    cases hm : m.isError with
    | true => simp [kept, hm]
    | false => cases ht : m.text? <;> simp [kept, hm, ht, ih]

theorem kept_prefix (ns more : List Note) : kept ns <+: kept (ns ++ more) := by
  refine List.IsPrefix.filterMap _ ?_
  induction ns with
  | nil => exact List.nil_prefix
  | cons n ns ih => cases h : n.isError <;> simp [h, ih]

end Note

namespace Transcript

/-- A transcript after a note, which may change nothing. -/
def heed (t : Transcript) (n : Note) : Transcript := (t.note? n).getD t

/-- The transcript of a request after some notes, the first one first. -/
def after (requestId : String) (ns : List Note) : Transcript :=
  ns.foldl heed { requestId := requestId }

/-- What a note does to each part of a transcript. -/
theorem heed_eq (t : Transcript) (n : Note) : t.heed n = { t with
    chunks := t.chunks ++ if t.errored then [] else n.text?.toList
    completed := (t.completed || (decide (n = .complete) && !t.errored)) && !n.isError
    errored := t.errored || n.isError
    errorMessage := n.error?.getD t.errorMessage
    dropCounts := (n.reason?.map t.dropCounts.bump).getD t.dropCounts
    dropSources := (n.source?.map t.dropSources.bump).getD t.dropSources
    lastDrop := n.reason?.or t.lastDrop } := by
  obtain ⟨requestId, chunks, completed, errored, _⟩ := t
  cases n with
  | chunk text =>
    cases errored <;> cases hb : Text.isBlankText text <;>
      simp [heed, note?, chunk?, keeps, hb, Note.text?, Note.isError, Note.error?, Note.reason?,
        Note.source?]
  | complete =>
    cases errored <;>
      simp [heed, note?, complete?, Note.text?, Note.isError, Note.error?, Note.reason?,
        Note.source?]
  | _ =>
    simp [heed, note?, error, gatingDrop, Note.text?, Note.isError, Note.error?, Note.reason?,
      Note.source?]

/-- The transcript that holds what some notes tell. -/
def telling (requestId : String) (ns : List Note) : Transcript where
  requestId := requestId
  chunks := Note.kept ns
  completed := decide (.complete ∈ ns) && !ns.any Note.isError
  errored := ns.any Note.isError
  errorMessage := (ns.filterMap Note.error?).getLast?.getD ""
  dropCounts := .tally (ns.filterMap Note.reason?).reverse
  dropSources := .tally (ns.filterMap Note.source?).reverse
  lastDrop := (ns.filterMap Note.reason?).getLast?

theorem telling_concat (requestId : String) (ns : List Note) (n : Note) :
    telling requestId (ns ++ [n]) = (telling requestId ns).heed n := by
  have completed : (decide (.complete ∈ ns ++ [n]) && !(ns ++ [n]).any Note.isError) =
      ((decide (.complete ∈ ns) && !ns.any Note.isError ||
        decide (n = .complete) && !ns.any Note.isError) && !n.isError) := by
    rw [List.any_append]
    cases ns.any Note.isError <;> simp [eq_comm]
  have bumped (f : Note → Option String) : Counts.tally ((ns ++ [n]).filterMap f).reverse =
      ((f n).map (Counts.tally (ns.filterMap f).reverse).bump).getD
        (.tally (ns.filterMap f).reverse) := by
    cases h : f n <;> simp [h, Counts.tally]
  have last (f : Note → Option String) :
      ((ns ++ [n]).filterMap f).getLast? = (f n).or (ns.filterMap f).getLast? := by
    cases h : f n <;> simp [h]
  rw [heed_eq, telling, telling, Note.kept_concat, completed, bumped, bumped, last, last]
  cases n.error? <;> simp

/-- Whichever notes came, in whichever order, their transcript holds what they tell. -/
theorem after_eq_telling (requestId : String) (ns : List Note) :
    after requestId ns = telling requestId ns := by
  induction ns using List.reverseRecOn with
  | nil => rfl
  | append_singleton ns n ih => rw [after, List.foldl_concat, ← after, ih, telling_concat]

/-- What a transcript holds after any notes, in whichever order they came, and what becomes of it with
more of them: its text is only added to, an error stays, and with an error it never counts as ended. -/
theorem contents_after (requestId : String) (ns : List Note) :
    let t := after requestId ns
    t.text = String.join (Note.kept ns) ∧
      (t.errored = true ↔ ∃ message, .error message ∈ ns) ∧
      (t.completed = true ↔ .complete ∈ ns ∧ ∀ message, .error message ∉ ns) ∧
      t.errorMessage = (ns.filterMap Note.error?).getLast?.getD "" ∧
      (∀ reason, let n := (ns.filterMap Note.reason?).count reason
        t.dropCounts.find? reason = (if n = 0 then none else some (UInt64.ofNat n)) ∧
          (n < 2 ^ 64 → (t.dropCounts.count reason).toNat = n)) ∧
      (∀ source, let n := (ns.filterMap Note.source?).count source
        t.dropSources.find? source = (if n = 0 then none else some (UInt64.ofNat n)) ∧
          (n < 2 ^ 64 → (t.dropSources.count source).toNat = n)) ∧
      t.lastDrop = (ns.filterMap Note.reason?).getLast? ∧
      ∀ more, let t' := after requestId (ns ++ more)
        (∃ rest, t'.text = t.text ++ rest) ∧ (t.errored = true → t'.errored = true) ∧
          ¬ (t'.errored = true ∧ t'.completed = true) := by
  intro t
  have error_iff : ∀ ms, (after requestId ms).errored = true ↔ ∃ message, .error message ∈ ms :=
    fun ms => by rw [after_eq_telling, telling, Note.any_isError]
  have completed_iff : ∀ ms, (after requestId ms).completed = true ↔
      .complete ∈ ms ∧ ∀ message, .error message ∉ ms := fun ms => by
    rw [after_eq_telling, telling, Bool.and_eq_true, decide_eq_true_iff, Bool.not_eq_true',
      ← Bool.not_eq_true, Note.any_isError, not_exists]
  have hchunks : ∀ ms, (after requestId ms).text = String.join (Note.kept ms) := fun ms => by
    rw [after_eq_telling, telling, text]
  have ht : t = telling requestId ns := after_eq_telling ..
  refine ⟨hchunks ns, error_iff ns, completed_iff ns, ?_, fun reason => ?_, fun source => ?_, ?_,
    fun more => ⟨?_, ?_, ?_⟩⟩
  · rw [ht, telling]
  · rw [ht, telling, ← List.count_reverse]
    exact ⟨Counts.find?_tally _ _, Counts.toNat_count_tally⟩
  · rw [ht, telling, ← List.count_reverse]
    exact ⟨Counts.find?_tally _ _, Counts.toNat_count_tally⟩
  · rw [ht, telling]
  · obtain ⟨rest, hrest⟩ := Note.kept_prefix ns more
    exact ⟨String.join rest, by rw [hchunks, hchunks, ← hrest, String.join_append]⟩
  · rw [error_iff, error_iff]
    exact fun ⟨message, hm⟩ => ⟨message, List.mem_append_left _ hm⟩
  · rw [error_iff, completed_iff]
    exact fun ⟨⟨message, hm⟩, _, hnone⟩ => hnone message hm

end Transcript

end PromptDesk
