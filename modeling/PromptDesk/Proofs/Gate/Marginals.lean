import PromptDesk.Proofs.Counts
import PromptDesk.Proofs.Gate.Uses

/-! The statistics of a gate. They count the refusals since the counts were last taken: by reason, by
source and by both. What was counted by both adds up to what was counted by either, nothing is listed
that was not counted, and the latest refusal is the one that was counted last. -/
namespace PromptDesk

/-- How often each source was refused for a reason. -/
def DropStatistics.bySource (s : DropStatistics) (reason : String) : Counts :=
  (s.reasonSources.find? reason).getD ∅

/-- Statistics that tell of some refusals, the latest first, and of nothing else. -/
structure DropStatistics.Tells (s : DropStatistics) (rs : List DropRecord) : Prop where
  reasons : ∀ reason, (s.counts.count reason).toNat = rs.countP (·.reason.code == reason)
  sources : ∀ source, (s.sources.count source).toNat = rs.countP (·.source == source)
  pairs : ∀ reason source, ((s.bySource reason).count source).toNat =
    rs.countP fun r => r.reason.code == reason && r.source == source
  total : s.total.toNat = rs.length
  /-- A reason was given as often as it was given to each of the sources. -/
  overSources : ∀ reason,
    ((s.bySource reason).values.map UInt64.toNat).sum = (s.counts.count reason).toNat
  /-- A source was refused as often as it was for each of the reasons. -/
  overReasons : ∀ source, (s.reasonSources.values.map fun m => (m.count source).toNat).sum =
    (s.sources.count source).toNat
  ofReasons : s.total.toNat = (s.counts.values.map UInt64.toNat).sum
  ofSources : s.total.toNat = (s.sources.values.map UInt64.toNat).sum
  listedReason : ∀ reason, s.counts.contains reason = true ↔ 0 < s.counts.count reason
  listedSource : ∀ source, s.sources.contains source = true ↔ 0 < s.sources.count source
  listedPair : ∀ reason source,
    (s.bySource reason).contains source = true ↔ 0 < (s.bySource reason).count source
  listedPairs : ∀ reason, s.reasonSources.contains reason = true ↔ 0 < s.counts.count reason
  lastDrop : s.lastDrop = rs.head?.map fun r => (r.reason.code, s.counts.count r.reason.code)
  lastSource : s.lastSource = rs.head?.map (·.source)
  lastMessage : s.lastMessage = (rs.head?.map (·.message)).getD ""
  /-- There is no latest refusal exactly while there is none at all. -/
  nothing : (s.lastDrop = none ↔ s.total = 0) ∧ (s.lastSource = none ↔ s.total = 0) ∧
    (s.lastMessage = "" ↔ s.total = 0)

namespace DropTally

/-- The tally of some refusals, the latest first. -/
def told : List DropRecord → DropTally
  | [] => {}
  | r :: rs => (told rs).record r.reason.code r.source r.message

/-- The sources that were refused for a reason. -/
def sourcesOf (rs : List DropRecord) (reason : String) : List String :=
  (rs.filter (·.reason.code == reason)).map (·.source)

/-- The reasons for which a source was refused. -/
def reasonsOf (rs : List DropRecord) (source : String) : List String :=
  (rs.filter (·.source == source)).map (·.reason.code)

variable (rs : List DropRecord) (reason source : String)

theorem counts_told : (told rs).counts = .tally (rs.map (·.reason.code)) := by
  induction rs with
  | nil => rfl
  | cons r rs ih => exact congrArg (Counts.bump · r.reason.code) ih

theorem sources_told : (told rs).sources = .tally (rs.map (·.source)) := by
  induction rs with
  | nil => rfl
  | cons r rs ih => exact congrArg (Counts.bump · r.source) ih

theorem sourcesOf_cons (r : DropRecord) : sourcesOf (r :: rs) reason =
    if r.reason.code = reason then r.source :: sourcesOf rs reason else sourcesOf rs reason := by
  rw [sourcesOf, List.filter_cons]
  by_cases h : r.reason.code = reason <;> simp [h, sourcesOf]

theorem getD_tally (ks : List String) :
    (if ks = [] then none else some (Counts.tally ks)).getD ∅ = Counts.tally ks := by
  split
  · rename_i hnil
    rw [hnil]
    rfl
  · rfl

/-- Under each reason stand the counts of the sources that it was given to. -/
theorem find?_told : (told rs).reasonSources.find? reason =
    if sourcesOf rs reason = [] then none else some (.tally (sourcesOf rs reason)) := by
  induction rs with
  | nil => rfl
  | cons r rs ih =>
    rw [told, record, Keyed.find?_insert, sourcesOf_cons]
    by_cases h : reason = r.reason.code
    · subst h
      simp [ih, getD_tally, Counts.tally]
    · rw [if_neg h, ih, if_neg (Ne.symm h)]

theorem bySource_told :
    (told rs).statistics.bySource reason = .tally (sourcesOf rs reason) := by
  have h : (told rs).statistics.bySource reason =
      ((told rs).reasonSources.find? reason).getD ∅ := rfl
  rw [h, find?_told, getD_tally]

theorem length_sourcesOf :
    (sourcesOf rs reason).length = rs.countP (·.reason.code == reason) := by
  rw [sourcesOf, List.length_map, List.countP_eq_length_filter]

/-- A pair is counted as often among the sources of its reason as among the reasons of its source. -/
theorem count_sourcesOf : (sourcesOf rs reason).count source =
    rs.countP fun r => r.reason.code == reason && r.source == source := by
  rw [sourcesOf, List.count, List.countP_map, List.countP_filter]
  simp [Bool.and_comm]

theorem count_reasonsOf : (reasonsOf rs source).count reason =
    rs.countP fun r => r.reason.code == reason && r.source == source := by
  rw [reasonsOf, List.count, List.countP_map, List.countP_filter]
  simp

theorem mem_reasonsOf {rs : List DropRecord} {reason source : String}
    (h : reason ∈ reasonsOf rs source) : sourcesOf rs reason ≠ [] := by
  obtain ⟨r, hr, rfl⟩ := List.mem_map.1 h
  exact List.ne_nil_of_mem
    (List.mem_map.2 ⟨r, List.mem_filter.2 ⟨(List.mem_filter.1 hr).1, beq_self_eq_true _⟩, rfl⟩)

section

variable {rs : List DropRecord} (few : rs.length < 2 ^ 64)
include few

theorem toNat_count_map (f : DropRecord → String) (k : String) :
    ((Counts.tally (rs.map f)).count k).toNat = rs.countP (f · == k) := by
  have h : (rs.map f).count k < 2 ^ 64 :=
    List.count_le_length.trans_lt (by rwa [List.length_map])
  rw [Counts.toNat_count_tally h, List.count, List.countP_map]
  rfl

theorem length_sourcesOf_lt (reason : String) : (sourcesOf rs reason).length < 2 ^ 64 := by
  rw [length_sourcesOf]
  exact List.countP_le_length.trans_lt few

theorem toNat_count_bySource (reason source : String) :
    (((told rs).statistics.bySource reason).count source).toNat =
      rs.countP fun r => r.reason.code == reason && r.source == source := by
  rw [bySource_told, Counts.toNat_count_tally
    (List.count_le_length.trans_lt (length_sourcesOf_lt few reason)), count_sourcesOf]

theorem toNat_total_told : (told rs).statistics.total.toNat = rs.length := by
  have h : (told rs).statistics.total = (told rs).counts.total := rfl
  rw [h, counts_told, Counts.total_tally, List.length_map]
  exact UInt64.toNat_ofNat_of_lt' few

/-- The counts of one kind add up to the number of refusals. -/
theorem sum_values_map (f : DropRecord → String) :
    ((Counts.tally (rs.map f)).values.map UInt64.toNat).sum = rs.length := by
  rw [Counts.sum_values_tally (by rwa [List.length_map]), List.length_map]

/-- Each reason that a source was refused for is listed, once. -/
theorem sum_bySource (source : String) :
    ((told rs).reasonSources.values.map fun m => (m.count source).toNat).sum =
      rs.countP (·.source == source) := by
  have h : ∀ reason, ((((told rs).reasonSources.find? reason).getD ∅ : Counts).count source).toNat =
      (reasonsOf rs source).count reason := fun reason =>
    (toNat_count_bySource few reason source).trans (count_reasonsOf rs reason source).symm
  rw [Keyed.map_values _ _ ∅]
  simp only [h]
  rw [Counts.sum_count (Keyed.nodup_keys _), reasonsOf, List.length_map,
    List.countP_eq_length_filter]
  intro reason hr
  rw [Keyed.mem_keys, Keyed.contains, find?_told, if_neg (mem_reasonsOf hr)]
  rfl

theorem contains_reasonSources (reason : String) :
    (told rs).reasonSources.contains reason = true ↔ 0 < (told rs).counts.count reason := by
  have hc := toNat_count_map few (·.reason.code) reason
  rw [UInt64.lt_iff_toNat_lt, counts_told, hc, ← length_sourcesOf, Keyed.contains, find?_told]
  split <;> simp [*, List.length_pos_iff]

theorem total_eq_zero_iff : (told rs).statistics.total = 0 ↔ rs = [] := by
  rw [← List.length_eq_zero_iff, ← toNat_total_told few]
  exact UInt64.toNat_inj.symm

end

/-- All that statistics tell, they tell of the refusals that were recorded. -/
theorem tells_told {rs : List DropRecord} (few : rs.length < 2 ^ 64)
    (spoken : ∀ r ∈ rs, r.message ≠ "") : (told rs).statistics.Tells rs := by
  have hreasons : (told rs).statistics.counts = .tally (rs.map (·.reason.code)) := counts_told rs
  have hsources : (told rs).statistics.sources = .tally (rs.map (·.source)) := sources_told rs
  have hmap : ∀ f : DropRecord → String, (rs.map f).length < 2 ^ 64 := fun f => by
    rwa [List.length_map]
  have reasons : ∀ reason, ((told rs).statistics.counts.count reason).toNat =
      rs.countP (·.reason.code == reason) := fun reason => by
    rw [hreasons, toNat_count_map few]
  have sources : ∀ source, ((told rs).statistics.sources.count source).toNat =
      rs.countP (·.source == source) := fun source => by
    rw [hsources, toNat_count_map few]
  constructor
  case reasons => exact reasons
  case sources => exact sources
  case pairs => exact toNat_count_bySource few
  case total => exact toNat_total_told few
  case overSources =>
    intro reason
    rw [bySource_told, Counts.sum_values_tally (length_sourcesOf_lt few reason), length_sourcesOf,
      reasons]
  case overReasons => exact fun source => (sum_bySource few source).trans (sources source).symm
  case ofReasons => rw [toNat_total_told few, hreasons, sum_values_map few]
  case ofSources => rw [toNat_total_told few, hsources, sum_values_map few]
  case listedReason => exact fun reason => hreasons ▸ Counts.contains_tally_iff reason (hmap _)
  case listedSource => exact fun source => hsources ▸ Counts.contains_tally_iff source (hmap _)
  case listedPair =>
    intro reason source
    rw [bySource_told]
    exact Counts.contains_tally_iff source (length_sourcesOf_lt few reason)
  case listedPairs => exact contains_reasonSources few
  case lastDrop => cases rs <;> rfl
  case lastSource => cases rs <;> rfl
  case lastMessage => cases rs <;> rfl
  case nothing =>
    rw [total_eq_zero_iff few]
    cases rs with
    | nil => exact ⟨iff_of_true rfl rfl, iff_of_true rfl rfl, iff_of_true rfl rfl⟩
    | cons r rs =>
      refine ⟨iff_of_false nofun nofun, iff_of_false nofun nofun, iff_of_false ?_ nofun⟩
      exact spoken r List.mem_cons_self

end DropTally

namespace Gate

/-- The refusals since the counts were last taken, the latest first. -/
def refusals : List Use → List DropRecord
  | [] => []
  | .takeCounts :: _ => []
  | u :: us => (u.refusal? (after us)).toList ++ refusals us

/-- A gate has counted the refusals that it was to count, each with the notice of its reason. -/
theorem tally_after (us : List Use) : (after us).tally = .told (refusals us) ∧
    ∀ r ∈ refusals us, r.message = r.reason.message := by
  induction us with
  | nil => exact ⟨rfl, by simp [refusals]⟩
  | cons u us ih =>
    obtain ⟨ht, hm⟩ := ih
    have ho := (after us).outcome u
    have hr : u ≠ .takeCounts →
        refusals (u :: us) = (u.refusal? (after us)).toList ++ refusals us := fun hu => by
      cases u <;> first | rfl | exact absurd rfl hu
    have hne : u.isAttempt = true → u ≠ .takeCounts := fun attempt hu => by
      rw [hu] at attempt
      cases attempt
    rw [Use.refusal?] at hr
    rw [after]
    generalize u.answer? (after us) = a at hr ho
    generalize (after us).use u = g at ho ⊢
    cases ho with
    | refuses attempt reads reason =>
      rw [hr (hne attempt)]
      simp only [Option.toList_some, List.singleton_append]
      refine ⟨?_, by simpa using hm⟩
      rw [reject, DropTally.told, ht]
    | admits attempt | admitsBlindly attempt =>
      rw [hr (hne attempt)]
      exact ⟨ht, hm⟩
    | takesCounts => exact ⟨rfl, by simp [refusals]⟩
    | takesLastDrop =>
      rw [hr fun hu => by cases hu]
      exact ⟨ht, hm⟩

/-- Whatever is done with a gate, its statistics tell of the refusals since the counts were last taken.
Counts are words, so there are to be fewer refusals than words. -/
theorem statistics_told (us : List Use) (few : (refusals us).length < 2 ^ 64) :
    (after us).statistics.Tells (refusals us) := by
  obtain ⟨ht, hm⟩ := tally_after us
  rw [statistics, ht]
  exact DropTally.tells_told few fun r hr => by
    rw [hm r hr]
    exact r.reason.message_ne_empty

/-- The counts were taken once. Since then two claims of a slot in flight were refused, one of them
from nowhere in particular, and another attempt for its quota; one attempt was let through. -/
theorem statistics_told_of_three : ∃ us : List Use, us.length = 6 ∧ (refusals us).length = 3 ∧
    (after us).statistics.Tells (refusals us) ∧
    (after us).statistics.lastDrop = some ("in_flight", 2) ∧
    (after us).statistics.reasonSources.find? "quota" = some (.tally ["menu"]) ∧
    (after us).statistics.sources.find? "unspecified" = some 1 := by
  let taken : Slot := (tryClaim {} {} "voice").2.1
  let us : List Use := [.tryClaim taken " menu ", .refuse (.other "quota") "menu", .tryClaim {} "voice",
    .tryClaim taken " ", .takeCounts, .tryClaim taken "menu"]
  have few : (refusals us).length < 2 ^ 64 := by decide +kernel
  exact ⟨us, rfl, by decide +kernel, statistics_told us few, by decide +kernel, by decide +kernel,
    by decide +kernel⟩

end Gate

end PromptDesk
