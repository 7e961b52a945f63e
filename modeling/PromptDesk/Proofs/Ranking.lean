import PromptDesk.Board.Snapshot
import PromptDesk.Telemetry
import PromptDesk.Proofs.Keyed
import PromptDesk.Proofs.Text.Bytes

/-! Counts by rank. The names of a map differ, so no two of its entries have the same rank, and there is
one order of them only. Snapshots and exports, which order counts of their own kinds, both give that
one. -/
namespace PromptDesk

namespace Counts

/-- The first of two entries ranks before the other: it has the larger count, or the same count and a
name whose bytes come first. -/
def Before (a b : String × UInt64) : Prop := b.2 < a.2 ∨ a.2 = b.2 ∧ Text.bytes a.1 < Text.bytes b.1

/-- Each entry ranks before the next one. -/
def Ranked (es : List (String × UInt64)) : Prop := es.IsChain Before

variable {a b c : String × UInt64}

theorem Before.trans (hab : Before a b) (hbc : Before b c) : Before a c := by
  rcases hab with hab | ⟨hab, hn⟩
  · rcases hbc with hbc | ⟨hbc, -⟩
    · exact .inl (UInt64.lt_trans hbc hab)
    · exact .inl (hbc ▸ hab)
  · rcases hbc with hbc | ⟨hbc, hn'⟩
    · exact .inl (hab ▸ hbc)
    · exact .inr ⟨hab.trans hbc, List.lt_trans hn hn'⟩

instance : Trans Before Before Before := ⟨Before.trans⟩

theorem Before.asymm (hab : Before a b) : ¬ Before b a := fun hba => by
  rcases hab.trans hba with h | ⟨-, h⟩
  · exact UInt64.lt_irrefl _ h
  · exact List.lt_irrefl _ h

theorem Before.trichotomy (a b : String × UInt64) : Before a b ∨ a = b ∨ Before b a := by
  rcases Nat.lt_trichotomy a.2.toNat b.2.toNat with h | h | h
  · exact .inr (.inr (.inl h))
  · have h := UInt64.toNat_inj.1 h
    rcases lt_trichotomy a.1 b.1 with hn | hn | hn
    · exact .inl (.inr ⟨h, Text.bytes_lt hn⟩)
    · exact .inr (.inl (Prod.ext hn h))
    · exact .inr (.inr (.inr ⟨h.symm, Text.bytes_lt hn⟩))
  · exact .inl (.inl h)

theorem ranksBefore_iff : ranksBefore a b = true ↔ a = b ∨ Before a b := by
  rw [ranksBefore, Bool.or_eq_true, Bool.and_eq_true, decide_eq_true_iff, decide_eq_true_iff,
    beq_iff_eq, le_iff_eq_or_lt, Text.lt_iff_bytes_lt, Before, Prod.ext_iff]
  tauto

theorem ranksBefore_trans (a b c : String × UInt64) (hab : ranksBefore a b = true)
    (hbc : ranksBefore b c = true) : ranksBefore a c = true := by
  rw [ranksBefore_iff] at *
  rcases hab with rfl | hab
  · exact hbc
  · exact .inr (hbc.elim (fun he => he ▸ hab) hab.trans)

theorem ranksBefore_total (a b : String × UInt64) : (ranksBefore a b || ranksBefore b a) = true := by
  rw [Bool.or_eq_true, ranksBefore_iff, ranksBefore_iff]
  rcases Before.trichotomy a b with h | h | h
  · exact .inl (.inr h)
  · exact .inl (.inl h)
  · exact .inr (.inr h)

variable {es fs : List (String × UInt64)} (m : Counts)

theorem ranked_iff_pairwise : Ranked es ↔ es.Pairwise Before := List.isChain_iff_pairwise

/-- Entries have one order by rank only. -/
theorem Ranked.unique (he : Ranked es) (hf : Ranked fs) (perm : es.Perm fs) : es = fs :=
  perm.eq_of_pairwise (fun _ _ _ _ hab hba => absurd hba hab.asymm) (ranked_iff_pairwise.1 he)
    (ranked_iff_pairwise.1 hf)

theorem ranking_perm : m.ranking.Perm m.entries := List.mergeSort_perm ..

/-- No entry is there twice, so of two of them one ranks before the other. -/
theorem ranked_ranking : Ranked m.ranking := by
  have sorted := List.pairwise_mergeSort ranksBefore_trans ranksBefore_total m.entries
  have distinct : m.ranking.Nodup := m.ranking_perm.nodup_iff.2 m.nodup_keys.of_map
  rw [ranked_iff_pairwise]
  exact sorted.imp₂ (fun _ _ hab hne => (ranksBefore_iff.1 hab).resolve_left hne) distinct

theorem perm_and_ranked_iff : es.Perm m.entries ∧ Ranked es ↔ es = m.ranking := by
  constructor
  · exact fun ⟨perm, ranked⟩ =>
      ranked.unique m.ranked_ranking (perm.trans m.ranking_perm.symm)
  · rintro rfl
    exact ⟨m.ranking_perm, m.ranked_ranking⟩

end Counts

namespace DropCount

/-- The entry of a map of counts that it is. -/
def entry (c : DropCount) : String × UInt64 := (c.reason, c.count)

/-- Counts of drops are ranked as the entries are. -/
theorem map_entry_ranking (m : Counts) : (ranking m).map entry = m.ranking := by
  have sorted : (ranking m).map entry =
      ((m.entries.map fun e => DropCount.mk e.1 e.2).map entry).mergeSort Counts.ranksBefore :=
    List.map_mergeSort fun _ _ _ _ => rfl
  rw [sorted, List.map_map]
  exact congrArg (List.mergeSort · Counts.ranksBefore) (List.map_id _)

end DropCount

/-- One order by rank. The entries of a map of counts have one order in which each has a larger count
than the next, or the same count and a name whose bytes come first; a snapshot of these counts lists
them in it, and so does an export of them, if there is anything to export. -/
theorem rankings_told (m : Counts) :
    ∃ es, (∀ fs, fs.Perm m.entries ∧ Counts.Ranked fs ↔ fs = es) ∧
      (∀ t base, (Snapshot.of t base).dropCounts = m →
        (Snapshot.of t base).dropRanking.map DropCount.entry = es) ∧
      (∃ t base, (Snapshot.of t base).dropCounts = m) ∧
      ∀ now, (Telemetry.of? m now).map (·.ranking) = if m.isEmpty then none else some es := by
  refine ⟨m.ranking, fun fs => m.perm_and_ranked_iff, fun t base h => ?_, ?_, fun now => ?_⟩
  · exact h ▸ DropCount.map_entry_ranking _
  · exact ⟨default, ⟨m, ∅⟩, rfl⟩
  · rw [Telemetry.of?]
    split <;> rfl

end PromptDesk
