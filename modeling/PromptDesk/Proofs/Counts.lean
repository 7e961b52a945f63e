import Mathlib
import PromptDesk.Proofs.Keyed

/-! Counts of names. Naming the names of a list one after another counts how often each of them is in
it, and the sum of the counts is the length of the list; merging in a map after one more name was
counted in it is the same as counting the name after the merge. -/
namespace PromptDesk

namespace Counts

variable (m n : Counts) (k : String)

@[simp] theorem find?_bump (j : String) :
    (m.bump k).find? j = if j = k then some ((m.find? k).getD 0 + 1) else m.find? j :=
  Keyed.find?_insert ..

/-- What merging entries in makes of a look-up: a name without an entry keeps its count. -/
theorem find?_foldl {es : List (String × UInt64)} (h : es.Pairwise fun a b => a.1 < b.1)
    (m : Counts) :
    (es.foldl (fun acc e => acc.insert e.1 ((acc.find? e.1).getD 0 + e.2)) m).find? k =
      match es.lookup k with
      | some c => some ((m.find? k).getD 0 + c)
      | none => m.find? k := by
  induction es generalizing m with
  | nil => rfl
  | cons e es ih =>
    have hfirst := Keyed.lookup_tail h
    rw [List.foldl_cons, ih (List.pairwise_cons.1 h).2, Keyed.lookup_entry]
    by_cases hk : k = e.1
    · subst hk
      simp [hfirst]
    · simp [hk]

theorem find?_merge :
    (merge m n).find? k =
      match n.find? k with
      | some c => some ((m.find? k).getD 0 + c)
      | none => m.find? k :=
  find?_foldl k n.ordered m

@[simp] theorem merge_empty : merge m ∅ = m := rfl

/-- One more in the counts merged in is one more of the sum. -/
theorem merge_bump : merge m (n.bump k) = (merge m n).bump k := by
  refine Keyed.ext_find? fun j => ?_
  rw [find?_merge, find?_bump, find?_bump, find?_merge, find?_merge]
  by_cases hj : j = k
  · subst hj
    rw [if_pos rfl, if_pos rfl]
    cases n.find? j <;> simp [UInt64.add_assoc]
  · rw [if_neg hj, if_neg hj]

/-- The sum of the counts of entries. -/
def sum (es : List (String × UInt64)) : UInt64 := (es.map (·.2)).foldl (· + ·) 0

theorem sum_cons (e : String × UInt64) (es : List (String × UInt64)) :
    sum (e :: es) = e.2 + sum es := by
  have h : (es.map (·.2)).foldl (· + ·) (e.2 + 0) = e.2 + (es.map (·.2)).foldl (· + ·) 0 :=
    List.foldl_assoc
  simpa [sum] using h

/-- The sum of the counts grows with each of them. -/
theorem sum_insertEntry {es : List (String × UInt64)} (h : es.Pairwise fun a b => a.1 < b.1) :
    sum (Keyed.insertEntry k ((es.lookup k).getD 0 + 1) es) = sum es + 1 := by
  induction es with
  | nil => simp [Keyed.insertEntry, sum]
  | cons e es ih =>
    obtain ⟨hfirst, hrest⟩ := List.pairwise_cons.1 h
    rw [Keyed.insertEntry, Keyed.lookup_entry]
    split
    · rename_i hlt
      have hne : k ≠ e.1 := fun he => String.lt_irrefl k (he ▸ hlt)
      have hnone : es.lookup k = none :=
        Keyed.lookup_eq_none_of_lt fun x hx => String.lt_trans hlt (hfirst x hx)
      rw [if_neg hne, hnone]
      simp only [sum_cons, Option.getD_none, UInt64.zero_add]
      exact UInt64.add_comm ..
    · split
      · simp only [sum_cons, Option.getD_some]
        rw [UInt64.add_assoc, UInt64.add_comm 1, UInt64.add_assoc]
      · rw [sum_cons, ih hrest, sum_cons, UInt64.add_assoc]

theorem total_eq_sum : m.total = m.values.sum := by
  have h : ∀ (ws : List UInt64) (w : UInt64), ws.foldl (· + ·) w = w + ws.sum := by
    intro ws
    induction ws with
    | nil => intro w; simp
    | cons v ws ih => intro w; rw [List.foldl_cons, ih, List.sum_cons, UInt64.add_assoc]
  rw [total, h, UInt64.zero_add]

theorem total_bump : (m.bump k).total = m.total + 1 := sum_insertEntry k m.ordered

/-- The counts of the names of a list. -/
def tally : List String → Counts
  | [] => ∅
  | k :: ks => (tally ks).bump k

/-- A name is in the counts as often as it is in the list; one that is not in the list has no count. -/
theorem find?_tally (ks : List String) :
    (tally ks).find? k = if ks.count k = 0 then none else some (UInt64.ofNat (ks.count k)) := by
  induction ks with
  | nil => rfl
  | cons j ks ih =>
    rw [tally, find?_bump, List.count_cons]
    by_cases hk : k = j
    · subst hk
      rw [ih]
      by_cases h0 : ks.count k = 0
      · simp [h0]
      · simp [h0, UInt64.ofNat_add]
    · have hjk : (j == k) = false := beq_eq_false_iff_ne.2 (Ne.symm hk)
      rw [if_neg hk, ih, hjk]
      rfl

theorem eq_nil_of_isEmpty_tally {ks : List String} (h : (tally ks).isEmpty = true) : ks = [] := by
  cases ks with
  | nil => rfl
  | cons k ks =>
    have hnone : (tally (k :: ks)).find? k = none := by
      rw [Keyed.find?, List.isEmpty_iff.1 h]
      rfl
    rw [tally, find?_bump, if_pos rfl] at hnone
    cases hnone

theorem count_tally (ks : List String) (k : String) :
    (tally ks).count k = UInt64.ofNat (ks.count k) := by
  rw [count, find?_tally]
  split
  · rename_i h0
    rw [h0]
    rfl
  · rfl

/-- As long as it fits a word, the count is the number. -/
theorem toNat_count_tally {ks : List String} {k : String} (h : ks.count k < 2 ^ 64) :
    ((tally ks).count k).toNat = ks.count k := by
  rw [count_tally]
  exact UInt64.toNat_ofNat_of_lt' h

theorem contains_tally {ks : List String} : (tally ks).contains k = true ↔ k ∈ ks := by
  rw [Keyed.contains, find?_tally, ← List.count_pos_iff]
  split
  · simp [*]
  · simp only [Option.isSome_some, true_iff]
    omega

/-- No name stands there without a count, as long as the counts fit a word. -/
theorem contains_tally_iff {ks : List String} (h : ks.length < 2 ^ 64) :
    (tally ks).contains k = true ↔ 0 < (tally ks).count k := by
  have hc := toNat_count_tally (k := k) (ks.count_le_length.trans_lt h)
  rw [contains_tally, UInt64.lt_iff_toNat_lt, hc, ← List.count_pos_iff]
  rfl

/-- A list is as long as the counts of its names say, each name asked for once. -/
theorem sum_count {ks js : List String} (hj : js.Nodup) (h : ∀ k ∈ ks, k ∈ js) :
    (js.map fun k => ks.count k).sum = ks.length := by
  rw [← List.sum_toFinset _ hj]
  simpa using Multiset.sum_count_eq_card (s := js.toFinset) (m := ks) (by simpa using h)

/-- The counts of a list are together its length, as long as that fits a word. -/
theorem sum_values_tally {ks : List String} (h : ks.length < 2 ^ 64) :
    ((tally ks).values.map UInt64.toNat).sum = ks.length := by
  have hc : ∀ k, (((tally ks).find? k).getD 0).toNat = ks.count k := fun k =>
    toNat_count_tally (ks.count_le_length.trans_lt h)
  rw [Keyed.map_values _ _ 0]
  simp only [hc]
  exact sum_count (Keyed.nodup_keys _) fun k hk => Keyed.mem_keys.2 ((contains_tally k).2 hk)

/-- Counts of several lists are together the count of all of them. -/
theorem sum_count_tally (kss : List (List String)) (k : String) :
    ((kss.map tally).map (·.count k)).sum = UInt64.ofNat (kss.flatten.count k) := by
  induction kss with
  | nil => rfl
  | cons ks kss ih =>
    simp only [List.map_cons, List.sum_cons, List.flatten_cons, List.count_append, ih, count_tally]
    exact (UInt64.ofNat_add ..).symm

theorem sum_toNat_count_tally {kss : List (List String)} {k : String}
    (h : kss.flatten.count k < 2 ^ 64) :
    ((kss.map tally).map fun m => (m.count k).toNat).sum = kss.flatten.count k := by
  induction kss with
  | nil => rfl
  | cons ks kss ih =>
    rw [List.flatten_cons, List.count_append] at h
    simp only [List.map_cons, List.sum_cons, List.flatten_cons, List.count_append]
    rw [ih (by omega), toNat_count_tally (by omega)]

theorem total_tally (ks : List String) : (tally ks).total = UInt64.ofNat ks.length := by
  induction ks with
  | nil => rfl
  | cons k ks ih => rw [tally, total_bump, ih, List.length_cons, UInt64.ofNat_add]; rfl

end Counts

end PromptDesk
