/-! A map with text keys, held as its entries in increasing order of their keys. Two maps with the
same look-ups are equal, so equality of maps is equality of entries. -/
namespace PromptDesk

/-- Entries in strictly increasing order of their keys, compared character by character. -/
structure Keyed (α : Type) where
  entries : List (String × α)
  ordered : entries.Pairwise fun a b => a.1 < b.1

namespace Keyed

variable {α : Type}

@[ext] theorem ext {m n : Keyed α} (h : m.entries = n.entries) : m = n := by
  cases m; cases n; cases h; rfl

instance [DecidableEq α] : DecidableEq (Keyed α) := fun m n =>
  if h : m.entries = n.entries then isTrue (ext h) else isFalse fun e => h (congrArg entries e)

def empty : Keyed α := ⟨[], .nil⟩

instance : EmptyCollection (Keyed α) := ⟨empty⟩
instance : Inhabited (Keyed α) := ⟨empty⟩

def isEmpty (m : Keyed α) : Bool := m.entries.isEmpty

def keys (m : Keyed α) : List String := m.entries.map (·.1)

def values (m : Keyed α) : List α := m.entries.map (·.2)

/-- The value at a key. -/
def find? (m : Keyed α) (k : String) : Option α := m.entries.lookup k

def contains (m : Keyed α) (k : String) : Bool := (m.find? k).isSome

/-- Puts a value at its place, over a value already there. -/
def insertEntry (k : String) (v : α) : List (String × α) → List (String × α)
  | [] => [(k, v)]
  | e :: es =>
    if k < e.1 then (k, v) :: e :: es
    else if k = e.1 then (k, v) :: es
    else e :: insertEntry k v es

theorem mem_insertEntry {k : String} {v : α} {es : List (String × α)} {x : String × α}
    (h : x ∈ insertEntry k v es) : x = (k, v) ∨ x ∈ es := by
  induction es with
  | nil => simpa [insertEntry] using h
  | cons e es ih =>
    unfold insertEntry at h
    split at h
    · simpa using h
    · split at h
      · rcases List.mem_cons.1 h with h | h
        · exact .inl h
        · exact .inr (List.mem_cons_of_mem _ h)
      · rcases List.mem_cons.1 h with h | h
        · exact .inr (h ▸ List.mem_cons_self)
        · exact (ih h).imp_right (List.mem_cons_of_mem _)

theorem pairwise_insertEntry {k : String} {v : α} {es : List (String × α)}
    (h : es.Pairwise fun a b => a.1 < b.1) :
    (insertEntry k v es).Pairwise fun a b => a.1 < b.1 := by
  induction es with
  | nil => simp [insertEntry]
  | cons e es ih =>
    have ⟨he, hes⟩ := List.pairwise_cons.1 h
    unfold insertEntry
    split
    · next hk =>
      refine List.pairwise_cons.2 ⟨fun x hx => ?_, h⟩
      rcases List.mem_cons.1 hx with hx | hx
      · exact hx ▸ hk
      · exact String.lt_trans hk (he x hx)
    · next hk =>
      split
      · next hke => exact List.pairwise_cons.2 ⟨fun x hx => hke ▸ he x hx, hes⟩
      · next hke =>
        refine List.pairwise_cons.2 ⟨fun x hx => ?_, ih hes⟩
        rcases mem_insertEntry hx with hx | hx
        · subst hx
          rcases String.le_total k e.1 with hle | hle
          · exact absurd (String.le_antisymm hle (String.not_lt.1 hk)) hke
          · exact Decidable.byContradiction fun hn =>
              hke (String.le_antisymm (String.not_lt.1 hn) hle)
        · exact he x hx

def insert (m : Keyed α) (k : String) (v : α) : Keyed α :=
  ⟨insertEntry k v m.entries, pairwise_insertEntry m.ordered⟩

theorem lookup_entry (j : String) (e : String × α) (es : List (String × α)) :
    (e :: es).lookup j = if j = e.1 then some e.2 else es.lookup j := by
  obtain ⟨k, v⟩ := e
  by_cases h : j = k
  · simp [h]
  · simp [List.lookup_cons, h, beq_eq_false_iff_ne.2 h]

theorem lookup_insertEntry (k j : String) (v : α) (es : List (String × α)) :
    (insertEntry k v es).lookup j = if j = k then some v else es.lookup j := by
  induction es with
  | nil => simp [insertEntry, lookup_entry]
  | cons e es ih =>
    unfold insertEntry
    split
    · simp [lookup_entry]
    · split
      · next hk => subst hk; by_cases h : j = e.1 <;> simp [lookup_entry, h]
      · next hk =>
        by_cases h : j = e.1
        · have hj : j ≠ k := fun hj => hk (hj ▸ h)
          rw [lookup_entry, if_pos h, if_neg hj, lookup_entry, if_pos h]
        · rw [lookup_entry, if_neg h, ih, lookup_entry, if_neg h]

@[simp] theorem find?_insert (m : Keyed α) (k j : String) (v : α) :
    (m.insert k v).find? j = if j = k then some v else m.find? j := lookup_insertEntry k j v _

/-- A key before all entries is not among them. -/
theorem lookup_eq_none_of_lt {es : List (String × α)} {k : String} (h : ∀ e ∈ es, k < e.1) :
    es.lookup k = none := by
  induction es with
  | nil => rfl
  | cons e es ih =>
    have hk : k ≠ e.1 := fun hk => String.lt_irrefl k (hk ▸ h e List.mem_cons_self : k < k)
    rw [lookup_entry, if_neg hk]
    exact ih fun x hx => h x (List.mem_cons_of_mem _ hx)

/-- The first key of one list is not before the first key of another with the same look-ups. -/
theorem not_lt_of_lookup {e f : String × α} {es fs : List (String × α)}
    (hf : ∀ x ∈ fs, f.1 < x.1) (h : (e :: es).lookup e.1 = (f :: fs).lookup e.1) :
    ¬ e.1 < f.1 := fun hlt => by
  have hnone : (f :: fs).lookup e.1 = none := lookup_eq_none_of_lt fun x hx => by
    rcases List.mem_cons.1 hx with hx | hx
    · exact hx ▸ hlt
    · exact String.lt_trans hlt (hf x hx)
  rw [lookup_entry, if_pos rfl, hnone] at h
  cases h

/-- Entries in order are determined by their look-ups. -/
theorem eq_of_lookup {es fs : List (String × α)} (he : es.Pairwise fun a b => a.1 < b.1)
    (hf : fs.Pairwise fun a b => a.1 < b.1) (h : ∀ k, es.lookup k = fs.lookup k) : es = fs := by
  induction es generalizing fs with
  | nil =>
    cases fs with
    | nil => rfl
    | cons f fs => have hn := h f.1; rw [lookup_entry, if_pos rfl] at hn; cases hn
  | cons e es ih =>
    cases fs with
    | nil => have hn := h e.1; rw [lookup_entry, if_pos rfl] at hn; cases hn
    | cons f fs =>
      have ⟨he1, hes⟩ := List.pairwise_cons.1 he
      have ⟨hf1, hfs⟩ := List.pairwise_cons.1 hf
      have key : e.1 = f.1 := String.le_antisymm
        (String.not_lt.1 (not_lt_of_lookup he1 (h f.1).symm))
        (String.not_lt.1 (not_lt_of_lookup hf1 (h e.1)))
      have value : e.2 = f.2 := by
        have hv := h e.1
        rw [lookup_entry, if_pos rfl, lookup_entry, if_pos key] at hv
        exact Option.some.inj hv
      have tail : es = fs := ih hes hfs fun k => by
        by_cases hk : k = e.1
        · rw [lookup_eq_none_of_lt fun x hx => hk ▸ he1 x hx,
            lookup_eq_none_of_lt fun x hx => hk ▸ key ▸ hf1 x hx]
        · have hr := h k
          rwa [lookup_entry, if_neg hk, lookup_entry, if_neg (key ▸ hk)] at hr
      rw [tail, Prod.ext key value]

/-- Maps with the same look-ups are equal. -/
theorem ext_find? {m n : Keyed α} (h : ∀ k, m.find? k = n.find? k) : m = n :=
  ext (eq_of_lookup m.ordered n.ordered h)

/-- The map of a list of entries, in which the last entry of a key wins. -/
def ofList (es : List (String × α)) : Keyed α := es.foldl (fun m e => m.insert e.1 e.2) empty

/-- Keeps the entries that a test accepts. -/
def filter (m : Keyed α) (p : String → α → Bool) : Keyed α :=
  ⟨m.entries.filter fun e => p e.1 e.2, m.ordered.filter _⟩

def erase (m : Keyed α) (k : String) : Keyed α := m.filter fun key _ => key != k

end Keyed

/-- Counts by name. Counts are words and wrap around. -/
abbrev Counts := Keyed UInt64

namespace Counts

/-- One more of a name. -/
def bump (m : Counts) (k : String) : Counts := m.insert k ((m.find? k).getD 0 + 1)

/-- The count of a name, zero when it has none. -/
def count (m : Counts) (k : String) : UInt64 := (m.find? k).getD 0

/-- The sum of all counts. -/
def total (m : Counts) : UInt64 := (m.values).foldl (· + ·) 0

/-- Adds the counts of the second map onto the first. -/
def merge (m n : Counts) : Counts :=
  n.entries.foldl (fun acc e => acc.insert e.1 ((acc.find? e.1).getD 0 + e.2)) m

/-- A larger count stands first, and among equal counts the smaller name. -/
def ranksBefore (a b : String × UInt64) : Bool :=
  b.2 < a.2 || (a.2 == b.2 && decide (a.1 ≤ b.1))

/-- The entries by rank. -/
def ranking (m : Counts) : List (String × UInt64) := m.entries.mergeSort ranksBefore

end Counts

end PromptDesk
