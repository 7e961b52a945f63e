import Mathlib
import PromptDesk.Keyed

/-! Look-ups in maps. An entry is found under its key, and the map of a list of entries, the keys in
order, finds what the list holds; so a map is the map of its entries, and choosing new values for some
of its entries chooses them for the look-ups. -/
namespace PromptDesk.Keyed

variable {α β : Type}

/-- Only the first entry has the first key. -/
theorem lookup_tail {e : String × α} {es : List (String × α)}
    (h : (e :: es).Pairwise fun a b => a.1 < b.1) : es.lookup e.1 = none :=
  lookup_eq_none_of_lt (List.pairwise_cons.1 h).1

/-- Every entry is found under its key. -/
theorem lookup_of_mem {es : List (String × α)} (h : es.Pairwise fun a b => a.1 < b.1)
    {e : String × α} (he : e ∈ es) : es.lookup e.1 = some e.2 := by
  induction es with
  | nil => cases he
  | cons x es ih =>
    obtain ⟨hfirst, hrest⟩ := List.pairwise_cons.1 h
    rw [lookup_entry]
    rcases List.mem_cons.1 he with rfl | he
    · exact if_pos rfl
    · have hne : e.1 ≠ x.1 := fun hk => String.lt_irrefl x.1 (hk ▸ hfirst e he)
      rw [if_neg hne, ih hrest he]

theorem nodup_keys (m : Keyed α) : m.keys.Nodup :=
  List.pairwise_map.2 (m.ordered.imp fun h he => by simp [he] at h)

theorem mem_keys {m : Keyed α} {k : String} : k ∈ m.keys ↔ m.contains k = true := by
  rw [keys, contains, List.mem_map]
  constructor
  · rintro ⟨e, he, rfl⟩
    rw [find?, lookup_of_mem m.ordered he]
    rfl
  · intro h
    obtain ⟨v, hv⟩ := Option.isSome_iff_exists.1 h
    obtain ⟨es, fs, he, _⟩ := List.lookup_eq_some_iff.1 hv
    exact ⟨(k, v), he ▸ List.mem_append_right _ List.mem_cons_self, rfl⟩

/-- The values are what the keys are looked up as. -/
theorem map_values (m : Keyed α) (f : α → β) (d : α) :
    m.values.map f = m.keys.map fun k => f ((m.find? k).getD d) := by
  rw [values, keys, List.map_map, List.map_map]
  refine List.map_congr_left fun e he => ?_
  simp [find?, lookup_of_mem m.ordered he]

theorem find?_foldl_insert {es : List (String × α)} (h : es.Pairwise fun a b => a.1 < b.1)
    (m : Keyed α) (k : String) :
    (es.foldl (fun m e => m.insert e.1 e.2) m).find? k = (es.lookup k).or (m.find? k) := by
  induction es generalizing m with
  | nil => rfl
  | cons e es ih =>
    have hfirst := lookup_tail h
    rw [List.foldl_cons, ih (List.pairwise_cons.1 h).2, lookup_entry, find?_insert]
    by_cases hk : k = e.1
    · subst hk
      simp [hfirst]
    · simp [hk]

/-- The map of entries with keys in order finds what is listed. -/
theorem find?_ofList {es : List (String × α)} (h : es.Pairwise fun a b => a.1 < b.1) (k : String) :
    (ofList es).find? k = es.lookup k := by
  have hempty : (empty : Keyed α).find? k = none := rfl
  rw [ofList, find?_foldl_insert h, hempty, Option.or_none]

/-- A map is the map of its entries. -/
theorem ofList_entries (m : Keyed α) : ofList m.entries = m :=
  ext_find? fun k => find?_ofList m.ordered k

/-- What is listed after a choice of new values is what is chosen for the value listed before. -/
theorem lookup_filterMap {es : List (String × α)} (h : es.Pairwise fun a b => a.1 < b.1)
    (f : String → α → Option β) (k : String) :
    (es.filterMap fun e => (f e.1 e.2).map (e.1, ·)).lookup k = (es.lookup k).bind (f k) := by
  induction es with
  | nil => rfl
  | cons e es ih =>
    have ih := ih (List.pairwise_cons.1 h).2
    rw [lookup_entry]
    by_cases hk : k = e.1
    · subst hk
      cases hf : f e.1 e.2 with
      | none => simp [hf, ih, lookup_tail h]
      | some b => simp [hf]
    · cases hf : f e.1 e.2 with
      | none => simp [hf, ih, hk]
      | some b => simp [hf, lookup_entry, ih, hk]

/-- A choice of new values for entries is a choice for the look-ups. -/
theorem find?_ofList_filterMap (m : Keyed α) (f : String → α → Option β) (k : String) :
    (ofList (m.entries.filterMap fun e => (f e.1 e.2).map (e.1, ·))).find? k =
      (m.find? k).bind (f k) := by
  have ordered : (m.entries.filterMap fun e => (f e.1 e.2).map (e.1, ·)).Pairwise
      fun a b => a.1 < b.1 := by
    refine m.ordered.filterMap _ fun a b hab c hc d hd => ?_
    obtain ⟨_, _, rfl⟩ := Option.map_eq_some_iff.1 hc
    obtain ⟨_, _, rfl⟩ := Option.map_eq_some_iff.1 hd
    exact hab
  rw [find?_ofList ordered, lookup_filterMap m.ordered]
  rfl

theorem mem_of_mem_ofList {es : List (String × α)} {e : String × α}
    (h : e ∈ (ofList es).entries) : e ∈ es := by
  have hfold : ∀ (fs : List (String × α)) (m : Keyed α),
      e ∈ (fs.foldl (fun m f => m.insert f.1 f.2) m).entries → e ∈ fs ∨ e ∈ m.entries := by
    intro fs
    induction fs with
    | nil => exact fun m hm => .inr hm
    | cons f fs ih =>
      intro m hm
      rcases ih _ hm with hm | hm
      · exact .inl (List.mem_cons_of_mem _ hm)
      · rcases mem_insertEntry hm with rfl | hm
        · exact .inl List.mem_cons_self
        · exact .inr hm
  rcases hfold es empty h with h | h
  · exact h
  · cases h

end PromptDesk.Keyed
