import PromptDesk.Axes
import PromptDesk.Proofs.Keyed
import PromptDesk.Proofs.Text.Trim

/-! What is kept of the axes of a request. A known axis keeps its known tokens, trimmed, each at its
first place, and an axis without one is dropped. Two catalogs one after the other keep what they both
know, so the order in which catalogs are asked is no matter, and neither is asking one twice. -/
namespace PromptDesk

/-- Items of a list, each once, in the order in which the list first has them. -/
structure FirstsOf {α : Type} [DecidableEq α] (xs ys : List α) : Prop where
  mem : ∀ x, x ∈ ys ↔ x ∈ xs
  inOrder : ys.Pairwise fun x y => xs.idxOf x < xs.idxOf y

namespace FirstsOf

variable {α : Type} [DecidableEq α] {xs ys zs : List α} {x y : α}

theorem nil : FirstsOf ([] : List α) [] := ⟨fun _ => Iff.rfl, .nil⟩

theorem nodup (h : FirstsOf xs ys) : ys.Nodup :=
  h.inOrder.imp fun hlt he => by simp [he] at hlt

/-- There is only one such list. -/
theorem unique (h : FirstsOf xs ys) (h' : FirstsOf xs zs) : ys = zs := by
  have perm : ys.Perm zs := (List.perm_ext_iff_of_nodup h.nodup h'.nodup).2 fun x =>
    (h.mem x).trans (h'.mem x).symm
  exact perm.eq_of_pairwise (fun _ _ _ _ hlt hlt' => absurd hlt' hlt.asymm) h.inOrder h'.inOrder

/-- One more item leaves those met before in their order. -/
theorem inOrder_concat (h : FirstsOf xs ys) (x : α) :
    ys.Pairwise fun a b => (xs ++ [x]).idxOf a < (xs ++ [x]).idxOf b :=
  h.inOrder.imp_of_mem fun ha hb hlt => by
    rwa [List.idxOf_append_of_mem ((h.mem _).1 ha), List.idxOf_append_of_mem ((h.mem _).1 hb)]

/-- An item met again is passed over. -/
theorem concat_of_mem (h : FirstsOf xs ys) (hx : x ∈ xs) : FirstsOf (xs ++ [x]) ys where
  mem y := by
    rw [h.mem, List.mem_append, List.mem_singleton]
    exact ⟨.inl, fun hy => hy.elim id fun he => he ▸ hx⟩
  inOrder := h.inOrder_concat x

/-- An item not met before comes last. -/
theorem concat_of_not_mem (h : FirstsOf xs ys) (hx : x ∉ xs) :
    FirstsOf (xs ++ [x]) (ys ++ [x]) where
  mem y := by rw [List.mem_append, List.mem_append, h.mem]
  inOrder := by
    have before : ∀ y ∈ ys, (xs ++ [x]).idxOf y < (xs ++ [x]).idxOf x := fun y hy => by
      have hy := (h.mem y).1 hy
      rw [List.idxOf_append_of_mem hy, List.idxOf_append_of_notMem hx]
      exact Nat.lt_add_right _ (List.idxOf_lt_length_iff.2 hy)
    exact List.pairwise_append.2 ⟨h.inOrder_concat x, List.pairwise_singleton .., fun y hy z hz =>
      List.mem_singleton.1 hz ▸ before y hy⟩

/-- Passing items over leaves the others in their order. -/
theorem idxOf_filter_lt {p : α → Bool} (hx : p x = true) (hy : p y = true)
    (h : xs.idxOf x < xs.idxOf y) : (xs.filter p).idxOf x < (xs.filter p).idxOf y := by
  induction xs with
  | nil => simp at h
  | cons z xs ih =>
    by_cases hz : p z = true
    · by_cases hzx : z = x <;> by_cases hzy : z = y <;>
        simp_all [List.idxOf_cons]
    · have hzx : z ≠ x := fun he => hz (he ▸ hx)
      have hzy : z ≠ y := fun he => hz (he ▸ hy)
      rw [List.idxOf_cons_ne _ hzx, List.idxOf_cons_ne _ hzy] at h
      rw [List.filter_cons_of_neg hz]
      exact ih (Nat.lt_of_succ_lt_succ h)

theorem filter (h : FirstsOf xs ys) (p : α → Bool) : FirstsOf (xs.filter p) (ys.filter p) where
  mem x := by rw [List.mem_filter, List.mem_filter, h.mem]
  inOrder := (h.inOrder.filter p).imp_of_mem fun ha hb =>
    idxOf_filter_lt (List.mem_filter.1 ha).2 (List.mem_filter.1 hb).2

/-- A list that has nothing twice is such a list of its own. -/
theorem self (h : xs.Nodup) : FirstsOf xs xs where
  mem _ := Iff.rfl
  inOrder := List.pairwise_iff_getElem.2 fun i j hi hj hij => by
    rwa [h.idxOf_getElem, h.idxOf_getElem]

end FirstsOf

namespace Axes

/-- What trimming makes of tokens, as far as it is known. -/
def met (known tokens : List String) : List String :=
  (tokens.map Text.trim).filter known.contains

theorem met_concat (known tokens : List String) (t : String) : met known (tokens ++ [t]) =
    met known tokens ++ if known.contains (Text.trim t) then [Text.trim t] else [] := by
  simp [met, List.filter_cons]

theorem knownTokens_concat (known tokens : List String) (t : String) :
    knownTokens known (tokens ++ [t]) =
      if known.contains (Text.trim t) && !(knownTokens known tokens).contains (Text.trim t) then
        knownTokens known tokens ++ [Text.trim t]
      else knownTokens known tokens := by
  rw [knownTokens, List.foldl_concat]
  rfl

theorem firstsOf_knownTokens (known tokens : List String) :
    FirstsOf (met known tokens) (knownTokens known tokens) := by
  induction tokens using List.reverseRecOn with
  | nil => exact .nil
  | append_singleton tokens t ih =>
    rw [met_concat, knownTokens_concat]
    cases hk : known.contains (Text.trim t) with
    | false => simpa using ih
    | true =>
      by_cases hm : Text.trim t ∈ met known tokens
      · have hm' := (ih.mem _).2 hm
        simpa [hm'] using ih.concat_of_mem hm
      · have hm' : Text.trim t ∉ knownTokens known tokens := fun h => hm ((ih.mem _).1 h)
        simpa [hm'] using ih.concat_of_not_mem hm

theorem knownTokens_eq_iff {known tokens kept : List String} :
    knownTokens known tokens = kept ↔ FirstsOf (met known tokens) kept :=
  ⟨fun h => h ▸ firstsOf_knownTokens .., (firstsOf_knownTokens ..).unique⟩

example : knownTokens ["bound", "focus"] [" focus ", "fog", "bound", "focus"] = ["focus", "bound"] := by
  decide

/-- Only what is known matters, and not in which order it is listed. -/
theorem knownTokens_congr {known known' : List String} (h : ∀ t, t ∈ known ↔ t ∈ known')
    (tokens : List String) : knownTokens known tokens = knownTokens known' tokens := by
  have hc : known.contains = known'.contains := funext fun t => by
    rw [Bool.eq_iff_iff, List.contains_iff_mem, List.contains_iff_mem, h]
  rw [knownTokens_eq_iff, met, hc]
  exact firstsOf_knownTokens ..

theorem knownTokens_nil (tokens : List String) : knownTokens [] tokens = [] := by
  have none : met [] tokens = [] := List.filter_eq_nil_iff.2 fun t _ => by simp
  rw [knownTokens_eq_iff, none]
  exact .nil

/-- Tokens that were kept are trimmed and stand there once, so of them the known ones are kept. -/
theorem knownTokens_knownTokens (known known' tokens : List String) :
    knownTokens known (knownTokens known' tokens) =
      knownTokens (known'.filter known.contains) tokens := by
  have first := firstsOf_knownTokens known' tokens
  have trimmed : ∀ t ∈ knownTokens known' tokens, Text.trim t = t := fun t ht => by
    obtain ⟨u, _, rfl⟩ := List.mem_map.1 (List.mem_filter.1 ((first.mem t).1 ht)).1
    exact Text.trim_trim u
  have again : knownTokens known (knownTokens known' tokens) =
      (knownTokens known' tokens).filter known.contains := by
    rw [knownTokens_eq_iff, met, List.map_congr_left trimmed, List.map_id']
    exact .self (first.nodup.filter _)
  have both : met (known'.filter known.contains) tokens =
      (met known' tokens).filter known.contains := by
    rw [met, met, List.filter_filter]
    refine List.filter_congr fun t _ => ?_
    rw [Bool.eq_iff_iff]
    simp [and_comm]
  rw [again, eq_comm, knownTokens_eq_iff, both]
  exact first.filter _

/-- The tokens that a catalog knows for an axis; for an unknown axis there are none. -/
def tokensOf (known : Keyed (List String)) (axis : String) : List String :=
  (known.find? axis).getD []

/-- What is kept of the tokens of an axis, unless nothing is. -/
def kept? (known : Keyed (List String)) (axis : String) (tokens : List String) :
    Option (List String) :=
  if (knownTokens (tokensOf known axis) tokens).isEmpty then none
  else some (knownTokens (tokensOf known axis) tokens)

/-- What two catalogs both know, axis by axis. -/
def common (known known' : Keyed (List String)) : Keyed (List String) :=
  .ofList (known'.entries.filterMap fun e =>
    ((known.find? e.1).map fun allowed => e.2.filter allowed.contains).map (e.1, ·))

variable (requested : Axes) (known known' : Keyed (List String)) (axis : String)

theorem tokensOf_common : tokensOf (common known known') axis =
    (tokensOf known' axis).filter (tokensOf known axis).contains := by
  rw [tokensOf, common, Keyed.find?_ofList_filterMap known' fun k ts =>
    (known.find? k).map fun allowed => ts.filter allowed.contains, tokensOf, tokensOf]
  cases known'.find? axis <;> cases known.find? axis <;> simp

theorem find?_filter :
    (requested.filter (.ok known)).find? axis = (requested.find? axis).bind (kept? known axis) := by
  rw [← Keyed.find?_ofList_filterMap, filter]
  refine congrArg (fun f => (Keyed.ofList (requested.entries.filterMap f)).find? axis) ?_
  funext e
  cases h : known.find? e.1 with
  | none => simp [kept?, tokensOf, h, knownTokens_nil]
  | some allowed =>
    simp only [kept?, tokensOf, h, Option.getD_some]
    split <;> rfl

variable {requested known known' axis}

theorem kept?_eq_some_iff {tokens kept : List String} : kept? known axis tokens = some kept ↔
    kept ≠ [] ∧ FirstsOf (met (tokensOf known axis) tokens) kept := by
  rw [kept?, ← knownTokens_eq_iff]
  split
  · rename_i h
    rw [List.isEmpty_iff.1 h]
    exact iff_of_false nofun fun he => he.1 he.2.symm
  · rename_i h
    rw [Option.some.injEq]
    exact ⟨fun he => ⟨fun hn => h (List.isEmpty_iff.2 (he.trans hn)), he⟩, And.right⟩

/-- What is found under an axis was asked for and is known, trimmed, each token at its first place. -/
theorem find?_filter_eq_some_iff {kept : List String} :
    (requested.filter (.ok known)).find? axis = some kept ↔
      kept ≠ [] ∧ ∃ tokens allowed, requested.find? axis = some tokens ∧
        known.find? axis = some allowed ∧ FirstsOf (met allowed tokens) kept := by
  rw [find?_filter, Option.bind_eq_some_iff]
  simp only [kept?_eq_some_iff]
  constructor
  · rintro ⟨tokens, ht, hne, first⟩
    cases hk : known.find? axis with
    | some allowed => exact ⟨hne, tokens, allowed, ht, rfl, by simpa [tokensOf, hk] using first⟩
    | none =>
      rw [tokensOf, hk, ← knownTokens_eq_iff] at first
      exact absurd (first.symm.trans (knownTokens_nil tokens)) hne
  · rintro ⟨hne, tokens, allowed, ht, hk, first⟩
    exact ⟨tokens, ht, hne, by simpa [tokensOf, hk] using first⟩

theorem contains_filter_iff : (requested.filter (.ok known)).contains axis = true ↔
    ∃ tokens allowed, requested.find? axis = some tokens ∧ known.find? axis = some allowed ∧
      ∃ t ∈ tokens, Text.trim t ∈ allowed := by
  rw [Keyed.contains, Option.isSome_iff_exists]
  simp only [find?_filter_eq_some_iff]
  constructor
  · rintro ⟨kept, hne, tokens, allowed, ht, hk, first⟩
    obtain ⟨k, hkept⟩ := List.exists_mem_of_ne_nil kept hne
    obtain ⟨hmap, hallowed⟩ := List.mem_filter.1 ((first.mem k).1 hkept)
    obtain ⟨t, hmem, rfl⟩ := List.mem_map.1 hmap
    exact ⟨tokens, allowed, ht, hk, t, hmem, List.contains_iff_mem.1 hallowed⟩
  · rintro ⟨tokens, allowed, ht, hk, t, hmem, hallowed⟩
    have first := firstsOf_knownTokens allowed tokens
    have hmet : Text.trim t ∈ met allowed tokens :=
      List.mem_filter.2 ⟨List.mem_map_of_mem hmem, List.contains_iff_mem.2 hallowed⟩
    exact ⟨_, List.ne_nil_of_mem ((first.mem _).2 hmet), tokens, allowed, ht, hk, first⟩

/-- Two catalogs one after the other keep what both know. -/
theorem filter_filter : (requested.filter (.ok known')).filter (.ok known) =
    requested.filter (.ok (common known known')) := by
  refine Keyed.ext_find? fun axis => ?_
  rw [find?_filter, find?_filter, find?_filter, Option.bind_assoc]
  refine congrArg _ (funext fun tokens => ?_)
  have both := knownTokens_knownTokens (tokensOf known axis) (tokensOf known' axis) tokens
  rw [kept?, kept?, tokensOf_common, ← both]
  split
  · rename_i h
    rw [List.isEmpty_iff.1 h]
    rfl
  · rfl

/-- Catalogs that know the same keep the same. -/
theorem filter_congr (h : ∀ axis t, t ∈ tokensOf known axis ↔ t ∈ tokensOf known' axis) :
    requested.filter (.ok known) = requested.filter (.ok known') := by
  refine Keyed.ext_find? fun axis => ?_
  rw [find?_filter, find?_filter]
  refine congrArg _ (funext fun tokens => ?_)
  rw [kept?, kept?, knownTokens_congr (h axis)]

theorem mem_tokensOf_common {t : String} : t ∈ tokensOf (common known known') axis ↔
    t ∈ tokensOf known axis ∧ t ∈ tokensOf known' axis := by
  rw [tokensOf_common, List.mem_filter, List.contains_iff_mem, and_comm]

/-- What is kept of the axes of a request. An axis is kept if it was asked for and is known and one of
its tokens is, and then it has its known tokens, trimmed, each at its first place. Two catalogs one
after the other keep what both know, in either order, and one that is out of reach keeps nothing. -/
theorem filter_told (requested : Axes) :
    (∀ known axis,
      ((requested.filter (.ok known)).contains axis = true ↔
        ∃ tokens allowed, requested.find? axis = some tokens ∧ known.find? axis = some allowed ∧
          ∃ t ∈ tokens, Text.trim t ∈ allowed) ∧
      ∀ kept, (requested.filter (.ok known)).find? axis = some kept ↔
        kept ≠ [] ∧ ∃ tokens allowed, requested.find? axis = some tokens ∧
          known.find? axis = some allowed ∧ FirstsOf (met allowed tokens) kept) ∧
    (∀ known known', (requested.filter (.ok known')).filter (.ok known) =
      requested.filter (.ok (common known known'))) ∧
    (∀ known, (requested.filter (.ok known)).filter (.ok known) = requested.filter (.ok known)) ∧
    (∀ known known', (requested.filter (.ok known')).filter (.ok known) =
      (requested.filter (.ok known)).filter (.ok known')) ∧
    ∀ failure, requested.filter (.error failure) = ∅ := by
  refine ⟨fun known axis => ⟨contains_filter_iff, fun kept => find?_filter_eq_some_iff⟩,
    fun known known' => filter_filter, fun known => ?_, fun known known' => ?_, fun failure => rfl⟩
  · rw [filter_filter]
    exact filter_congr fun axis t => mem_tokensOf_common.trans (and_self_iff)
  · rw [filter_filter, filter_filter]
    exact filter_congr fun axis t =>
      mem_tokensOf_common.trans (and_comm.trans mem_tokensOf_common.symm)

end Axes

end PromptDesk
