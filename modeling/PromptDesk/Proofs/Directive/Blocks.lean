import Mathlib
import PromptDesk.Directive
import PromptDesk.Proofs.Text.Trim

/-! Where a response may hold its directive. The fences of a text are found from the left and do not
overlap, and a block is what stands between one of them and the next. The pattern for blocks finds
these blocks and no others, and the first candidate that is an object decides. -/
namespace PromptDesk

namespace Text

/-- Characters that are passed over are not looked at. -/
theorem captures_skip (atoms : List Atom) (pre cs : List Char) :
    captures atoms pre.length (pre ++ cs) = captures atoms 0 cs := by
  induction pre with
  | nil => rfl
  | cons c pre ih => exact ih

end Text

namespace Directive

open Text (Atom capture? captures trimLeft trimChars isBlank)

/-! ### Fences -/

/-- No fence begins in front of the one that follows these characters. -/
def LeadsTo (p : List Char) : Prop := ¬ fence <:+: p ++ fence.dropLast

/-- A text is cut at its fences, which are found from the left and do not overlap. -/
inductive Cut : List Char → List (List Char) → Prop
  | whole {cs : List Char} (free : ¬ fence <:+: cs) : Cut cs [cs]
  | cut {p cs : List Char} {ps : List (List Char)} (first : LeadsTo p) (rest : Cut cs ps) :
      Cut (p ++ (fence ++ cs)) (p :: ps)

/-- The pieces between the first fence and the second, the third and the fourth, and so on. A fence
without a counterpart opens nothing. -/
def enclosed : List (List Char) → List (List Char)
  | _ :: p :: q :: ps => p :: enclosed (q :: ps)
  | _ => []

/-- A piece without the word that may open it. -/
def unlabelled (cs : List Char) : List Char := if label.isPrefixOf cs then cs.drop label.length else cs

variable {p cs : List Char} {ps : List (List Char)} {c : Char}

theorem LeadsTo.nil : LeadsTo [] := by
  intro h
  have := h.length_le
  simp [fence] at this

theorem LeadsTo.suffix (h : LeadsTo p) {q : List Char} (hq : q <:+ p) : LeadsTo q := by
  intro hi
  obtain ⟨a, rfl⟩ := hq
  refine h (hi.trans ⟨a, [], ?_⟩)
  simp

/-- Characters that lead to a fence do not begin with one. -/
theorem LeadsTo.not_prefix (h : LeadsTo (c :: p)) (cs : List Char) :
    ¬ fence <+: (c :: p) ++ (fence ++ cs) := by
  intro hf
  have hp : (c :: p) ++ fence.dropLast <+: (c :: p) ++ (fence ++ cs) :=
    (List.prefix_append_right_inj _).2 ⟨'\x60' :: cs, rfl⟩
  exact h (List.prefix_of_prefix_length_le hf hp (by simp [fence])).isInfix

/-- A text with fences has a first one. -/
theorem exists_leadsTo (h : fence <:+: cs) : ∃ p rest, cs = p ++ (fence ++ rest) ∧ LeadsTo p := by
  induction cs with
  | nil => simp [fence] at h
  | cons c cs ih =>
    by_cases hp : fence <+: c :: cs
    · obtain ⟨rest, hr⟩ := hp
      exact ⟨[], rest, hr.symm, .nil⟩
    · obtain ⟨p, rest, rfl, first⟩ := ih ((List.infix_cons_iff.1 h).resolve_left hp)
      refine ⟨c :: p, rest, rfl, fun hi => ?_⟩
      rcases List.infix_cons_iff.1 hi with hi | hi
      · refine hp (hi.trans ?_)
        exact (List.prefix_append_right_inj (c :: p)).2 ⟨'\x60' :: rest, rfl⟩
      · exact first hi

theorem exists_cut (cs : List Char) : ∃ ps, Cut cs ps := by
  induction hn : cs.length using Nat.strongRecOn generalizing cs with
  | ind n ih =>
    by_cases h : fence <:+: cs
    · obtain ⟨p, rest, rfl, first⟩ := exists_leadsTo h
      obtain ⟨ps, hps⟩ := ih rest.length (by simp [← hn, fence]; omega) rest rfl
      exact ⟨p :: ps, .cut first hps⟩
    · exact ⟨[cs], .whole h⟩

/-! ### The pattern for blocks -/

theorem not_isPrefixOf {w : List Char} (h : ¬ w <+: cs) : w.isPrefixOf cs = false := by
  rw [Bool.eq_false_iff, ne_eq, List.isPrefixOf_iff_prefix]
  exact h

theorem capture?_word_of_not {w : List Char} (atoms : List Atom) (h : ¬ w <+: cs) :
    capture? (.word w :: atoms) cs = none := by
  rw [capture?, not_isPrefixOf h, if_neg Bool.false_ne_true]

theorem capture?_word (w : List Char) (atoms : List Atom) (cs : List Char) :
    capture? (.word w :: atoms) (w ++ cs) = capture? atoms cs := by
  rw [capture?, if_pos (by simp), List.drop_left]

/-- What a pattern that ends with a fence captures of a text: nothing if there is no fence, and some
of the characters that lead to the first one. -/
structure Closes (atoms : List Atom) (f : List Char → List Char) : Prop where
  free : ∀ {cs}, ¬ fence <:+: cs → capture? atoms cs = none
  first : ∀ {p} cs, LeadsTo p → capture? atoms (p ++ (fence ++ cs)) = some (f p, cs)

theorem closes_captured : Closes [.captured, .word fence] id where
  free {cs} h := by
    induction cs with
    | nil => rfl
    | cons c cs ih =>
      have hn := capture?_word_of_not [] fun hp => h hp.isInfix
      have ht := ih fun hi => h (hi.trans (List.suffix_cons c cs).isInfix)
      rw [capture?] at ht ⊢
      rw [Text.fewest, hn, ht]
      rfl
  first {p} cs h := by
    induction p with
    | nil => rfl
    | cons c p ih =>
      have hn := capture?_word_of_not [] (h.not_prefix cs)
      have ht := ih (h.suffix (List.suffix_cons c p))
      rw [capture?] at ht ⊢
      rw [List.cons_append] at hn ⊢
      rw [Text.fewest, hn, ht]
      rfl

/-- A text has one first fence. -/
theorem LeadsTo.unique {q cs' : List Char} (hp : LeadsTo p) (hq : LeadsTo q)
    (h : p ++ (fence ++ cs) = q ++ (fence ++ cs')) : p = q ∧ cs = cs' := by
  have hc := closes_captured.first cs hp
  rw [h, closes_captured.first cs' hq] at hc
  obtain ⟨rfl, rfl⟩ := Prod.mk.inj (Option.some.inj hc)
  exact ⟨rfl, rfl⟩

/-- Blanks in front of the capture do not belong to it. -/
theorem Closes.many {atoms : List Atom} (h : Closes atoms id) :
    Closes (.many isBlank :: atoms) trimLeft where
  free {cs} hf := by
    induction cs with
    | nil => exact h.free hf
    | cons c cs ih =>
      have ht := ih fun hi => hf (hi.trans (List.suffix_cons c cs).isInfix)
      rw [capture?] at ht ⊢
      rw [Text.longest, ht, h.free hf, ite_self]
  first {p} cs hp := by
    induction p with
    | nil =>
      have hb : isBlank '\x60' = false := by decide
      simpa [capture?, Text.longest, fence, hb, trimLeft] using h.first cs hp
    | cons c p ih =>
      have ht := ih (hp.suffix (List.suffix_cons c p))
      have hc := h.first cs hp
      rw [capture?] at ht ⊢
      rw [List.cons_append] at hc ⊢
      rw [Text.longest, ht, hc]
      by_cases hb : isBlank c = true <;> simp [hb, trimLeft]

/-- A text starts with the word for blocks only in front of a fence. -/
theorem label_prefix_iff : label <+: p ++ (fence ++ cs) ↔ label <+: p := by
  refine ⟨fun h => ?_, fun h => h.trans (List.prefix_append p _)⟩
  rcases List.prefix_or_prefix_of_prefix h (List.prefix_append p _) with h' | ⟨q, hq⟩
  · exact h'
  · cases q with
    | nil => exact ⟨[], by rw [← hq]; simp⟩
    | cons c q =>
      rw [← hq, List.prefix_append_right_inj] at h
      obtain rfl : c = '\x60' := by
        rw [fence, List.cons_append, List.cons_prefix_cons] at h
        exact h.1
      have hm : '\x60' ∈ label := by simp [← hq]
      simp [label] at hm

theorem Closes.optional {atoms : List Atom} {f : List Char → List Char} (h : Closes atoms f) :
    Closes (.optional label :: atoms) fun p => f (unlabelled p) where
  free {cs} hf := by
    have hd := h.free fun hi => hf (hi.trans (List.drop_suffix label.length cs).isInfix)
    simp [capture?, h.free hf, hd]
  first {p} cs hp := by
    by_cases hl : label <+: p
    · obtain ⟨q, rfl⟩ := hl
      have hq := h.first cs (hp.suffix (List.suffix_append label q))
      simp [capture?, unlabelled, hq]
    · have hn := not_isPrefixOf (mt label_prefix_iff.1 hl : ¬ label <+: p ++ (fence ++ cs))
      simp [capture?, unlabelled, not_isPrefixOf hl, hn, h.first cs hp]

/-- What is captured of the characters between two fences. -/
def captured (p : List Char) : List Char := trimLeft (unlabelled p)

theorem closes_block : Closes block.tail captured := closes_captured.many.optional

theorem capture?_block (cs : List Char) : capture? block (fence ++ cs) = capture? block.tail cs :=
  capture?_word fence block.tail cs

theorem captures_free (h : ¬ fence <:+: cs.drop fence.length) : captures block 0 cs = [] := by
  induction cs with
  | nil => rfl
  | cons c cs ih =>
    have hs : (c :: cs).drop fence.length = (cs.drop 2) := rfl
    rw [hs] at h
    have ht := ih fun hi => h (hi.trans (List.drop_suffix_drop_left cs (by simp [fence])).isInfix)
    have hn : capture? block (c :: cs) = none := by
      by_cases hp : fence <+: c :: cs
      · obtain ⟨rest, hr⟩ := hp
        obtain rfl : cs.drop 2 = rest := by rw [← hs, ← hr]; rfl
        rw [← hr, capture?_block]
        exact closes_block.free h
      · exact capture?_word_of_not block.tail hp
    rw [captures, hn]
    exact ht

/-- Nothing is captured in front of the first fence. -/
theorem captures_first (cs : List Char) (h : LeadsTo p) :
    captures block 0 (p ++ (fence ++ cs)) = captures block 0 (fence ++ cs) := by
  induction p with
  | nil => rfl
  | cons c p ih =>
    have hn : capture? block (c :: (p ++ (fence ++ cs))) = none :=
      capture?_word_of_not block.tail (h.not_prefix cs)
    rw [List.cons_append, captures, hn]
    exact ih (h.suffix (List.suffix_cons c p))

/-- A block is captured, and reading goes on after its second fence. -/
theorem captures_block (cs : List Char) (h : LeadsTo p) :
    captures block 0 (fence ++ (p ++ (fence ++ cs))) = captured p :: captures block 0 cs := by
  have hc := capture?_block (p ++ (fence ++ cs))
  rw [closes_block.first cs h] at hc
  have hs := Text.captures_skip block (fence.tail ++ p ++ fence) cs
  have hl : (fence.tail ++ (p ++ (fence ++ cs))).length - cs.length =
      (fence.tail ++ p ++ fence).length := by
    simp
    omega
  have hf : fence ++ (p ++ (fence ++ cs)) = '\x60' :: (fence.tail ++ (p ++ (fence ++ cs))) := rfl
  rw [hf] at hc ⊢
  rw [captures, hc]
  simp only [hl]
  rw [← hs]
  simp

/-- What follows a fence is enclosed if there is one more fence. -/
theorem enclosed_cons (h : Cut cs ps) (q p : List Char) :
    enclosed (q :: p :: ps) = p :: enclosed ps := by
  cases h <;> rfl

/-- The pattern for blocks finds what fences enclose, and the same behind a fence. -/
theorem captures_of_cut (h : Cut cs ps) : captures block 0 cs = (enclosed ps).map captured ∧
    ∀ q, captures block 0 (fence ++ cs) = (enclosed (q :: ps)).map captured := by
  induction h with
  | whole free =>
    exact ⟨captures_free fun h => free (h.trans (List.drop_suffix _ _).isInfix),
      fun _ => captures_free free⟩
  | @cut p cs ps first rest ih =>
    obtain ⟨outside, inside⟩ := ih
    refine ⟨?_, fun q => ?_⟩
    · rw [captures_first cs first]
      exact inside p
    · rw [captures_block cs first, outside, enclosed_cons rest, List.map_cons]

/-- The fences of a text are where they are. -/
theorem Cut.unique (h : Cut cs ps) {qs : List (List Char)} (h' : Cut cs qs) : qs = ps := by
  induction h generalizing qs with
  | whole free =>
    cases h' with
    | whole => rfl
    | cut => exact absurd ⟨_, _, List.append_assoc _ _ _⟩ free
  | @cut p cs ps first rest ih =>
    generalize hcs : p ++ (fence ++ cs) = text at h'
    cases h' with
    | whole free => exact absurd ⟨_, _, (List.append_assoc _ _ _).trans hcs⟩ free
    | cut first' rest' =>
      obtain ⟨rfl, rfl⟩ := first.unique first' hcs
      rw [ih rest']

/-- Where an object may stand: the whole text, and then what its fences enclose. -/
theorem candidates_of_cut {text : String} (h : Cut text.toList ps) :
    candidates text =
      trimChars text.toList :: (enclosed ps).map fun p => trimChars (unlabelled p) := by
  rw [candidates, (captures_of_cut h).1, List.map_map]
  simp [Function.comp_def, captured, Text.trimChars_trimLeft]

/-! ### The object that decides -/

/-- The first candidate that is an object has these members. -/
inductive FirstObject (members : List (String × Json)) : List (List Char) → Prop
  | here {c : List Char} {cs : List (List Char)} (nonempty : c ≠ [])
      (object : Json.parse? c = some (.object members)) : FirstObject members (c :: cs)
  | later {c : List Char} {cs : List (List Char)}
      (other : c = [] ∨ ∀ ms, Json.parse? c ≠ some (.object ms)) (rest : FirstObject members cs) :
      FirstObject members (c :: cs)

/-- An object asks for a directive: it names an action, says what to prompt with, and may name a
destination. -/
structure AsksFor (members : List (String × Json)) (d : Directive) : Prop where
  action : members.lookup "action" = some (.text (name d.action))
  prompt : members.lookup "prompt" = some (.text d.prompt)
  said : ∃ c ∈ d.prompt.toList, isBlank c = false
  destination : ∀ s, d.responseDestination = some s ↔
    members.lookup "response_destination" = some (.text s)

theorem object?_eq_some_iff {members : List (String × Json)} :
    object? cs = some members ↔ Json.parse? cs = some (.object members) := by
  unfold object?
  split <;> simp_all

/-- Among the candidates that are not empty, the first object is the one that decides. -/
theorem findSome?_object? {members : List (String × Json)} (cs : List (List Char)) :
    (cs.filter (!·.isEmpty)).findSome? object? = some members ↔ FirstObject members cs := by
  induction cs with
  | nil => exact ⟨nofun, nofun⟩
  | cons c cs ih =>
    by_cases hc : c = []
    · subst hc
      rw [List.filter_cons_of_neg (by simp), ih]
      refine ⟨fun h => .later (.inl rfl) h, fun h => ?_⟩
      cases h with
      | here nonempty => exact absurd rfl nonempty
      | later _ rest => exact rest
    · rw [List.filter_cons_of_pos (by simpa using hc), List.findSome?_cons]
      cases ho : object? c with
      | some ms =>
        have hparse := object?_eq_some_iff.1 ho
        refine ⟨fun h => ?_, fun h => ?_⟩
        · obtain rfl : ms = members := Option.some.inj h
          exact .here hc hparse
        · cases h with
          | here _ object => simpa [hparse] using object
          | later other => exact absurd hparse (other.resolve_left hc ms)
      | none =>
        have hparse : ∀ ms, Json.parse? c ≠ some (.object ms) := fun ms hp => by
          rw [object?_eq_some_iff.2 hp] at ho
          cases ho
        refine ih.trans ⟨fun h => .later (.inr hparse) h, fun h => ?_⟩
        cases h with
        | here _ object => exact absurd object (hparse members)
        | later _ rest => exact rest

theorem text?_lookup {members : List (String × Json)} {k s : String} :
    (members.lookup k).bind Json.text? = some s ↔ members.lookup k = some (.text s) := by
  cases h : members.lookup k with
  | none => simp
  | some j => cases j <;> simp [Json.text?]

/-- An action is told by its name, and by no other. -/
theorem ofName?_eq_some_iff {s : String} {a : DirectiveAction} :
    ofName? s = some a ↔ s = name a :=
  ofName?_iff fun a => by cases a <;> rfl

theorem isBlankText_eq_false_iff {s : String} :
    Text.isBlankText s = false ↔ ∃ c ∈ s.toList, isBlank c = false := by
  simp [Text.isBlankText]

theorem AsksFor.ofObject? {members : List (String × Json)} {d : Directive}
    (h : AsksFor members d) : ofObject? members = some d := by
  have ha := text?_lookup.2 h.action
  have hp := text?_lookup.2 h.prompt
  have hn : ofName? (name d.action) = some d.action := ofName?_eq_some_iff.2 rfl
  have hs := isBlankText_eq_false_iff.2 h.said
  have hd : (members.lookup "response_destination").bind Json.text? = d.responseDestination := by
    refine Option.ext fun s => ?_
    rw [text?_lookup, h.destination]
  simp only [Directive.ofObject?, ha, hp, hn, hs, hd, Bool.false_eq_true, if_false]

theorem ofObject?_eq_some_iff {members : List (String × Json)} {d : Directive} :
    ofObject? members = some d ↔ AsksFor members d := by
  refine ⟨fun h => ?_, AsksFor.ofObject?⟩
  unfold ofObject? at h
  split at h
  · rename_i action prompt ha hp
    split at h
    · rename_i a hn
      split at h
      · cases h
      · rename_i hs
        cases h
        exact {
          action := ofName?_eq_some_iff.1 hn ▸ text?_lookup.1 ha
          prompt := text?_lookup.1 hp
          said := isBlankText_eq_false_iff.1 (by simpa using hs)
          destination := fun s => text?_lookup }
    · cases h
  · cases h

/-- The first object among the candidates decides what is asked for. -/
theorem ofResponse?_iff_candidates {text : String} {d : Directive} :
    ofResponse? text = some d ↔
      ∃ members, AsksFor members d ∧ FirstObject members (candidates text) := by
  rw [ofResponse?]
  constructor
  · intro h
    split at h
    · rename_i members hm
      exact ⟨members, ofObject?_eq_some_iff.1 h, (findSome?_object? _).1 hm⟩
    · cases h
  · rintro ⟨members, asks, first⟩
    rw [(findSome?_object? _).2 first]
    exact asks.ofObject?

/-- What a response asks for is decided by the first object among its candidates: the whole text, and
then what the first fence and the second enclose, the third and the fourth, and so on. A fence without
a counterpart encloses nothing, and objects after the first one are not looked at. -/
theorem asked_iff_first_object (text : String) :
    ∃ ps, (Cut text.toList ps ∧ ∀ qs, Cut text.toList qs → qs = ps) ∧ ∀ d : Directive,
      ofResponse? text = some d ↔ ∃ members, AsksFor members d ∧
        FirstObject members
          (trimChars text.toList :: (enclosed ps).map fun p => trimChars (unlabelled p)) := by
  obtain ⟨ps, hps⟩ := exists_cut text.toList
  refine ⟨ps, ⟨hps, fun qs hqs => hps.unique hqs⟩, fun d => ?_⟩
  rw [ofResponse?_iff_candidates, candidates_of_cut hps]

end Directive

end PromptDesk
