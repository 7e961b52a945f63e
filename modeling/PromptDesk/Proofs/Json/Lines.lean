import Mathlib
import PromptDesk.Json.Reader

/-! No line of a JSON text begins with a backtick. Backticks stand in strings only, and a string has
no line break in it. -/
namespace PromptDesk.Json

/-- Behind a given character no line begins with a backtick. -/
def Clear : Char → List Char → Prop
  | _, [] => True
  | a, c :: cs => (a = '\n' → c ≠ '\x60') ∧ Clear c cs

variable {a c : Char} {cs rest : List Char}

namespace Clear

/-- The beginning of a line is the most that can be asked for. -/
theorem of_line (h : Clear '\n' cs) (a : Char) : Clear a cs := by
  cases cs with
  | nil => trivial
  | cons c cs => exact ⟨fun _ => h.1 rfl, h.2⟩

theorem cons (hc : c ≠ '\x60') (h : Clear '\n' cs) : Clear '\n' (c :: cs) :=
  ⟨fun _ => hc, h.of_line c⟩

/-- Behind a character that ends no line anything may stand. -/
theorem inLine (ha : a ≠ '\n') (h : Clear c cs) : Clear a (c :: cs) := ⟨fun he => absurd he ha, h⟩

theorem append {w : List Char} (hw : '\x60' ∉ w) (h : Clear '\n' cs) : Clear '\n' (w ++ cs) := by
  induction w with
  | nil => exact h
  | cons c w ih =>
    simp only [List.mem_cons, not_or] at hw
    exact (ih hw.2).cons (Ne.symm hw.1)

theorem append_right {w : List Char} (h : Clear a cs) (hw : '\x60' ∉ w) : Clear a (cs ++ w) := by
  induction cs generalizing a with
  | nil =>
    have h : Clear '\n' (w ++ []) := .append hw trivial
    rw [List.append_nil] at h
    exact h.of_line a
  | cons c cs ih => exact ⟨h.1, ih h.2⟩

theorem of_dropWhile {p : Char → Bool} (hp : p '\x60' = false) (h : Clear '\n' (cs.dropWhile p)) :
    Clear '\n' cs := by
  have hw : '\x60' ∉ cs.takeWhile p := by
    intro hm
    have := List.mem_takeWhile_imp hm
    rw [hp] at this
    cases this
  rw [← List.takeWhile_append_dropWhile (p := p) (l := cs)]
  exact h.append hw

theorem of_skipSpace (h : Clear '\n' (skipSpace cs)) : Clear '\n' cs := h.of_dropWhile (by decide)

theorem of_digits (h : Clear '\n' (cs.dropWhile Text.isDigit)) : Clear '\n' cs :=
  h.of_dropWhile (by decide)

/-- What is read as a whole but for spaces is clear. -/
theorem of_spaces (h : (skipSpace cs).isEmpty = true) : Clear '\n' cs := by
  refine of_skipSpace ?_
  rw [List.isEmpty_iff.1 h]
  trivial

theorem not_lineBreak (pre : List Char) : ¬ Clear a (pre ++ '\n' :: '\x60' :: cs) := by
  induction pre generalizing a with
  | nil => exact fun h => h.2.1 rfl rfl
  | cons c pre ih => exact fun h => ih h.2

end Clear

/-! ### Reading -/

theorem clear_of_after? {w : List Char} (h : after? w cs = some rest) (hw : '\x60' ∉ w)
    (hr : Clear '\n' rest) : Clear '\n' cs := by
  rw [after?, Option.ite_none_right_eq_some] at h
  obtain ⟨hp, h⟩ := h
  obtain ⟨s, rfl⟩ := List.isPrefixOf_iff_prefix.1 hp
  rw [List.drop_left] at h
  cases h
  exact hr.append hw

theorem ne_lineBreak_of_unit? {b d e : Char} {u : Nat} (h : unit? a b d e = some u) :
    a ≠ '\n' ∧ b ≠ '\n' ∧ d ≠ '\n' ∧ e ≠ '\n' := by
  have hn : Text.hexDigit? '\n' = none := by decide
  refine ⟨?_, ?_, ?_, ?_⟩ <;> rintro rfl <;> simp [unit?, hn] at h

/-- A string is read up to its closing quote, and all that time the line does not end. -/
theorem clear_of_readPieces {ps : List Piece} (h : readPieces cs = some (ps, rest))
    (hr : Clear '\n' rest) (ha : a ≠ '\n') : Clear a cs := by
  induction cs using readPieces.induct generalizing a ps with
  | case1 => cases h
  | case2 r =>
    cases h
    exact .inLine ha (hr.of_line _)
  | case3 b c d e r u hu ih =>
    rw [readPieces, hu] at h
    obtain ⟨⟨ps', r'⟩, h', heq⟩ := Option.map_eq_some_iff.1 h
    cases heq
    obtain ⟨hb, hc, hd, he⟩ := ne_lineBreak_of_unit? hu
    exact .inLine ha (.inLine (by decide) (.inLine (by decide) (.inLine hb (.inLine hc
      (.inLine hd (ih h' he))))))
  | case4 b c d e r hu =>
    rw [readPieces, hu] at h
    cases h
  | case5 e r hnot c hc ih =>
    rw [readPieces, hc] at h
    · obtain ⟨⟨ps', r'⟩, h', heq⟩ := Option.map_eq_some_iff.1 h
      cases heq
      have he : e ≠ '\n' := by
        rintro rfl
        cases hc
      exact .inLine ha (.inLine (by decide) (ih h' he))
    · exact hnot
  | case6 e r hnot hc =>
    rw [readPieces, hc] at h
    · cases h
    · exact hnot
  | case7 c r hq hu he hbad =>
    rw [readPieces, if_pos hbad] at h
    · cases h
    · exact hq
    · exact hu
    · exact he
  | case8 c r hq hu he hgood ih =>
    rw [readPieces, if_neg hgood] at h
    · obtain ⟨⟨ps', r'⟩, h', heq⟩ := Option.map_eq_some_iff.1 h
      cases heq
      have hc : c ≠ '\n' := by
        rintro rfl
        exact hgood (.inr (by decide))
      exact .inLine ha (ih h' hc)
    · exact hq
    · exact hu
    · exact he

theorem clear_of_readText {s : Option String} (h : readText cs = some (s, rest))
    (hr : Clear '\n' rest) : Clear '\n' ('"' :: cs) := by
  obtain ⟨⟨ps, r⟩, h', heq⟩ := Option.map_eq_some_iff.1 h
  cases heq
  exact ⟨fun _ => by decide, clear_of_readPieces h' hr (by decide)⟩

theorem clear_of_readString {s : Option String} (h : readString cs = some (s, rest))
    (hr : Clear '\n' rest) : Clear '\n' cs := by
  unfold readString at h
  split at h
  · exact clear_of_readText h hr
  · cases h

theorem clear_of_readFraction {ds : List Char} (h : readFraction cs = some (ds, rest))
    (hr : Clear '\n' rest) : Clear '\n' cs := by
  unfold readFraction at h
  split at h
  · dsimp only at h
    split at h
    · cases h
    · cases h
      exact .cons (by decide) (.of_digits hr)
  · cases h
    exact hr

theorem clear_of_readExponentDigits {negative : Bool} {e : Option (Bool × List Char)}
    (h : readExponentDigits negative cs = some (e, rest)) (hr : Clear '\n' rest) :
    Clear '\n' cs := by
  unfold readExponentDigits at h
  dsimp only at h
  split at h
  · cases h
  · cases h
    exact .of_digits hr

theorem clear_of_readExponent {e : Option (Bool × List Char)}
    (h : readExponent cs = some (e, rest)) (hr : Clear '\n' rest) : Clear '\n' cs := by
  unfold readExponent at h
  split at h
  · cases h
    exact hr
  · split at h
    · rename_i c _ hc
      have hc : c ≠ '\x60' := by
        rintro rfl
        revert hc
        decide
      split at h
      · exact .cons hc (.cons (by decide) (clear_of_readExponentDigits h hr))
      · exact .cons hc (.cons (by decide) (clear_of_readExponentDigits h hr))
      · exact .cons hc (clear_of_readExponentDigits h hr)
    · cases h
      exact hr

theorem clear_of_readUnsigned {negative : Bool} {n : Numeral}
    (h : readUnsigned negative cs = some (n, rest)) (hr : Clear '\n' rest) : Clear '\n' cs := by
  unfold readUnsigned at h
  dsimp only at h
  split at h
  · cases h
  · split at h
    · cases h
    · rename_i hf
      split at h
      · cases h
      · rename_i he
        cases h
        exact .of_digits (clear_of_readFraction hf (clear_of_readExponent he hr))

theorem clear_of_readNumber {n : Numeral} (h : readNumber cs = some (n, rest))
    (hr : Clear '\n' rest) : Clear '\n' cs := by
  unfold readNumber at h
  split at h
  · exact .cons (by decide) (clear_of_readUnsigned h hr)
  · exact clear_of_readUnsigned h hr

/-- Whatever is read, no line of it begins with a backtick if none does in what is left. -/
theorem clear_of_read (fuel : Nat) :
    (∀ {cs t rest}, readTree fuel cs = some (t, rest) → Clear '\n' rest → Clear '\n' cs) ∧
    (∀ {cs ts rest}, readItems fuel cs = some (ts, rest) → Clear '\n' rest → Clear '\n' cs) ∧
    ∀ {cs ms rest}, readMembers fuel cs = some (ms, rest) → Clear '\n' rest → Clear '\n' cs := by
  induction fuel with
  | zero => exact ⟨nofun, nofun, nofun⟩
  | succ fuel ih =>
    obtain ⟨tree, items, members⟩ := ih
    -- a character that begins something, with spaces in front of it
    have begins : ∀ {c : Char} {cs rest : List Char}, skipSpace cs = c :: rest → c ≠ '\x60' →
        Clear '\n' rest → Clear '\n' cs := by
      intro c cs rest hs hc hr
      refine .of_skipSpace ?_
      rw [hs]
      exact hr.cons hc
    refine ⟨fun {cs t rest} h hr => ?_, fun {cs ts rest} h hr => ?_, fun {cs ms rest} h hr => ?_⟩
    · rw [readTree] at h
      split at h
      iterate 3
        · rename_i hs
          obtain ⟨r, hw, heq⟩ := Option.map_eq_some_iff.1 h
          cases heq
          exact begins hs (by decide) (clear_of_after? hw (by decide) hr)
      · rename_i hs
        obtain ⟨⟨s, r⟩, hw, heq⟩ := Option.map_eq_some_iff.1 h
        cases heq
        refine .of_skipSpace ?_
        rw [hs]
        exact clear_of_readText hw hr
      · rename_i hs
        split at h
        · rename_i hs'
          cases h
          exact begins hs (by decide) (begins hs' (by decide) hr)
        · obtain ⟨⟨ts, r⟩, hw, heq⟩ := Option.map_eq_some_iff.1 h
          cases heq
          exact begins hs (by decide) (.of_skipSpace (items hw hr))
      · rename_i hs
        split at h
        · rename_i hs'
          cases h
          exact begins hs (by decide) (begins hs' (by decide) hr)
        · obtain ⟨⟨ms, r⟩, hw, heq⟩ := Option.map_eq_some_iff.1 h
          cases heq
          exact begins hs (by decide) (.of_skipSpace (members hw hr))
      · obtain ⟨⟨n, r⟩, hw, heq⟩ := Option.map_eq_some_iff.1 h
        cases heq
        exact .of_skipSpace (clear_of_readNumber hw hr)
    · rw [readItems] at h
      split at h
      · cases h
      · rename_i ht
        split at h
        · rename_i hs
          cases h
          exact tree ht (begins hs (by decide) hr)
        · rename_i hs
          obtain ⟨⟨ts', r'⟩, h', heq⟩ := Option.map_eq_some_iff.1 h
          cases heq
          exact tree ht (begins hs (by decide) (items h' hr))
        · cases h
    · rw [readMembers] at h
      split at h
      · cases h
      · rename_i hk
        refine .of_skipSpace (clear_of_readString hk ?_)
        split at h
        · rename_i hcolon
          refine begins hcolon (by decide) ?_
          split at h
          · cases h
          · rename_i ht
            split at h
            · rename_i hs
              cases h
              exact tree ht (begins hs (by decide) hr)
            · rename_i hs
              obtain ⟨⟨ms', r'⟩, h', heq⟩ := Option.map_eq_some_iff.1 h
              cases heq
              exact tree ht (begins hs (by decide) (members h' hr))
            · cases h
        · cases h

theorem clear_of_tree? {t : Tree} (h : tree? cs = some t) : Clear '\n' cs := by
  unfold tree? at h
  split at h
  · rename_i hread
    split at h
    · rename_i hs
      exact (clear_of_read _).1 hread (.of_spaces hs)
    · cases h
  · cases h

end PromptDesk.Json
