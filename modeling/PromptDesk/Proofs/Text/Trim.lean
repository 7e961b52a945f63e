import Mathlib
import PromptDesk.Text.Blank

/-! Trimmed texts. Trimming drops the blanks on both sides and nothing else, and what is trimmed stays
as it is. -/
namespace PromptDesk.Text

variable {w cs : List Char} {c : Char}

theorem trimChars_trimLeft (cs : List Char) : trimChars (trimLeft cs) = trimChars cs := by
  simp only [trimChars, trimLeft, List.dropWhile_idempotent]

theorem trimLeft_append (h : w.all isBlank = true) (cs : List Char) :
    trimLeft (w ++ cs) = trimLeft cs :=
  List.dropWhile_append_of_pos (by simpa using h)

theorem trimLeft_cons (h : isBlank c = false) (cs : List Char) : trimLeft (c :: cs) = c :: cs := by
  simp [trimLeft, h]

theorem trimRight_append (h : w.all isBlank = true) (cs : List Char) :
    trimRight (cs ++ w) = trimRight cs := by
  rw [trimRight, List.reverse_append, List.dropWhile_append_of_pos (by simpa using h), trimRight]

theorem trimRight_append_cons (h : isBlank c = false) (cs ds : List Char) :
    trimRight (cs ++ c :: ds) = cs ++ c :: trimRight ds := by
  rw [trimRight, List.reverse_append, List.reverse_cons, List.append_assoc, List.dropWhile_append]
  split
  · next hd =>
    have hnil : trimRight ds = [] := by rw [trimRight, List.isEmpty_iff.1 hd, List.reverse_nil]
    simp [h, hnil]
  · simp [trimRight]

theorem trimRight_prefix (cs : List Char) : trimRight cs <+: cs := by
  rw [trimRight, ← List.reverse_suffix, List.reverse_reverse]
  exact List.dropWhile_suffix _

/-- Blanks are dropped on both sides, and nothing else is. -/
theorem exists_blanks (cs : List Char) :
    ∃ w w', cs = w ++ (trimChars cs ++ w') ∧ w.all isBlank = true ∧ w'.all isBlank = true := by
  have hr : trimLeft cs =
      trimChars cs ++ ((trimLeft cs).reverse.takeWhile isBlank).reverse := by
    rw [trimChars, trimRight, ← List.reverse_append, List.takeWhile_append_dropWhile,
      List.reverse_reverse]
  refine ⟨cs.takeWhile isBlank, ((trimLeft cs).reverse.takeWhile isBlank).reverse, ?_, ?_, ?_⟩
  · rw [← hr, trimLeft, List.takeWhile_append_dropWhile]
  · exact List.all_takeWhile
  · rw [List.all_reverse]
    exact List.all_takeWhile

theorem not_mem_of_blanks {w : List Char} (h : w.all isBlank = true) (hc : isBlank c = false) :
    c ∉ w := by
  intro hm
  rw [List.all_eq_true.1 h c hm] at hc
  cases hc

/-- What is left is trimmed: it begins with no blank, as it is the beginning of what does not, and it
ends with none. -/
theorem trimChars_trimChars (cs : List Char) : trimChars (trimChars cs) = trimChars cs := by
  have left : trimLeft (trimChars cs) = trimChars cs := by
    cases h : trimChars cs with
    | nil => rfl
    | cons c ds =>
      obtain ⟨es, hes⟩ := trimRight_prefix (trimLeft cs)
      rw [← trimChars, h] at hes
      have hc : isBlank c = false := by
        have hhead := List.head?_dropWhile_not isBlank cs
        rw [← trimLeft, ← hes] at hhead
        simpa using hhead
      exact trimLeft_cons hc ds
  rw [trimChars, left, trimChars, trimRight, trimRight, List.reverse_reverse,
    List.dropWhile_idempotent]

@[simp] theorem trim_trim (s : String) : trim (trim s) = trim s := by
  rw [trim, trim, String.toList_ofList, trimChars_trimChars]

end PromptDesk.Text
