import Mathlib

/-! The order of texts is the order of their bytes. The code of a character is a leading byte and digits
to the base 64, the most significant first. A larger character has a longer code, which has a larger
leading byte, or larger digits; so its code comes later, whatever follows either of them. -/
namespace PromptDesk.Text

open String (utf8EncodeChar)

/-- The bytes of a text in UTF-8. -/
def bytes (s : String) : List UInt8 := s.toUTF8.data.toList

theorem bytes_eq (s : String) : bytes s = s.toList.flatMap utf8EncodeChar := by
  rw [bytes, String.toUTF8, ← String.utf8Encode_toList, List.utf8Encode,
    List.toList_data_toByteArray]

/-- A number as so many digits to the base 64 after a leading byte that holds the rest of it. -/
def code (lead : Nat) : Nat → Nat → List UInt8
  | 0, n => [UInt8.ofNat (n + lead)]
  | k + 1, n => code lead k (n / 64) ++ [UInt8.ofNat (n % 64 + 128)]

variable {lead lead' j k m n : Nat}

theorem byte_lt (h : m < n) (hn : n < 256) (xs ys : List UInt8) :
    UInt8.ofNat m :: xs < UInt8.ofNat n :: ys :=
  List.cons_lt_cons_iff.2 (.inl ((UInt8.ofNat_lt_iff_lt (h.trans hn) hn).2 h))

theorem exists_code_eq (lead k n : Nat) :
    ∃ digits, code lead k n = UInt8.ofNat (n / 64 ^ k + lead) :: digits := by
  induction k generalizing n with
  | zero => exact ⟨[], by rw [code, pow_zero, Nat.div_one]⟩
  | succ k ih =>
    obtain ⟨digits, hd⟩ := ih (n / 64)
    exact ⟨digits ++ [UInt8.ofNat (n % 64 + 128)], by
      rw [code, hd, Nat.div_div_eq_div_mul, pow_succ']; rfl⟩

/-- A smaller leading byte decides. -/
theorem code_lt_of_lead (h : m / 64 ^ j + lead < n / 64 ^ k + lead')
    (fits : n / 64 ^ k + lead' < 256) (xs ys : List UInt8) :
    code lead j m ++ xs < code lead' k n ++ ys := by
  obtain ⟨_, hm⟩ := exists_code_eq lead j m
  obtain ⟨_, hn⟩ := exists_code_eq lead' k n
  rw [hm, hn]
  exact byte_lt h fits _ _

/-- Among codes of one length the smaller number has the smaller one: either it is smaller without the
last digit, or only that digit is. -/
theorem code_lt_of_lt (h : m < n) (fits : n / 64 ^ k + lead < 256) (xs ys : List UInt8) :
    code lead k m ++ xs < code lead k n ++ ys := by
  induction k generalizing m n xs ys with
  | zero =>
    rw [pow_zero, Nat.div_one] at fits
    exact byte_lt (Nat.add_lt_add_right h lead) fits xs ys
  | succ k ih =>
    rw [code, code, List.append_assoc, List.append_assoc]
    have hdigit : m / 64 < n / 64 ∨ m / 64 = n / 64 ∧ m % 64 < n % 64 := by omega
    rcases hdigit with hq | ⟨hq, hr⟩
    · rw [pow_succ', ← Nat.div_div_eq_div_mul] at fits
      exact ih hq fits _ _
    · rw [hq]
      exact List.append_left_lt (byte_lt (by omega) (by omega) _ _)

/-- The codes of characters have one to four bytes. -/
theorem utf8EncodeChar_cases (c : Char) :
    (c.toNat < 0x80 ∧ utf8EncodeChar c = code 0 0 c.toNat) ∨
    (0x80 ≤ c.toNat ∧ c.toNat < 0x800 ∧ utf8EncodeChar c = code 0xc0 1 c.toNat) ∨
    (0x800 ≤ c.toNat ∧ c.toNat < 0x10000 ∧ utf8EncodeChar c = code 0xe0 2 c.toNat) ∨
    (0x10000 ≤ c.toNat ∧ c.toNat < 0x110000 ∧ utf8EncodeChar c = code 0xf0 3 c.toNat) := by
  have hc : c.toNat < 0x110000 := by
    rcases c.valid with h | h
    · exact h.trans (by decide)
    · exact h.2
  unfold utf8EncodeChar
  rw [Char.toNat_val]
  generalize c.toNat = n at hc
  simp only [code, Nat.div_div_eq_div_mul, Nat.reduceMul]
  split
  · exact .inl ⟨by omega, rfl⟩
  · split
    · refine .inr (.inl ⟨by omega, by omega, ?_⟩)
      rw [Nat.mod_eq_of_lt (by omega : n / 64 < 32)]
      rfl
    · split
      · refine .inr (.inr (.inl ⟨by omega, by omega, ?_⟩))
        rw [Nat.mod_eq_of_lt (by omega : n / 4096 < 16)]
        rfl
      · refine .inr (.inr (.inr ⟨by omega, hc, ?_⟩))
        rw [Nat.mod_eq_of_lt (by omega : n / 262144 < 8)]
        rfl

theorem utf8EncodeChar_append_lt {c d : Char} (h : c < d) (xs ys : List UInt8) :
    utf8EncodeChar c ++ xs < utf8EncodeChar d ++ ys := by
  have hcd : c.toNat < d.toNat := h
  rcases utf8EncodeChar_cases c with ⟨hc, ec⟩ | ⟨_, hc, ec⟩ | ⟨_, hc, ec⟩ | ⟨_, hc, ec⟩ <;>
    rcases utf8EncodeChar_cases d with ⟨hd, ed⟩ | ⟨_, hd, ed⟩ | ⟨_, hd, ed⟩ | ⟨_, hd, ed⟩ <;>
    rw [ec, ed] <;>
    -- codes of one length are compared digit by digit, others by their leading bytes
    first
      | exact code_lt_of_lt hcd (by norm_num; omega) xs ys
      | exact code_lt_of_lead (by norm_num; omega) (by norm_num; omega) xs ys

theorem bytes_lt {s t : String} (h : s < t) : bytes s < bytes t := by
  rw [String.lt_iff_toList_lt] at h
  rw [bytes_eq, bytes_eq]
  generalize s.toList = cs at h
  generalize t.toList = ds at h
  induction ds generalizing cs with
  | nil => exact absurd h (List.not_lt_nil cs)
  | cons d ds ih =>
    rw [List.flatMap_cons]
    cases cs with
    | nil =>
      obtain ⟨b, bs, hb⟩ := List.exists_cons_of_ne_nil (String.utf8EncodeChar_ne_nil (c := d))
      rw [hb]
      exact List.nil_lt_cons ..
    | cons c cs =>
      rw [List.flatMap_cons]
      rcases List.cons_lt_cons_iff.1 h with hc | ⟨rfl, hrest⟩
      · exact utf8EncodeChar_append_lt hc _ _
      · exact List.append_left_lt (ih cs hrest)

/-- Texts are compared as their bytes are. -/
theorem lt_iff_bytes_lt {s t : String} : s < t ↔ bytes s < bytes t := by
  refine ⟨bytes_lt, fun h => ?_⟩
  rcases lt_trichotomy s t with hlt | rfl | hgt
  · exact hlt
  · exact absurd h (List.lt_irrefl _)
  · exact absurd (bytes_lt hgt) (List.lt_asymm h)

end PromptDesk.Text
