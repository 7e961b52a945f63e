import Mathlib
import PromptDesk.Json.Reader
import PromptDesk.Json.Printer

/-! What is printed is read back. Wherever the text of a value stands, reading it gives one tree and
leaves what comes after it, as long as that does not go on with a number. Such trees are put together
as the values are. -/
namespace PromptDesk

namespace Text

theorem isDigit_of_mem_decimal {n : Nat} {c : Char} (h : c ∈ decimal n) : isDigit c = true := by
  have hd := Nat.isDigit_of_mem_toDigits (by decide) (by decide) h
  simpa [isDigit, Char.isDigit, Char.le_def] using hd

/-- Only zero has a numeral that starts with a zero. -/
theorem eq_zero_of_head?_decimal (n : Nat) (h : (decimal n).head? = some '0') : n = 0 := by
  induction n using Nat.strongRecOn with
  | ind n ih =>
    rw [decimal, Nat.toDigits_eq_if (by decide)] at h
    split at h
    · simpa using h
    · rename_i hn
      have hlt : n / 10 < n := Nat.div_lt_self (by omega) (by decide)
      have hz := ih (n / 10) hlt (by
        rwa [List.head?_append_of_ne_nil _ Nat.toDigits_ne_nil] at h)
      omega

end Text

namespace Json

/-! ### Texts -/

theorem unit?_of_lt : ∀ n < 32, unit? '0' '0' (Nat.digitChar (n / 16)) (Nat.digitChar (n % 16)) =
    some n := by decide

/-- An escaped character is read as that character. -/
theorem readPieces_escapeChar (c : Char) (cs : List Char) :
    readPieces (escapeChar c ++ cs) = (readPieces cs).map fun r => (.char c :: r.1, r.2) := by
  unfold escapeChar
  split
  · next h => subst h; rfl
  split
  · next h => subst h; rfl
  split
  · next h => subst h; rfl
  split
  · next h => subst h; rfl
  split
  · next h => subst h; rfl
  split
  · next h => subst h; rfl
  split
  · next h => subst h; rfl
  split
  · next h =>
    have hp : pieceOf c.toNat = .char c := by
      rw [pieceOf, if_neg (by omega), Char.ofNat_toNat]
    simp only [List.cons_append, List.nil_append, readPieces, unit?_of_lt _ h, hp]
  · next hq hb _ _ _ _ _ hc =>
    rw [List.cons_append, List.nil_append, readPieces]
    · exact if_neg (by tauto)
    · exact hq
    · rintro _ _ _ _ _ rfl
      exact absurd rfl hb
    · rintro _ _ rfl
      exact absurd rfl hb

theorem readPieces_escape (cs rest : List Char) :
    readPieces (escape cs ++ '"' :: rest) = some (cs.map .char, rest) := by
  induction cs with
  | nil => rfl
  | cons c cs ih => rw [escape, List.append_assoc, readPieces_escapeChar, ih]; rfl

theorem join?_chars (cs : List Char) : join? (cs.map .char) = some cs := by
  induction cs with
  | nil => rfl
  | cons c cs ih => rw [List.map_cons, join?, ih]; rfl

theorem readText_escape (s : String) (rest : List Char) :
    readText (escape s.toList ++ '"' :: rest) = some (some s, rest) := by
  simp [readText, readPieces_escape, join?_chars]

theorem readString_quote (s : String) (rest : List Char) :
    readString (skipSpace (quote s ++ rest)) = some (some s, rest) := by
  have hs : skipSpace (quote s ++ rest) = quote s ++ rest := rfl
  rw [hs, quote, List.cons_append, List.append_assoc]
  exact readText_escape s rest

/-! ### Values -/

/-- What may come after a value: nothing, or what goes on with an array or an object. -/
def Ends (rest : List Char) : Prop := ∀ c ∈ rest.head?, c = ',' ∨ c = ']' ∨ c = '\x7d'

theorem ends_nil : Ends [] := by simp [Ends]

theorem ends_comma (rest : List Char) : Ends (',' :: rest) := by simp [Ends]

theorem ends_bracket (rest : List Char) : Ends (']' :: rest) := by simp [Ends]

theorem ends_brace (rest : List Char) : Ends ('\x7d' :: rest) := by simp [Ends]

/-- A character with which a value may begin. -/
def Opens (c : Char) : Prop := isSpace c = false ∧ c ≠ ']'

/-- Reading the text of a value gives a tree, wherever the text stands. -/
structure Gives (j : Json) (t : Tree) : Prop where
  opens : ∃ c cs, j.print = c :: cs ∧ Opens c
  reads : ∀ fuel rest, 2 * j.print.length ≤ fuel → Ends rest →
    readTree fuel (j.print ++ rest) = some (t, rest)

theorem gives_null : Gives .null .null where
  opens := ⟨'n', _, rfl, by decide, by decide⟩
  reads fuel rest hf _ := by
    cases fuel with
    | zero => simp [print] at hf
    | succ fuel => rfl

theorem gives_bool (b : Bool) : Gives (.bool b) (.bool b) where
  opens := by cases b <;> exact ⟨_, _, rfl, by decide, by decide⟩
  reads fuel rest hf _ := by
    cases fuel with
    | zero => cases b <;> simp [print] at hf
    | succ fuel => cases b <;> rfl

theorem gives_text (s : String) : Gives (.text s) (.text (some s)) where
  opens := ⟨'"', _, rfl, by decide, by decide⟩
  reads fuel rest hf _ := by
    cases fuel with
    | zero => simp [print, quote] at hf
    | succ fuel =>
      have hr := readText_escape s rest
      simp only [print, quote, List.cons_append, List.append_assoc, List.nil_append]
      rw [readTree]
      simp [skipSpace, isSpace, hr]

/-- The numeral of a natural number. -/
def plain (n : Nat) : Numeral := ⟨false, Text.decimal n, [], none⟩

theorem Ends.takeWhile_isDigit {rest : List Char} (h : Ends rest) :
    rest.takeWhile Text.isDigit = [] ∧ rest.dropWhile Text.isDigit = rest := by
  cases rest with
  | nil => exact ⟨rfl, rfl⟩
  | cons c cs =>
    have hc : Text.isDigit c = false := by
      rcases h c rfl with rfl | rfl | rfl <;> decide
    simp [hc]

theorem Ends.readFraction {rest : List Char} (h : Ends rest) :
    readFraction rest = some ([], rest) := by
  cases rest with
  | nil => rfl
  | cons c cs => rcases h c rfl with rfl | rfl | rfl <;> rfl

theorem Ends.readExponent {rest : List Char} (h : Ends rest) :
    readExponent rest = some (none, rest) := by
  cases rest with
  | nil => rfl
  | cons c cs => rcases h c rfl with rfl | rfl | rfl <;> rfl

theorem readUnsigned_decimal (n : Nat) {rest : List Char} (h : Ends rest) :
    readUnsigned false (Text.decimal n ++ rest) = some (plain n, rest) := by
  have hall : ∀ c ∈ Text.decimal n, Text.isDigit c = true := fun c => Text.isDigit_of_mem_decimal
  obtain ⟨htake, hdrop⟩ := h.takeWhile_isDigit
  -- a numeral that starts with a zero is the numeral of zero
  have hzero : ((Text.decimal n).isEmpty ||
      ((Text.decimal n).head? == some '0' && (Text.decimal n).length != 1)) = false := by
    rw [Bool.or_eq_false_iff]
    refine ⟨by simp [Text.decimal], ?_⟩
    by_cases hh : (Text.decimal n).head? = some '0'
    · rw [Text.eq_zero_of_head?_decimal n hh]
      rfl
    · simp [hh]
  rw [readUnsigned]
  simp only [List.takeWhile_append_of_pos hall, List.dropWhile_append_of_pos hall, htake, hdrop,
    List.append_nil, hzero, Bool.false_eq_true, if_false, h.readFraction, h.readExponent]
  rfl

theorem decimal_eq_cons (n : Nat) :
    ∃ c cs, Text.decimal n = c :: cs ∧ Text.isDigit c = true := by
  cases hd : Text.decimal n with
  | nil => simp [Text.decimal] at hd
  | cons c cs => exact ⟨c, cs, rfl, Text.isDigit_of_mem_decimal (n := n) (by simp [hd])⟩

/-- A digit begins a number and nothing else. -/
theorem readTree_digit {c : Char} (hc : Text.isDigit c = true) (fuel : Nat) (cs : List Char) :
    readTree (fuel + 1) (c :: cs) =
      (readUnsigned false (c :: cs)).map fun r => (.number r.1, r.2) := by
  have hne : ∀ d, Text.isDigit d = false → c ≠ d := by
    rintro d hd rfl
    rw [hc] at hd
    cases hd
  have hs : isSpace c = false := by
    simp [isSpace, hne ' ' (by decide), hne '\t' (by decide), hne '\n' (by decide),
      hne '\r' (by decide)]
  have hn : readNumber (c :: cs) = readUnsigned false (c :: cs) := by
    rw [readNumber]
    rintro _ ⟨⟩
    exact hne '-' (by decide) rfl
  have hskip : skipSpace (c :: cs) = c :: cs := by simp [skipSpace, hs]
  rw [readTree, hskip]
  split
  all_goals first
    | rw [hn]
    | rename_i heq
      cases heq
      exact absurd rfl (hne _ (by decide))

theorem gives_natural (w : UInt64) : Gives (.natural w) (.number (plain w.toNat)) where
  opens := by
    obtain ⟨c, cs, hd, hc⟩ := decimal_eq_cons w.toNat
    refine ⟨c, cs, hd, ?_, ?_⟩
    · rw [isSpace]
      simp only [Bool.or_eq_false_iff, decide_eq_false_iff_not]
      refine ⟨⟨⟨?_, ?_⟩, ?_⟩, ?_⟩ <;> rintro rfl <;> cases hc
    · rintro rfl
      cases hc
  reads fuel rest hf h := by
    obtain ⟨c, cs, hd, hc⟩ := decimal_eq_cons w.toNat
    cases fuel with
    | zero => simp [print, hd] at hf
    | succ fuel =>
      have hr := readUnsigned_decimal w.toNat h
      rw [hd, List.cons_append] at hr
      rw [print, hd, List.cons_append, readTree_digit hc, hr]
      rfl

/-! ### Arrays and objects -/

theorem skipSpace_of_opens {c : Char} (h : Opens c) (cs : List Char) :
    skipSpace (c :: cs) = c :: cs := by simp [skipSpace, h.1]

theorem printItems_cons (j k : Json) (js : List Json) :
    printItems (j :: k :: js) = j.print ++ ',' :: printItems (k :: js) := by
  rw [printItems]
  exact nofun

theorem readItems_printItems {js : List Json} {ts : List Tree} (h : List.Forall₂ Gives js ts)
    (hne : js ≠ []) (fuel : Nat) (rest : List Char) (hf : 2 * (printItems js).length < fuel) :
    readItems fuel (printItems js ++ ']' :: rest) = some (ts, rest) := by
  induction h generalizing fuel with
  | nil => exact absurd rfl hne
  | @cons j t js ts hj hjs ih =>
    cases fuel with
    | zero => simp at hf
    | succ fuel =>
      cases hjs with
      | nil =>
        have hr := hj.reads fuel (']' :: rest) (by simpa [printItems] using Nat.le_of_lt_succ hf)
          (ends_bracket rest)
        rw [printItems, readItems, hr]
        simp [skipSpace, isSpace]
      | @cons k u js ts hk hjs =>
        rw [printItems_cons, List.length_append, List.length_cons] at hf
        have hr := hj.reads fuel (',' :: (printItems (k :: js) ++ ']' :: rest)) (by omega)
          (ends_comma _)
        have hrest := ih (by simp) fuel (by omega)
        rw [printItems_cons, List.append_assoc, List.cons_append, readItems, hr]
        simp [skipSpace, isSpace, hrest]

/-- What an array begins with, if it has items. -/
theorem readTree_bracket {c : Char} (hc : Opens c) (fuel : Nat) (cs : List Char) :
    readTree (fuel + 1) ('[' :: c :: cs) =
      (readItems fuel (c :: cs)).map fun r => (.array r.1, r.2) := by
  have hb : skipSpace ('[' :: c :: cs) = '[' :: c :: cs := rfl
  rw [readTree, hb]
  simp only [skipSpace_of_opens hc]
  split
  · rename_i heq
    cases heq
    exact absurd rfl hc.2
  · rfl

theorem gives_array {js : List Json} {ts : List Tree} (h : List.Forall₂ Gives js ts) :
    Gives (.array js) (.array ts) where
  opens := ⟨'[', _, rfl, by decide, by decide⟩
  reads fuel rest hf hends := by
    cases fuel with
    | zero => simp [print] at hf
    | succ fuel =>
      simp only [print, List.length_cons, List.length_append] at hf
      simp only [print, List.cons_append, List.append_assoc, List.nil_append]
      cases h with
      | nil => rfl
      | @cons j t js ts hj hjs =>
        have hr := readItems_printItems (List.Forall₂.cons hj hjs) (by simp) fuel rest (by omega)
        obtain ⟨c, cs, hp, hc⟩ : ∃ c cs, printItems (j :: js) = c :: cs ∧ Opens c := by
          obtain ⟨c, cs, hp, hc⟩ := hj.opens
          cases js with
          | nil => exact ⟨c, cs, by rw [printItems, hp], hc⟩
          | cons k js => exact ⟨c, _, by rw [printItems_cons, hp, List.cons_append], hc⟩
        rw [hp, List.cons_append] at hr ⊢
        rw [readTree_bracket hc, hr]
        rfl

/-- The members of an object give trees, each under its name. -/
abbrev GivesMembers : List (String × Json) → List (Option String × Tree) → Prop :=
  List.Forall₂ fun m n => n.1 = some m.1 ∧ Gives m.2 n.2

theorem printMembers_cons (k : String) (j : Json) (m : String × Json) (ms : List (String × Json)) :
    printMembers ((k, j) :: m :: ms) =
      quote k ++ ':' :: (j.print ++ ',' :: printMembers (m :: ms)) := by
  rw [printMembers]
  exact nofun

/-- A member with a comma after it is read, and then the members after it. -/
theorem readMembers_comma {j : Json} {t : Tree} (hj : Gives j t) (k : String) {fuel : Nat}
    (hf : 2 * j.print.length ≤ fuel) (cs : List Char) :
    readMembers (fuel + 1) (quote k ++ ':' :: (j.print ++ ',' :: cs)) =
      (readMembers fuel cs).map fun r => ((some k, t) :: r.1, r.2) := by
  have hr := hj.reads fuel (',' :: cs) hf (ends_comma _)
  rw [readMembers, readString_quote]
  simp [skipSpace, isSpace, hr]

theorem readMembers_printMembers {ms : List (String × Json)} {ns : List (Option String × Tree)}
    (h : GivesMembers ms ns) (hne : ms ≠ []) (fuel : Nat) (rest : List Char)
    (hf : 2 * (printMembers ms).length < fuel) :
    readMembers fuel (printMembers ms ++ '\x7d' :: rest) = some (ns, rest) := by
  induction h generalizing fuel with
  | nil => exact absurd rfl hne
  | @cons m n ms ns hm hms ih =>
    obtain ⟨k, j⟩ := m
    obtain ⟨_, t⟩ := n
    obtain ⟨rfl, hj⟩ := hm
    have hj : Gives j t := hj
    cases fuel with
    | zero => simp at hf
    | succ fuel =>
      cases hms with
      | nil =>
        rw [printMembers, List.length_append, List.length_cons] at hf
        have hr := hj.reads fuel ('\x7d' :: rest) (by omega) (ends_brace rest)
        have hk := readString_quote k (':' :: (j.print ++ '\x7d' :: rest))
        rw [printMembers, List.append_assoc, List.cons_append, readMembers, hk]
        simp [skipSpace, isSpace, hr]
      | @cons m' n' ms ns hm' hms =>
        rw [printMembers_cons, List.length_append, List.length_cons, List.length_append,
          List.length_cons] at hf
        have hrest := ih (by simp) fuel (by omega)
        rw [printMembers_cons, List.append_assoc, List.cons_append, List.append_assoc,
          List.cons_append, readMembers_comma hj k (by omega), hrest]
        rfl

theorem gives_object {ms : List (String × Json)} {ns : List (Option String × Tree)}
    (h : GivesMembers ms ns) : Gives (.object ms) (.object ns) where
  opens := ⟨'\x7b', _, rfl, by decide, by decide⟩
  reads fuel rest hf hends := by
    cases fuel with
    | zero => simp [print] at hf
    | succ fuel =>
      simp only [print, List.length_cons, List.length_append] at hf
      simp only [print, List.cons_append, List.append_assoc, List.nil_append]
      cases h with
      | nil => rfl
      | @cons m n ms ns hm hms =>
        have hr := readMembers_printMembers (List.Forall₂.cons hm hms) (by simp) fuel rest (by omega)
        obtain ⟨cs, hp⟩ : ∃ cs, printMembers (m :: ms) = '"' :: cs := by
          cases ms with
          | nil => exact ⟨_, rfl⟩
          | cons m' ms => exact ⟨_, rfl⟩
        rw [hp, List.cons_append] at hr ⊢
        rw [readTree]
        simp [skipSpace, isSpace, hr]

/-- A whole text is read as the tree of its value. -/
theorem Gives.tree? {j : Json} {t : Tree} (h : Gives j t) : Json.tree? j.render.toList = some t := by
  have hr := h.reads (2 * j.print.length + 2) [] (by omega) ends_nil
  rw [List.append_nil] at hr
  simp [Json.tree?, render, hr, skipSpace]

end Json

end PromptDesk
