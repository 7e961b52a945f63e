import PromptDesk.Proofs.Json.Reading

/-! Strings cut off. An escaped text has no quote that would close it, so the text of an object that
is cut inside one of its strings is the text of nothing, and an object with members has no quote and
no backslash in front of its first name. -/
namespace PromptDesk.Json

/-! ### Escaped texts -/

theorem digitChar_ne_backtick : ∀ n < 16, Nat.digitChar n ≠ '\x60' := by decide

/-- A character stands for itself, or a backslash and more stand for it. -/
theorem escapeChar_cases (c : Char) : (escapeChar c = [c] ∧ c ≠ '"' ∧ c ≠ '\\') ∨
    ∃ w, escapeChar c = '\\' :: w ∧ '\x60' ∉ w := by
  unfold escapeChar
  iterate 7
    split
    · exact .inr ⟨_, rfl, by decide⟩
  split
  · next h =>
    have h₁ := digitChar_ne_backtick (c.toNat / 16) (by omega)
    have h₂ := digitChar_ne_backtick (c.toNat % 16) (by omega)
    exact .inr ⟨_, rfl, by simp [h₁.symm, h₂.symm]⟩
  · next hq hb _ _ _ _ _ _ => exact .inl ⟨rfl, hq, hb⟩

theorem escape_append (a b : List Char) : escape (a ++ b) = escape a ++ escape b := by
  induction a with
  | nil => rfl
  | cons c a ih => rw [List.cons_append, escape, ih, escape, List.append_assoc]

/-- A backtick of an escaped text stands for a backtick. -/
theorem escape_backtick {cs u v : List Char} (h : escape cs = u ++ '\x60' :: v) :
    ∃ a b, cs = a ++ '\x60' :: b ∧ u = escape a ∧ v = escape b := by
  induction cs generalizing u with
  | nil => simp [escape] at h
  | cons c cs ih =>
    -- behind the first character
    have behind : ∀ {w}, escape cs = w ++ '\x60' :: v →
        ∃ a b, c :: cs = a ++ '\x60' :: b ∧ escapeChar c ++ w = escape a ∧ v = escape b := by
      intro w hw
      obtain ⟨a, b, rfl, rfl, rfl⟩ := ih hw
      exact ⟨c :: a, b, rfl, rfl, rfl⟩
    rw [escape] at h
    rcases List.append_eq_append_iff.1 h with ⟨w, rfl, hw⟩ | ⟨w, hc, hw⟩
    · exact behind hw
    · cases w with
      | nil =>
        rw [List.append_nil] at hc
        subst hc
        have hw : escape cs = [] ++ '\x60' :: v := hw.symm
        simpa using behind hw
      | cons b w =>
        obtain ⟨rfl, rfl⟩ := List.cons.inj hw
        rcases escapeChar_cases c with ⟨he, -⟩ | ⟨w', he, hno⟩
        · rw [he, List.singleton_eq_append_iff] at hc
          obtain ⟨rfl, hc⟩ | ⟨-, hc⟩ := hc
          · cases hc
            exact ⟨[], cs, rfl, rfl, rfl⟩
          · cases hc
        · rw [he, List.cons_eq_append_iff] at hc
          obtain ⟨-, hc⟩ | ⟨u', -, rfl⟩ := hc
          · cases hc
          · simp at hno

/-- The first quote behind an escaped text is the one that closes it, if no backslash is in front
of it. -/
theorem escape_quote {cs g x y : List Char} (h : escape cs ++ '"' :: x = g ++ '"' :: y)
    (hq : '"' ∉ g) (hb : '\\' ∉ g) : x = y := by
  induction cs generalizing g with
  | nil =>
    cases g with
    | nil => exact (List.cons.inj h).2
    | cons c g =>
      obtain ⟨rfl, -⟩ := List.cons.inj h
      simp at hq
  | cons c cs ih =>
    rw [escape, List.append_assoc] at h
    rcases escapeChar_cases c with ⟨he, hne, -⟩ | ⟨w, he, -⟩
    · rw [he, List.singleton_append] at h
      cases g with
      | nil => exact absurd (List.cons.inj h).1 hne
      | cons d g =>
        simp only [List.mem_cons, not_or] at hq hb
        exact ih (List.cons.inj h).2 hq.2 hb.2
    · rw [he, List.cons_append] at h
      cases g with
      | nil => exact absurd (List.cons.inj h).1 (by decide)
      | cons d g =>
        obtain ⟨rfl, -⟩ := List.cons.inj h
        simp at hb

/-! ### Strings that are not closed -/

/-- What comes after a string has no part in it. -/
theorem readPieces_append {cs rest : List Char} {ps : List Piece}
    (h : readPieces cs = some (ps, rest)) (z : List Char) :
    readPieces (cs ++ z) = some (ps, rest ++ z) := by
  induction cs using readPieces.induct generalizing ps with
  | case1 => cases h
  | case2 r =>
    cases h
    rfl
  | case3 a b c d r u hu ih =>
    rw [readPieces, hu] at h
    obtain ⟨⟨ps', r'⟩, h', heq⟩ := Option.map_eq_some_iff.1 h
    cases heq
    simp only [List.cons_append, readPieces, hu, ih h', Option.map_some]
  | case4 a b c d r hu =>
    rw [readPieces, hu] at h
    cases h
  | case5 e r hnot c hc ih =>
    have he : e ≠ 'u' := by
      rintro rfl
      cases hc
    rw [readPieces, hc] at h
    · obtain ⟨⟨ps', r'⟩, h', heq⟩ := Option.map_eq_some_iff.1 h
      cases heq
      rw [List.cons_append, List.cons_append, readPieces, hc]
      · simp only [ih h', Option.map_some]
      · exact fun _ _ _ _ _ hu => absurd hu he
    · exact hnot
  | case6 e r hnot hc =>
    rw [readPieces, hc] at h
    · cases h
    · exact hnot
  | case7 c r hq hu he hbad =>
    rw [readPieces, if_pos hbad] at h
    · cases h
    · exact hq
    · exact hu
    · exact he
  | case8 c r hq hu he hgood ih =>
    have hb : c ≠ '\\' := fun hb => hgood (.inl hb)
    rw [readPieces, if_neg hgood] at h
    · obtain ⟨⟨ps', r'⟩, h', heq⟩ := Option.map_eq_some_iff.1 h
      cases heq
      rw [List.cons_append, readPieces, if_neg hgood]
      · simp only [ih h', Option.map_some]
      · exact hq
      · exact fun _ _ _ _ _ hc => absurd hc hb
      · exact fun _ _ hc => absurd hc hb
    · exact hq
    · exact hu
    · exact he

/-- The beginning of an escaped text is not closed. -/
theorem readPieces_of_prefix {cs y : List Char} (h : y <+: escape cs) : readPieces y = none := by
  obtain ⟨z, hz⟩ := h
  by_contra hy
  obtain ⟨⟨ps, r⟩, hr⟩ := Option.ne_none_iff_exists'.1 hy
  have happ := readPieces_append hr (z ++ ['"'])
  rw [← List.append_assoc, hz, readPieces_escape] at happ
  simp at happ

/-- Members of an object, with a comma after each. -/
def leading (ms : List (String × Json)) : List Char :=
  ms.flatMap fun m => quote m.1 ++ ':' :: (m.2.print ++ [','])

theorem readMembers_unclosed {ms : List (String × Json)} {ns : List (Option String × Tree)}
    (h : GivesMembers ms ns) (k : String) {y : List Char} (hy : readPieces y = none) (fuel : Nat)
    (hf : 2 * (leading ms).length ≤ fuel) :
    readMembers fuel (leading ms ++ (quote k ++ ':' :: '"' :: y)) = none := by
  induction h generalizing fuel with
  | nil =>
    have hk := readString_quote k (':' :: '"' :: y)
    have ht : ∀ fuel, readTree fuel ('"' :: y) = none
      | 0 => rfl
      | fuel + 1 => by simp [readTree, skipSpace, isSpace, readText, hy]
    cases fuel with
    | zero => rfl
    | succ fuel =>
      rw [leading, List.flatMap_nil, List.nil_append, readMembers, hk]
      simp [skipSpace, isSpace, ht]
  | @cons m n ms ns hm hms ih =>
    obtain ⟨k', j⟩ := m
    obtain ⟨_, t⟩ := n
    obtain ⟨rfl, hj⟩ := hm
    have hj : Gives j t := hj
    cases fuel with
    | zero => rfl
    | succ fuel =>
      have hl : leading ((k', j) :: ms) = quote k' ++ ':' :: (j.print ++ ',' :: leading ms) := by
        simp [leading]
      rw [hl] at hf ⊢
      simp only [List.length_append, List.length_cons] at hf
      have hrest := ih fuel (by omega)
      rw [List.append_assoc, List.cons_append, List.append_assoc, List.cons_append,
        readMembers_comma hj k' (by omega), hrest]
      rfl

/-- The text of an object is the text of nothing if it is cut inside a string. -/
theorem parse?_unclosed {ms : List (String × Json)} {ns : List (Option String × Tree)}
    (h : GivesMembers ms ns) (k : String) {y : List Char} (hy : readPieces y = none) :
    parse? ('\x7b' :: (leading ms ++ (quote k ++ ':' :: '"' :: y))) = none := by
  generalize hcs : leading ms ++ (quote k ++ ':' :: '"' :: y) = cs
  have hr : readMembers (2 * (cs.length + 1) + 1) cs = none := by
    subst hcs
    exact readMembers_unclosed h k hy _ (by simp; omega)
  obtain ⟨r, rfl⟩ : ∃ r, cs = '"' :: r := by
    subst hcs
    cases ms <;> exact ⟨_, rfl⟩
  have ht : readTree (2 * ('\x7b' :: '"' :: r).length + 2) ('\x7b' :: '"' :: r) =
      (readMembers (2 * (('"' :: r).length + 1) + 1) ('"' :: r)).map
        fun r => (.object r.1, r.2) := rfl
  rw [parse?, tree?, ht, hr]
  rfl

/-! ### Objects with members -/

theorem exists_spaces (cs : List Char) :
    ∃ w, cs = w ++ skipSpace cs ∧ '"' ∉ w ∧ '\\' ∉ w := by
  have hno : ∀ c, isSpace c = false → c ∉ cs.takeWhile isSpace := by
    intro c hc hm
    rw [List.mem_takeWhile_imp hm] at hc
    cases hc
  exact ⟨_, (List.takeWhile_append_dropWhile (p := isSpace)).symm, hno _ (by decide),
    hno _ (by decide)⟩

/-- The members of an object begin with a name in quotes and a colon. -/
theorem readMembers_begins {fuel : Nat} {cs rest : List Char} {ns : List (Option String × Tree)}
    (h : readMembers fuel cs = some (ns, rest)) :
    ∃ y k r r', skipSpace cs = '"' :: y ∧ readText y = some (k, r) ∧ skipSpace r = ':' :: r' := by
  cases fuel with
  | zero => cases h
  | succ fuel =>
    rw [readMembers] at h
    split at h
    · cases h
    · rename_i k r hk
      split at h
      · rename_i r' hr
        unfold readString at hk
        split at hk
        · rename_i y hy
          exact ⟨y, k, r, r', hy, hk, hr⟩
        · cases hk
      · cases h

/-- A tree with a value that is an object is an object. -/
theorem Tree.eq_object_of_value? {t : Tree} {depth : Nat} {ms : List (String × Json)}
    (h : t.value? depth = some (.object ms)) : ∃ ns, t = .object ns := by
  cases t with
  | object ns => exact ⟨ns, rfl⟩
  | null | bool => simp [Tree.value?] at h
  | text s => cases s <;> simp [Tree.value?] at h
  | array ts => cases depth <;> simp [Tree.value?] at h
  | number n =>
    rw [Tree.value?] at h
    unfold Numeral.value? at h
    extract_lets at h
    split_ifs at h
    all_goals simp at h

/-- In front of the first quote of an object with members no backslash stands, and there its first
name begins, with a colon after it. -/
theorem object_begins {cs : List Char} {ms : List (String × Json)}
    (h : parse? cs = some (.object ms)) (hne : ms ≠ []) :
    ∃ g y k r r', cs = g ++ '"' :: y ∧ '"' ∉ g ∧ '\\' ∉ g ∧ readText y = some (k, r) ∧
      skipSpace r = ':' :: r' := by
  obtain ⟨t, ht, hv⟩ := Option.bind_eq_some_iff.1 h
  obtain ⟨ns, rfl⟩ := Tree.eq_object_of_value? hv
  have hns : ns ≠ [] := by
    rintro rfl
    rw [show depthLimit = 126 + 1 from rfl, Tree.value?] at hv
    cases hv
    exact hne rfl
  obtain ⟨fuel, rest, hr⟩ : ∃ fuel rest, readTree fuel cs = some (.object ns, rest) := by
    unfold tree? at ht
    split at ht
    · rename_i hr
      split at ht
      · cases ht
        exact ⟨_, _, hr⟩
      · cases ht
    · cases ht
  cases fuel with
  | zero => cases hr
  | succ fuel =>
    rw [readTree] at hr
    split at hr
    case h_5 =>
      split at hr
      · cases hr
      · obtain ⟨_, _, heq⟩ := Option.map_eq_some_iff.1 hr
        cases heq
    case h_6 r hs =>
      split at hr
      · cases hr
        exact absurd rfl hns
      · obtain ⟨⟨ns', rest'⟩, hm, heq⟩ := Option.map_eq_some_iff.1 hr
        cases heq
        obtain ⟨y, k, r₁, r₂, hy, hk, hc⟩ := readMembers_begins hm
        obtain ⟨w₁, h₁, hq₁, hb₁⟩ := exists_spaces cs
        obtain ⟨w₂, h₂, hq₂, hb₂⟩ := exists_spaces r
        obtain ⟨w₃, h₃, hq₃, hb₃⟩ := exists_spaces (skipSpace r)
        refine ⟨w₁ ++ '\x7b' :: (w₂ ++ w₃), y, k, r₁, r₂, ?_, ?_, ?_, hk, hc⟩
        · rw [h₁, hs, h₂, h₃, hy]
          simp
        · simp [hq₁, hq₂, hq₃]
        · simp [hb₁, hb₂, hb₃]
    all_goals
      obtain ⟨_, _, heq⟩ := Option.map_eq_some_iff.1 hr
      cases heq

end PromptDesk.Json
