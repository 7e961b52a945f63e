import PromptDesk.Proofs.Directive.Encoding
import PromptDesk.Proofs.Json.Lines
import PromptDesk.Proofs.Json.Strings

/-! A directive between fences. The fences of a response are found without a look at the strings of
the object that stands between them, so a directive in a block is asked for exactly if none of its
strings quotes a fence. A fence in a string ends the block there, what is left of the object is the
text of nothing, and no later piece of it is an object that asks for something. -/
namespace PromptDesk.Directive

open Text (isBlank trimChars trimLeft trimRight)

variable {d : Directive} {x y z u v p cs : List Char} {c : Char}

/-- A response that consists of a directive in a block and of prose around it. -/
def inFence (before : String) (d : Directive) (after : String) : String :=
  before ++ "\n```json\n" ++ Json.encode d ++ "\n```\n" ++ after

/-- A string of the directive holds a fence. -/
def QuotesFence (d : Directive) : Prop :=
  ∃ s, (s = d.prompt ∨ d.responseDestination = some s) ∧ fence <:+: s.toList

/-! ### Where fences are -/

theorem fence_free (h : '\x60' ∉ cs) : ¬ fence <:+: cs :=
  fun hf => h (hf.subset (by simp [fence]))

/-- A fence is on one side of a character that is no part of it. -/
theorem fence_split (hc : c ≠ '\x60') (h : x ++ c :: y = u ++ (fence ++ v)) :
    (∃ v', x = u ++ (fence ++ v') ∧ v = v' ++ c :: y) ∨
      ∃ u', u = x ++ c :: u' ∧ y = u' ++ (fence ++ v) := by
  rcases List.append_eq_append_iff.1 h with ⟨w, rfl, hw⟩ | ⟨w, rfl, hw⟩
  · cases w with
    | nil => exact absurd (List.cons.inj hw).1 hc
    | cons b w =>
      obtain ⟨rfl, rfl⟩ := List.cons.inj hw
      exact .inr ⟨w, rfl, rfl⟩
  · rcases List.append_eq_append_iff.1 hw with ⟨w', rfl, hv⟩ | ⟨w', hf, hw'⟩
    · exact .inl ⟨w', rfl, hv⟩
    · cases w' with
      | nil =>
        rw [List.append_nil] at hf
        subst hf
        exact .inl ⟨[], by simp, hw'.symm⟩
      | cons b w' =>
        obtain ⟨rfl, -⟩ := List.cons.inj hw'
        have hm : c ∈ fence := by simp [hf]
        exact absurd (by simpa [fence] using hm) hc

/-- Where no other backticks are, there is one fence. -/
theorem fence_alone (hx : '\x60' ∉ x) (h : fence ++ x = u ++ (fence ++ v)) : v = x := by
  cases u with
  | nil => exact (List.append_cancel_left h).symm
  | cons c u =>
    have hcount := congrArg (List.count '\x60') (List.cons.inj h).2
    simp [List.count_eq_zero.2 hx, fence] at hcount
    omega

theorem fence_infix_iff (hc : c ≠ '\x60') :
    fence <:+: x ++ c :: y ↔ fence <:+: x ∨ fence <:+: y := by
  constructor
  · rintro ⟨u, v, h⟩
    rw [List.append_assoc] at h
    rcases fence_split hc h.symm with ⟨v', rfl, -⟩ | ⟨u', -, rfl⟩
    · exact .inl ⟨u, v', List.append_assoc _ _ _⟩
    · exact .inr ⟨u', v, List.append_assoc _ _ _⟩
  · rintro (h | h)
    · exact h.trans (List.prefix_append _ _).isInfix
    · exact h.trans ((List.suffix_cons c y).trans (List.suffix_append x _)).isInfix

theorem LeadsTo.append (hx : ¬ fence <:+: x) (hc : c ≠ '\x60') (hp : LeadsTo p) :
    LeadsTo (x ++ c :: p) := by
  rw [LeadsTo, List.append_assoc, List.cons_append, fence_infix_iff hc, not_or]
  exact ⟨hx, hp⟩

/-- A fence in an escaped text stands for a fence. -/
theorem escape_fence (h : Json.escape cs = u ++ (fence ++ v)) :
    ∃ a b, cs = a ++ (fence ++ b) ∧ u = Json.escape a ∧ v = Json.escape b := by
  -- a backtick that comes first comes first in the text too
  have first : ∀ {cs v}, Json.escape cs = '\x60' :: v →
      ∃ b, cs = '\x60' :: b ∧ v = Json.escape b := by
    intro cs v h
    obtain ⟨a, b, rfl, ha, rfl⟩ := Json.escape_backtick (u := []) h
    cases a with
    | nil => exact ⟨b, rfl, rfl⟩
    | cons c a => rcases Json.escapeChar_cases c with ⟨he, -⟩ | ⟨w, he, -⟩ <;>
        simp [Json.escape, he] at ha
  obtain ⟨a, b, rfl, rfl, h₁⟩ := Json.escape_backtick h
  obtain ⟨b, rfl, h₂⟩ := first h₁.symm
  obtain ⟨b, rfl, rfl⟩ := first h₂.symm
  exact ⟨a, b, rfl, rfl, rfl⟩

/-- Up to the end of a string the only fences are those that it quotes. -/
theorem string_split {s : String} (hx : '\x60' ∉ x)
    (h : x ++ '"' :: (Json.escape s.toList ++ '"' :: y) = u ++ (fence ++ v)) :
    (∃ a b, s.toList = a ++ (fence ++ b) ∧ u = x ++ '"' :: Json.escape a ∧
      v = Json.escape b ++ '"' :: y) ∨
    ∃ u', u = x ++ '"' :: (Json.escape s.toList ++ '"' :: u') ∧ y = u' ++ (fence ++ v) := by
  rcases fence_split (by decide) h with ⟨v', rfl, -⟩ | ⟨w, rfl, hw⟩
  · simp [fence] at hx
  rcases fence_split (by decide) hw with ⟨v', hs, rfl⟩ | ⟨u', rfl, rfl⟩
  · obtain ⟨a, b, hab, rfl, rfl⟩ := escape_fence hs
    exact .inl ⟨a, b, hab, rfl, rfl⟩
  · exact .inr ⟨u', rfl, rfl⟩

/-! ### The strings of a directive -/

/-- The text of an object up to the string under a name. -/
def upTo (ms : List (String × Json)) (k : String) : List Char :=
  '\x7b' :: (Json.leading ms ++ (Json.quote k ++ [':']))

/-- A string of a directive, and what stands before it and after it in the text of the directive. -/
inductive Holds (d : Directive) : List Char → String → List Char → Prop
  | prompt (h : d.responseDestination = none) :
      Holds d (upTo [("action", toJson d.action)] "prompt") d.prompt ['\x7d']
  | promptFirst {s : String} (h : d.responseDestination = some s) :
      Holds d (upTo [("action", toJson d.action)] "prompt") d.prompt
        (',' :: (Json.quote "response_destination" ++ ':' :: (Json.quote s ++ ['\x7d'])))
  | destination {s : String} (h : d.responseDestination = some s) :
      Holds d (upTo [("action", toJson d.action), ("prompt", .text d.prompt)]
        "response_destination") s ['\x7d']

variable {pre post : List Char} {s : String}

theorem Holds.encode (h : Holds d pre s post) :
    (Json.encode d).toList = pre ++ '"' :: (Json.escape s.toList ++ '"' :: post) := by
  rw [toList_encode]
  cases h with
  | prompt h | promptFirst h | destination h =>
    simp [members, h, Json.print, Json.printMembers, upTo, Json.leading, Json.quote]

/-- In front of a string are whole members, and its own name. -/
theorem Holds.gives (h : Holds d pre s post) :
    ∃ ms ns k, pre = upTo ms k ∧ Json.GivesMembers ms ns := by
  have gives : ∀ k s : String,
      some k = some k ∧ Json.Gives (.text s) (.text (some s)) := fun _ s => ⟨rfl, Json.gives_text s⟩
  have action := gives "action" (name d.action)
  have prompt := gives "prompt" d.prompt
  cases h with
  | prompt | promptFirst => exact ⟨_, [(_, _)], _, rfl, .cons action .nil⟩
  | destination => exact ⟨_, [(_, _), (_, _)], _, rfl, .cons action (.cons prompt .nil)⟩

theorem holds_iff : (∃ pre post, Holds d pre s post) ↔
    s = d.prompt ∨ d.responseDestination = some s := by
  constructor
  · rintro ⟨_, _, h⟩
    cases h with
    | prompt | promptFirst => exact .inl rfl
    | destination h => exact .inr h
  · rintro (rfl | h)
    · cases h : d.responseDestination with
      | none => exact ⟨_, _, .prompt h⟩
      | some s => exact ⟨_, _, .promptFirst h⟩
    · exact ⟨_, _, .destination h⟩

/-- The only fences in the text of a directive are those that its strings quote. -/
theorem encode_split (h : (Json.encode d).toList ++ '\n' :: z = u ++ (fence ++ v)) :
    (∃ pre s post a b, Holds d pre s post ∧ s.toList = a ++ (fence ++ b) ∧
      u = pre ++ '"' :: Json.escape a ∧ v = Json.escape b ++ '"' :: (post ++ '\n' :: z)) ∨
    ∃ u', z = u' ++ (fence ++ v) := by
  have hx : '\x60' ∉ upTo [("action", toJson d.action)] "prompt" := by
    cases d.action <;> decide
  -- behind the last string there is no fence before the line ends
  have last : ∀ {u}, '\x7d' :: '\n' :: z = u ++ (fence ++ v) → ∃ u', z = u' ++ (fence ++ v) := by
    intro u h
    rcases fence_split (x := ['\x7d']) (by decide) h with ⟨v', hv, -⟩ | ⟨u', -, hz⟩
    · have hn : ¬ fence <:+: ['\x7d'] := fence_free (by decide)
      exact absurd ⟨u, v', by rw [hv, List.append_assoc]⟩ hn
    · exact ⟨u', hz⟩
  cases hd : d.responseDestination with
  | none =>
    have he := Holds.prompt hd
    rw [he.encode, List.append_assoc, List.cons_append, List.append_assoc] at h
    rcases string_split hx h with ⟨a, b, hs, rfl, rfl⟩ | ⟨u', -, hu⟩
    · exact .inl ⟨_, _, _, a, b, he, hs, rfl, by simp⟩
    · exact .inr (last hu)
  | some t =>
    have he := Holds.promptFirst hd
    rw [he.encode, List.append_assoc, List.cons_append, List.append_assoc] at h
    rcases string_split hx h with ⟨a, b, hs, rfl, rfl⟩ | ⟨u', rfl, hu⟩
    · exact .inl ⟨_, _, _, a, b, he, hs, rfl, by simp⟩
    · have hy : '\x60' ∉ ',' :: (Json.quote "response_destination" ++ [':']) := by decide
      have hu' : (',' :: (Json.quote "response_destination" ++ [':'])) ++
          '"' :: (Json.escape t.toList ++ '"' :: ('\x7d' :: '\n' :: z)) = u' ++ (fence ++ v) := by
        rw [← hu]
        simp [Json.quote]
      rcases string_split hy hu' with ⟨a, b, hs, rfl, rfl⟩ | ⟨w, -, hw⟩
      · refine .inl ⟨_, _, _, a, b, .destination hd, hs, ?_, by simp⟩
        simp [upTo, Json.leading, Json.quote, Json.print]
      · exact .inr (last hw)

theorem fence_infix_encode : fence <:+: (Json.encode d).toList ↔ QuotesFence d := by
  constructor
  · rintro ⟨u, v, h⟩
    have h : (Json.encode d).toList ++ '\n' :: [] = u ++ (fence ++ (v ++ ['\n'])) := by simp [← h]
    rcases encode_split h with ⟨pre, s, post, a, b, hd, hs, -⟩ | ⟨u', hu⟩
    · exact ⟨s, holds_iff.1 ⟨_, _, hd⟩, a, b, by rw [hs, List.append_assoc]⟩
    · simp [fence] at hu
  · rintro ⟨s, hs, a, b, hab⟩
    obtain ⟨pre, post, hd⟩ := holds_iff.2 hs
    refine ⟨pre ++ '"' :: Json.escape a, Json.escape b ++ '"' :: post, ?_⟩
    have hf : Json.escape fence = fence := rfl
    rw [hd.encode, ← hab, Json.escape_append, Json.escape_append, hf]
    simp

/-! ### What fences enclose -/

/-- What fences enclose stands between two of them. -/
theorem mem_enclosed {ps : List (List Char)} (h : Cut cs ps) :
    (p ∈ enclosed ps → ∃ u v, cs = u ++ (fence ++ (p ++ (fence ++ v))) ∧ LeadsTo p) ∧
    ∀ q, p ∈ enclosed (q :: ps) →
      ∃ u v, fence ++ cs = u ++ (fence ++ (p ++ (fence ++ v))) ∧ LeadsTo p := by
  induction h with
  | whole => exact ⟨nofun, fun _ => nofun⟩
  | @cut p₀ cs ps first rest ih =>
    obtain ⟨outside, inside⟩ := ih
    refine ⟨fun hp => ?_, fun q hp => ?_⟩
    · obtain ⟨u, v, hu, leads⟩ := inside p₀ hp
      exact ⟨p₀ ++ u, v, by rw [hu, List.append_assoc], leads⟩
    · rw [enclosed_cons rest, List.mem_cons] at hp
      rcases hp with rfl | hp
      · exact ⟨[], cs, rfl, first⟩
      · obtain ⟨u, v, rfl, leads⟩ := outside hp
        exact ⟨fence ++ (p₀ ++ (fence ++ u)), v, by simp, leads⟩

/-- A piece is what is left of it, with its label and blanks before it and something after it. -/
theorem exists_trim (p : List Char) :
    ∃ w w', p = w ++ (trimChars (unlabelled p) ++ w') ∧ '"' ∉ w ∧ '\\' ∉ w := by
  obtain ⟨l, hl, hq, hb⟩ : ∃ l, p = l ++ unlabelled p ∧ '"' ∉ l ∧ '\\' ∉ l := by
    by_cases hl : label <+: p
    · obtain ⟨q, rfl⟩ := hl
      exact ⟨label, by simp [unlabelled], by decide, by decide⟩
    · exact ⟨[], by simp [unlabelled, not_isPrefixOf hl], by simp, by simp⟩
  obtain ⟨w, w', hw, blank, -⟩ := Text.exists_blanks (unlabelled p)
  refine ⟨l ++ w, w', ?_, ?_, ?_⟩
  · rw [List.append_assoc, ← hw]
    exact hl
  · simp [hq, Text.not_mem_of_blanks blank (by decide : isBlank '"' = false)]
  · simp [hb, Text.not_mem_of_blanks blank (by decide : isBlank '\\' = false)]

/-- An object that asks for something has members. -/
theorem AsksFor.ne_nil {ms : List (String × Json)} (h : AsksFor ms d) : ms ≠ [] := by
  rintro rfl
  cases h.action

/-- The end of an object does not close a string. -/
theorem readText_of_end (h : y <+: ['\x7d', '\n']) : Json.readText y = none := by
  simp only [List.prefix_cons_iff, List.prefix_nil] at h
  rcases h with rfl | ⟨_, rfl, rfl | ⟨_, rfl, rfl⟩⟩ <;> rfl

/-- A comma is no name, as a letter comes after it where a colon has to be. -/
theorem skipSpace_ne_of_comma {k : Option String} {r r' : List Char}
    (h : y <+: ',' :: '"' :: 'r' :: x) (hk : Json.readText y = some (k, r)) :
    Json.skipSpace r ≠ ':' :: r' := by
  simp only [List.prefix_cons_iff] at h
  rcases h with rfl | ⟨_, rfl, rfl | ⟨_, rfl, rfl | ⟨_, rfl, -⟩⟩⟩ <;> cases hk <;> exact nofun

/-- What begins inside a string of a directive is no object with members. -/
theorem Holds.behind (h : Holds d pre s post) {b after : List Char} (first : LeadsTo p)
    (hp : p ++ (fence ++ v) = Json.escape b ++ '"' :: (post ++ '\n' :: (fence ++ after)))
    {ms : List (String × Json)}
    (object : Json.parse? (trimChars (unlabelled p)) = some (.object ms)) : ms = [] := by
  by_contra hne
  obtain ⟨g, y, k, r, r', hc, hq, hb, hk, hr⟩ := Json.object_begins object hne
  obtain ⟨w, w', hw, hwq, hwb⟩ := exists_trim p
  rw [hc] at hw
  have hquote : p = (w ++ g) ++ '"' :: (y ++ w') := by simp [hw]
  have htail : post ++ '\n' :: (fence ++ after) = (y ++ w') ++ (fence ++ v) := by
    refine Json.escape_quote (g := w ++ g) (hp.symm.trans ?_) (by simp [hwq, hq]) (by simp [hwb, hb])
    simp [hquote]
  have atEnd : post = ['\x7d'] → False := by
    rintro rfl
    have hline : LeadsTo ['\x7d', '\n'] :=
      LeadsTo.append (x := ['\x7d']) (fence_free (by decide)) (by decide) .nil
    have hy := ((first.suffix ⟨w ++ g ++ ['"'], by simp [hquote]⟩).unique hline htail.symm).1
    rw [readText_of_end ⟨w', hy⟩] at hk
    cases hk
  cases h with
  | prompt | destination => exact atEnd rfl
  | promptFirst =>
    rw [List.append_assoc] at htail
    exact skipSpace_ne_of_comma ⟨w' ++ (fence ++ v), htail.symm⟩ hk hr

/-- Up to a fence that a string quotes the block of a directive is no object. -/
theorem Holds.cutOff (h : Holds d pre s post) {a b : List Char} (hs : s.toList = a ++ (fence ++ b)) :
    Json.parse? (trimChars (unlabelled (label ++ '\n' :: (pre ++ '"' :: Json.escape a)))) =
      none := by
  have hq : isBlank '"' = false := by decide
  have hl : unlabelled (label ++ '\n' :: (pre ++ '"' :: Json.escape a)) =
      '\n' :: (pre ++ '"' :: Json.escape a) := by simp [unlabelled]
  have htrim : trimChars ('\n' :: (pre ++ '"' :: Json.escape a)) =
      pre ++ '"' :: trimRight (Json.escape a) := by
    obtain ⟨ms, ns, k, rfl, -⟩ := h.gives
    rw [← Text.trimRight_append_cons hq]
    rfl
  have hprefix : trimRight (Json.escape a) <+: Json.escape s.toList := by
    refine (Text.trimRight_prefix _).trans ?_
    rw [hs, Json.escape_append]
    exact List.prefix_append _ _
  have hopen := Json.readPieces_of_prefix hprefix
  obtain ⟨ms, ns, k, rfl, gives⟩ := h.gives
  rw [hl, htrim]
  simpa [upTo] using Json.parse?_unclosed gives k hopen

/-! ### The whole response -/

section

variable {before after : String}

/-- What stands behind the first fence of the response. -/
def blockOf (d : Directive) (after : List Char) : List Char :=
  label ++ '\n' :: ((Json.encode d).toList ++ '\n' :: (fence ++ '\n' :: after))

theorem toList_inFence : (inFence before d after).toList =
    before.toList ++ '\n' :: (fence ++ blockOf d after.toList) := by
  simp [inFence, blockOf, fence, label]

/-- With its fences in it a response is no JSON text, as a line of it begins with a backtick. -/
theorem inFence_not_json (before : String) (d : Directive) (after : String) :
    Json.parse? (trimChars (inFence before d after).toList) = none := by
  rw [Json.parse?, Option.bind_eq_none_iff]
  intro t ht
  have hclear := Json.clear_of_tree? ht
  obtain ⟨w, w', hw, blank, blank'⟩ := Text.exists_blanks (inFence before d after).toList
  have hb : isBlank '\x60' = false := by decide
  have htext := (hclear.append_right (Text.not_mem_of_blanks blank' hb)).append
    (Text.not_mem_of_blanks blank hb)
  rw [← hw, toList_inFence] at htext
  exact absurd htext (Json.Clear.not_lineBreak _)

/-- Every fence that has another one behind it opens the block or is quoted by a string. -/
theorem fence_places (hb : '\x60' ∉ before.toList) (ha : '\x60' ∉ after.toList)
    (h : (inFence before d after).toList = u ++ (fence ++ v)) (more : fence <:+: v) :
    v = blockOf d after.toList ∨ ∃ pre s post a b, Holds d pre s post ∧
      s.toList = a ++ (fence ++ b) ∧
      v = Json.escape b ++ '"' :: (post ++ '\n' :: (fence ++ '\n' :: after.toList)) := by
  rw [toList_inFence] at h
  rcases fence_split (by decide) h with ⟨v', hv, -⟩ | ⟨u', -, hu⟩
  · simp [hv, fence] at hb
  have hu : (fence ++ label) ++ '\n' :: ((Json.encode d).toList ++
      '\n' :: (fence ++ '\n' :: after.toList)) = u' ++ (fence ++ v) := by
    rw [← hu, blockOf, List.append_assoc]
  rcases fence_split (by decide) hu with ⟨v', hv, rfl⟩ | ⟨w, -, hw⟩
  · rw [fence_alone (by decide) hv]
    exact .inl rfl
  · rcases encode_split hw with ⟨pre, s, post, a, b, hd, hs, -, hv⟩ | ⟨w', hw'⟩
    · exact .inr ⟨pre, s, post, a, b, hd, hs, hv⟩
    · have hx : '\x60' ∉ '\n' :: after.toList := by simp [ha]
      rw [fence_alone hx hw'] at more
      exact absurd more (fence_free hx)

/-- A string that quotes a fence keeps every object with members out of the blocks. -/
theorem QuotesFence.enclosed (hd : QuotesFence d) (hb : '\x60' ∉ before.toList)
    (ha : '\x60' ∉ after.toList) {ps : List (List Char)}
    (hps : Cut (inFence before d after).toList ps) (hp : p ∈ Directive.enclosed ps)
    {ms : List (String × Json)}
    (object : Json.parse? (trimChars (unlabelled p)) = some (.object ms)) : ms = [] := by
  obtain ⟨u, v, hu, first⟩ := (mem_enclosed hps).1 hp
  have more : fence <:+: p ++ (fence ++ v) := ⟨p, v, List.append_assoc _ _ _⟩
  rcases fence_places hb ha hu more with hblock | ⟨pre, s, post, a, b, holds, hs, hv⟩
  · obtain ⟨e, rest, he, leads⟩ := exists_leadsTo (fence_infix_encode.2 hd)
    have hcut : p = label ++ '\n' :: e := by
      have hlabel : LeadsTo (label ++ '\n' :: e) :=
        .append (fence_free (by decide)) (by decide) leads
      have htext : p ++ (fence ++ v) = (label ++ '\n' :: e) ++
          (fence ++ (rest ++ '\n' :: (fence ++ '\n' :: after.toList))) := by
        simp [hblock, blockOf, he]
      exact (first.unique hlabel htext).1
    have hline : (Json.encode d).toList ++ '\n' :: [] = e ++ (fence ++ (rest ++ ['\n'])) := by
      simp [he]
    rcases encode_split hline with ⟨pre, s, post, a, b, holds, hs, rfl, -⟩ | ⟨u', hu'⟩
    · rw [hcut, holds.cutOff hs] at object
      cases object
    · simp [fence] at hu'
  · exact holds.behind first hv object

/-- In a block of its own a directive that quotes no fence is what the fences enclose. -/
theorem cut_inFence (hd : ¬ QuotesFence d) (hb : '\x60' ∉ before.toList)
    (ha : '\x60' ∉ after.toList) :
    Cut (inFence before d after).toList [before.toList ++ ['\n'],
      label ++ '\n' :: ((Json.encode d).toList ++ ['\n']), '\n' :: after.toList] := by
  have hfree : ¬ fence <:+: (Json.encode d).toList := mt fence_infix_encode.1 hd
  have first : LeadsTo (before.toList ++ ['\n']) := .append (fence_free hb) (by decide) .nil
  have second : LeadsTo (label ++ '\n' :: ((Json.encode d).toList ++ ['\n'])) :=
    .append (fence_free (by decide)) (by decide) (.append hfree (by decide) .nil)
  have hafter : '\x60' ∉ '\n' :: after.toList := by simp [ha]
  have htext : (inFence before d after).toList = (before.toList ++ ['\n']) ++ (fence ++
      ((label ++ '\n' :: ((Json.encode d).toList ++ ['\n'])) ++ (fence ++ '\n' :: after.toList))) := by
    simp [toList_inFence, blockOf]
  rw [htext]
  exact .cut first (.cut second (.whole (fence_free hafter)))

/-- What is asked for comes from an object among the candidates. -/
theorem FirstObject.exists_mem {ms : List (String × Json)} {cs : List (List Char)}
    (h : FirstObject ms cs) : ∃ c ∈ cs, Json.parse? c = some (.object ms) := by
  induction h with
  | here _ object => exact ⟨_, List.mem_cons_self, object⟩
  | later _ _ ih =>
    obtain ⟨c, hc, object⟩ := ih
    exact ⟨c, List.mem_cons_of_mem _ hc, object⟩

/-- A directive in a block is asked for exactly if none of its strings quotes a fence; otherwise the
response asks for nothing. -/
theorem asked_in_fence (d : Directive) (said : Text.isBlankText d.prompt = false)
    (hb : '\x60' ∉ before.toList) (ha : '\x60' ∉ after.toList) :
    (¬ QuotesFence d → ofResponse? (inFence before d after) = some d) ∧
      (QuotesFence d → ofResponse? (inFence before d after) = none) := by
  have hwhole : ∀ ms, Json.parse? (trimChars (inFence before d after).toList) ≠
      some (.object ms) := by
    intro ms
    rw [inFence_not_json]
    exact nofun
  refine ⟨fun hd => ?_, fun hd => ?_⟩
  · have hblock : trimChars (unlabelled (label ++ '\n' :: ((Json.encode d).toList ++ ['\n']))) =
        (Json.object d.members).print := by
      have hl : unlabelled (label ++ '\n' :: ((Json.encode d).toList ++ ['\n'])) =
          ['\n'] ++ ((Json.object d.members).print ++ ['\n']) := by
        simp [unlabelled, toList_encode]
      rw [hl]
      exact Json.trimChars_object (by decide) (by decide) d.members
    refine ofResponse?_of_first said ?_
    rw [candidates_of_cut (cut_inFence hd hb ha)]
    refine .later (.inr hwhole) ?_
    rw [enclosed, List.map_cons, hblock]
    exact firstObject_encoded d _
  · rw [Option.eq_none_iff_forall_ne_some]
    intro d' h
    obtain ⟨ms, asks, first⟩ := ofResponse?_iff_candidates.1 h
    obtain ⟨ps, hps⟩ := exists_cut (inFence before d after).toList
    rw [candidates_of_cut hps] at first
    obtain ⟨c, hc, object⟩ := first.exists_mem
    rcases List.mem_cons.1 hc with rfl | hc
    · exact hwhole ms object
    · obtain ⟨p, hp, rfl⟩ := List.mem_map.1 hc
      exact asks.ne_nil (hd.enclosed hb ha hps hp object)

/-- A prompt with backticks, quotes and a brace, and one that quotes a block. -/
theorem asked_in_fence_quoting :
    let d : Directive := ⟨.delegate, "run ``ls`` \"\x7b\\", some "paste"⟩
    let q : Directive := ⟨.callSelf, "explain ```json\n\x7b\x7d\n```", some "```"⟩
    let before := "Let us do this:"
    let after := "Done."
    Text.isBlankText d.prompt = false ∧ Text.isBlankText q.prompt = false ∧
      '\x60' ∉ before.toList ∧ '\x60' ∉ after.toList ∧
      (¬ QuotesFence d ∧ ofResponse? (inFence before d after) = some d) ∧
      QuotesFence q ∧ ofResponse? (inFence before q after) = none := by
  intro d q before after
  have hd : Text.isBlankText d.prompt = false := by decide
  have hq : Text.isBlankText q.prompt = false := by decide
  have hb : '\x60' ∉ before.toList := by decide
  have ha : '\x60' ∉ after.toList := by decide
  have free : ¬ QuotesFence d := by
    rintro ⟨s, rfl | hs, hf⟩
    · revert hf
      decide
    · obtain rfl : "paste" = s := Option.some.inj hs
      revert hf
      decide
  have quotes : QuotesFence q := ⟨_, .inl rfl, by decide⟩
  exact ⟨hd, hq, hb, ha, ⟨free, (asked_in_fence d hd hb ha).1 free⟩, quotes,
    (asked_in_fence q hq hb ha).2 quotes⟩

/-- A directive with a prompt that shows a fence is not asked for from a block, while it is asked for
from its text alone. -/
theorem not_asked_in_fence :
    let d : Directive := ⟨.delegate, "```", none⟩
    Text.isBlankText d.prompt = false ∧ ofResponse? (inFence "" d "") ≠ some d ∧
      ofResponse? (Json.encode d) = some d := by
  decide +kernel

end

end PromptDesk.Directive
