import PromptDesk.Json.Published
import PromptDesk.Proofs.Keyed
import PromptDesk.Proofs.Json.Reading

/-! Encoding without loss. A value is encoded without loss if the text that it is published as is
decoded as that value again. Texts, words and names are, and whatever is put together of such values
in lists, pairs, maps and records. -/
namespace PromptDesk

namespace Json

variable {α β : Type}

/-- The text that a value is published as gives a tree from which the value is decoded. -/
def Lossless [Published α] (a : α) : Prop := ∃ t, (toJson a).Gives t ∧ ofTree? t = some a

theorem Lossless.decode?_encode [Published α] {a : α} (h : Lossless a) :
    decode? (encode a) = some a := by
  obtain ⟨t, hg, ht⟩ := h
  rw [decode?, encode, hg.tree?]
  exact ht

theorem lossless_string (s : String) : Lossless s := ⟨.text (some s), gives_text s, rfl⟩

theorem value?_plain (w : UInt64) : (plain w.toNat).value? = some (.natural w) := by
  have h : w.toNat < UInt64.size := w.toNat_lt
  simp [Numeral.value?, plain, Text.digitsValue_decimal, h]

theorem lossless_word (w : UInt64) : Lossless w := by
  refine ⟨.number (plain w.toNat), gives_natural w, ?_⟩
  show Tree.word? _ = _
  rw [Tree.word?, value?_plain]

/-- Alternatives are told apart by their names. -/
theorem lossless_named [Named α] (h : ∀ a : α, ofName? (name a) = some a) (a : α) : Lossless a :=
  ⟨.text (some (name a)), gives_text _, h a⟩

theorem lossless_timestamp {t : Timestamp} (h : Timestamp.parse? t.text = some t) : Lossless t :=
  ⟨.text (some t.text), gives_text _, h⟩

/-- Nothing is written as null, which is no value of the type itself. -/
theorem lossless_option [Published α] (hnull : (ofTree? Tree.null : Option α) = none) {o : Option α}
    (h : ∀ a ∈ o, Lossless a) : Lossless o := by
  cases o with
  | none => exact ⟨.null, gives_null, rfl⟩
  | some a =>
    obtain ⟨t, hg, ht⟩ := h a rfl
    refine ⟨t, hg, ?_⟩
    cases t with
    | null => rw [hnull] at ht; cases ht
    | _ => exact congrArg (Option.map some) ht

theorem lossless_list [Published α] {as : List α} (h : ∀ a ∈ as, Lossless a) : Lossless as := by
  have hts : ∃ ts, List.Forall₂ Gives (as.map toJson) ts ∧ Tree.list? ts = some as := by
    induction as with
    | nil => exact ⟨[], .nil, rfl⟩
    | cons a as ih =>
      obtain ⟨ts, hgs, hts⟩ := ih fun b hb => h b (List.mem_cons_of_mem _ hb)
      obtain ⟨t, hg, ht⟩ := h a List.mem_cons_self
      exact ⟨t :: ts, .cons hg hgs, by rw [Tree.list?, ht, hts]⟩
  obtain ⟨ts, hgs, hts⟩ := hts
  exact ⟨.array ts, gives_array hgs, hts⟩

theorem lossless_pair [Published α] [Published β] {a : α} {b : β} (ha : Lossless a)
    (hb : Lossless b) : Lossless (a, b) := by
  obtain ⟨s, hga, hs⟩ := ha
  obtain ⟨t, hgb, ht⟩ := hb
  refine ⟨.array [s, t], gives_array (.cons hga (.cons hgb .nil)), ?_⟩
  simp only [ofTree?, hs, ht]

theorem lossless_keyed [Published α] {m : Keyed α} (h : ∀ e ∈ m.entries, Lossless e.2) :
    Lossless m := by
  have hts : ∀ es : List (String × α), (∀ e ∈ es, Lossless e.2) →
      ∃ ns, GivesMembers (es.map fun e => (e.1, toJson e.2)) ns ∧ Tree.entries? ns = some es := by
    intro es hes
    induction es with
    | nil => exact ⟨[], .nil, rfl⟩
    | cons e es ih =>
      obtain ⟨ns, hgs, hns⟩ := ih fun f hf => hes f (List.mem_cons_of_mem _ hf)
      obtain ⟨t, hg, ht⟩ := hes e List.mem_cons_self
      exact ⟨(some e.1, t) :: ns, .cons ⟨rfl, hg⟩ hgs, by simp [Tree.entries?, ht, hns]⟩
  obtain ⟨ns, hgs, hns⟩ := hts m.entries h
  refine ⟨.object ns, gives_object hgs, ?_⟩
  show (Tree.entries? ns).map Keyed.ofList = _
  rw [hns, Option.map_some, Keyed.ofList_entries]

theorem lossless_counts (m : Counts) : Lossless m := lossless_keyed fun e _ => lossless_word e.2

theorem lossless_texts (ss : List String) : Lossless ss := lossless_list fun s _ => lossless_string s

/-! ### Records -/

/-- The members of an object as they are written, each name with its content. -/
abbrev written (fs : List (String × Tree)) : List (Option String × Tree) :=
  fs.map fun f => (some f.1, f.2)

/-- The members under known names, if those differ, are the fields of a record. -/
theorem knownMembers?_written {names : List String} {fs : List (String × Tree)}
    (hn : ((fs.filter fun f => names.contains f.1).map (·.1)).Nodup) :
    knownMembers? names (written fs) = some (fs.filter fun f => names.contains f.1) := by
  induction fs with
  | nil => rfl
  | cons f fs ih =>
    cases hf : names.contains f.1 with
    | false =>
      simp only [List.filter_cons, hf, Bool.false_eq_true, if_false] at hn ⊢
      simp [knownMembers?, ih hn, hf, -List.contains_eq_mem]
    | true =>
      simp only [List.filter_cons, hf, if_true, List.map_cons, List.nodup_cons] at hn ⊢
      have hany : ((fs.filter fun g => names.contains g.1).any fun g => g.1 == f.1) = false := by
        rw [List.any_eq_false]
        intro g hg he
        exact hn.1 (List.mem_map.2 ⟨g, hg, beq_iff_eq.1 he⟩)
      simp [knownMembers?, ih hn.2, hf, hany, -List.contains_eq_mem]

section Others

variable {names : List String} {fs gs : List (String × Tree)}
  (hin : ∀ f ∈ fs, names.contains f.1 = true) (hout : ∀ g ∈ gs, names.contains g.1 = false)
include hin hout

theorem knownMembers?_append (hn : (fs.map (·.1)).Nodup) :
    knownMembers? names (written (fs ++ gs)) = some fs := by
  have hall : fs.filter (fun f => names.contains f.1) = fs := List.filter_eq_self.2 hin
  have hnone : gs.filter (fun g => names.contains g.1) = [] := by
    rw [List.filter_eq_nil_iff]
    intro g hg
    rw [hout g hg]
    exact Bool.false_ne_true
  have hfs : (fs ++ gs).filter (fun f => names.contains f.1) = fs := by
    rw [List.filter_append, hall, hnone, List.append_nil]
  rw [knownMembers?_written (by rwa [hfs]), hfs]

/-- What is left are the members under other names. -/
theorem filter_others_append :
    ((written (fs ++ gs)).filter fun m => !(m.1.any names.contains)) = written gs := by
  have hnone : (written fs).filter (fun m => !(m.1.any names.contains)) = [] := by
    rw [List.filter_eq_nil_iff]
    intro m hm
    obtain ⟨f, hf, rfl⟩ := List.mem_map.1 hm
    simp only [Option.any_some, hin f hf, Bool.not_true, Bool.false_eq_true, not_false_iff]
  have hall : (written gs).filter (fun m => !(m.1.any names.contains)) = written gs := by
    rw [List.filter_eq_self]
    intro m hm
    obtain ⟨g, hg, rfl⟩ := List.mem_map.1 hm
    simp only [Option.any_some, hout g hg, Bool.not_false]
  rw [written, List.map_append, List.filter_append, hnone, hall, List.nil_append]

end Others

/-- Trees of the members of an object, under the names of the members. -/
def fieldsOf (ms : List (String × Json)) (ts : List Tree) : List (String × Tree) :=
  (ms.map (·.1)).zip ts

/-- Each member gives its tree. -/
abbrev GivesEach : List (String × Json) → List Tree → Prop := List.Forall₂ fun m t => Gives m.2 t

variable {ms : List (String × Json)} {ts : List Tree}

theorem GivesEach.append {ms' : List (String × Json)} {ts' : List Tree} (h : GivesEach ms ts)
    (h' : GivesEach ms' ts') : GivesEach (ms ++ ms') (ts ++ ts') := by
  induction h with
  | nil => exact h'
  | cons hm _ ih => exact .cons hm ih

theorem GivesEach.written (h : GivesEach ms ts) : GivesMembers ms (written (fieldsOf ms ts)) := by
  induction h with
  | nil => exact .nil
  | cons hm _ ih => exact .cons ⟨rfl, hm⟩ ih

theorem GivesEach.map_fst_fieldsOf (h : GivesEach ms ts) :
    (fieldsOf ms ts).map (·.1) = ms.map (·.1) :=
  List.map_fst_zip (by simp [h.length_eq])

/-- A record is encoded without loss if its members have known names that differ, and what its
members give is read as the record. -/
theorem lossless_record [Published α] {names : List String} {read : Record → Option α} {a : α}
    (hof : ∀ t, ofTree? t = (t.record? names).bind read) (hto : toJson a = .object ms)
    (hgives : GivesEach ms ts) (hknown : ∀ k ∈ ms.map (·.1), k ∈ names)
    (hdistinct : (ms.map (·.1)).Nodup) (hread : read ⟨fieldsOf ms ts, false⟩ = some a) :
    Lossless a := by
  have hin : ∀ f ∈ fieldsOf ms ts, names.contains f.1 = true := by
    intro f hf
    rw [List.contains_iff_mem]
    exact hknown _ (hgives.map_fst_fieldsOf ▸ List.mem_map_of_mem hf)
  have hk : knownMembers? names (Json.written (fieldsOf ms ts)) = some (fieldsOf ms ts) := by
    have h := knownMembers?_append hin (List.forall_mem_nil _) (by rwa [hgives.map_fst_fieldsOf])
    rwa [List.append_nil] at h
  refine ⟨.object _, hto ▸ gives_object hgives.written, ?_⟩
  rw [hof, Tree.record?, hk]
  exact hread

/-! ### What is kept as it is -/

/-- Reading the text of a value and taking the meaning of what was read gives the value back. -/
def Kept (j : Json) : Prop := ∃ t, Gives j t ∧ ∀ depth, t.value? (depth + 1) = some j

theorem kept_text (s : String) : Kept (.text s) := ⟨.text (some s), gives_text s, fun _ => rfl⟩

theorem kept_bool (b : Bool) : Kept (.bool b) := ⟨.bool b, gives_bool b, fun _ => rfl⟩

theorem kept_texts (ss : List String) : Kept (toJson ss) := by
  have hts : ∃ ts, List.Forall₂ Gives (ss.map toJson) ts ∧
      ∀ depth, Tree.values? ts depth = some (ss.map toJson) := by
    induction ss with
    | nil => exact ⟨[], .nil, fun _ => rfl⟩
    | cons s ss ih =>
      obtain ⟨ts, hgs, hvs⟩ := ih
      refine ⟨.text (some s) :: ts, .cons (gives_text s) hgs, fun depth => ?_⟩
      rw [Tree.values?, hvs, Tree.value?]
      rfl
  obtain ⟨ts, hgs, hvs⟩ := hts
  refine ⟨.array ts, gives_array hgs, fun depth => ?_⟩
  rw [Tree.value?, hvs]
  rfl

theorem kept_members (h : ∀ m ∈ ms, Kept m.2) :
    ∃ ts, GivesEach ms ts ∧
      ∀ depth, Tree.members? (written (fieldsOf ms ts)) (depth + 1) = some ms := by
  induction ms with
  | nil => exact ⟨[], .nil, fun _ => rfl⟩
  | cons m ms ih =>
    obtain ⟨ts, hgs, hvs⟩ := ih fun n hn => h n (List.mem_cons_of_mem _ hn)
    obtain ⟨t, hg, hv⟩ := h m List.mem_cons_self
    refine ⟨t :: ts, .cons hg hgs, fun depth => ?_⟩
    show Tree.members? ((some m.1, t) :: written (fieldsOf ms ts)) (depth + 1) = _
    simp [Tree.members?, hv, hvs]

end Json

end PromptDesk
