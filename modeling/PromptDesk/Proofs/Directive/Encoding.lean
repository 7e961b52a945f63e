import PromptDesk.Proofs.Directive.Blocks
import PromptDesk.Proofs.Json.Lossless

/-! What is encoded as a directive asks for that directive. The text of an object is read as the
object with its members in order, however its strings are written, and blanks around it do not
count. -/
namespace PromptDesk

namespace Json

open Text (trimChars isBlank)

/-- The text of an object whose members are kept is read as that object. -/
theorem parse?_object {ms : List (String × Json)} (kept : ∀ m ∈ ms, Kept m.2) :
    parse? (Json.object ms).print = some (.object (Keyed.ofList ms).entries) := by
  obtain ⟨ts, gives, values⟩ := kept_members kept
  have ht := (gives_object gives.written).tree?
  rw [render, String.toList_ofList] at ht
  rw [parse?, ht, Option.bind_some, show depthLimit = (125 + 1) + 1 from rfl, Tree.value?, values]
  rfl

/-- An object is all that is left when the blanks around it are dropped. -/
theorem trimChars_object {w₁ w₂ : List Char} (h₁ : w₁.all isBlank = true)
    (h₂ : w₂.all isBlank = true) (ms : List (String × Json)) :
    trimChars (w₁ ++ ((Json.object ms).print ++ w₂)) = (Json.object ms).print := by
  have hopen : isBlank '\x7b' = false := by decide
  have hclose : isBlank '\x7d' = false := by decide
  rw [trimChars, Text.trimLeft_append h₁, print, List.cons_append, Text.trimLeft_cons hopen,
    ← List.cons_append, Text.trimRight_append h₂, ← List.cons_append,
    Text.trimRight_append_cons hclose]
  rfl

end Json

namespace Directive

/-- The members of the object that a directive is encoded as. -/
def members (d : Directive) : List (String × Json) :=
  [("action", toJson d.action), ("prompt", .text d.prompt)] ++
    (d.responseDestination.map fun s => ("response_destination", Json.text s)).toList

variable {d : Directive}

theorem toList_encode (d : Directive) : (Json.encode d).toList = (Json.object d.members).print := by
  obtain ⟨action, prompt, destination⟩ := d
  rw [Json.encode, Json.render, String.toList_ofList]
  cases destination <;> rfl

theorem kept_members (d : Directive) : ∀ m ∈ d.members, Json.Kept m.2 := by
  intro m hm
  simp only [members, List.cons_append, List.nil_append, List.mem_cons, Option.mem_toList,
    Option.map_eq_some_iff] at hm
  rcases hm with rfl | rfl | ⟨s, _, rfl⟩
  · exact Json.kept_text _
  · exact Json.kept_text _
  · exact Json.kept_text _

theorem sorted_members (d : Directive) : d.members.Pairwise fun a b => a.1 < b.1 := by
  have h₁ : "action" < "prompt" := String.lt_iff_toList_lt.2 (by decide)
  have h₂ : "prompt" < "response_destination" := String.lt_iff_toList_lt.2 (by decide)
  obtain ⟨action, prompt, destination⟩ := d
  cases destination <;> simp [members, h₁, h₂, h₁.trans h₂, -String.lt_iff_ltb]

/-- The object that a directive is encoded as asks for that directive. -/
theorem asksFor_members (said : Text.isBlankText d.prompt = false) :
    AsksFor (Keyed.ofList d.members).entries d where
  action := by
    rw [← Keyed.find?, Keyed.find?_ofList d.sorted_members]
    rfl
  prompt := by
    rw [← Keyed.find?, Keyed.find?_ofList d.sorted_members]
    rfl
  said := isBlankText_eq_false_iff.1 said
  destination s := by
    rw [← Keyed.find?, Keyed.find?_ofList d.sorted_members]
    cases h : d.responseDestination <;> simp [members, h, Keyed.lookup_entry]

/-- The text of a directive is an object. -/
theorem firstObject_encoded (d : Directive) (cs : List (List Char)) :
    FirstObject (Keyed.ofList d.members).entries ((Json.object d.members).print :: cs) :=
  .here (by simp [Json.print]) (Json.parse?_object d.kept_members)

/-- If it is the first object of a response, that response asks for the directive. -/
theorem ofResponse?_of_first {text : String} (said : Text.isBlankText d.prompt = false)
    (first : FirstObject (Keyed.ofList d.members).entries (candidates text)) :
    ofResponse? text = some d :=
  ofResponse?_iff_candidates.2 ⟨_, asksFor_members said, first⟩

/-- Whatever a directive says, its text asks for it, with blanks before and after it or without. -/
theorem asked_of_encoded (d : Directive) (said : Text.isBlankText d.prompt = false)
    {w₁ w₂ : String} (h₁ : Text.isBlankText w₁ = true) (h₂ : Text.isBlankText w₂ = true) :
    ofResponse? (w₁ ++ Json.encode d ++ w₂) = some d := by
  have htrim : Text.trimChars (w₁ ++ Json.encode d ++ w₂).toList = (Json.object d.members).print := by
    rw [String.toList_append, String.toList_append, toList_encode, List.append_assoc]
    exact Json.trimChars_object h₁ h₂ d.members
  refine ofResponse?_of_first said ?_
  rw [candidates, htrim]
  exact firstObject_encoded d _

/-- A prompt with quotes, a backslash, a control character and a fence. -/
theorem asked_of_encoded_fence :
    let d : Directive := ⟨.callSelf, "\"a\"\\\x01\n```json\n😀", some "```"⟩
    Text.isBlankText d.prompt = false ∧ Text.isBlankText "\n\t " = true ∧
      Text.isBlankText "\u2003" = true ∧
      ofResponse? ("\n\t " ++ Json.encode d ++ "\u2003") = some d := by
  intro d
  have said : Text.isBlankText d.prompt = false := by decide
  have h₁ : Text.isBlankText "\n\t " = true := by decide
  have h₂ : Text.isBlankText "\u2003" = true := by decide
  exact ⟨said, h₁, h₂, asked_of_encoded d said h₁ h₂⟩

end Directive

end PromptDesk
