/-! Closed lists of alternatives that are written by name. -/
namespace PromptDesk

/-- Every alternative once, each with the name that it is written by. -/
class Named (α : Type) where
  all : List α
  name : α → String

export Named (name)

/-- The alternative with this very name. -/
def ofName? {α : Type} [Named α] (s : String) : Option α := Named.all.find? fun a => name a == s

/-- If each alternative is found by its name, it is found by no other. -/
theorem ofName?_iff {α : Type} [Named α] (h : ∀ a : α, ofName? (name a) = some a) {s : String}
    {a : α} : ofName? s = some a ↔ s = name a := by
  refine ⟨fun hs => ?_, fun hs => hs ▸ h a⟩
  have hname := List.find?_some hs
  exact (beq_iff_eq.1 hname).symm

end PromptDesk
