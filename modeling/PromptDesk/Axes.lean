import PromptDesk.Failure
import PromptDesk.Text.Blank

/-! Axes of a request: tokens by axis. A catalog knows which axes and tokens there are, and only
what it knows is kept. -/
namespace PromptDesk

/-- Tokens by axis, in the order in which they were asked for. -/
abbrev Axes := Keyed (List String)

/-- The known tokens by axis; a catalog may be out of reach. -/
abbrev Catalog := Except Failure (Keyed (List String))

namespace Axes

/-- The trimmed tokens that are known, each at its first place. -/
def knownTokens (known : List String) (tokens : List String) : List String :=
  tokens.foldl (fun kept t =>
    let t := Text.trim t
    if known.contains t && !kept.contains t then kept ++ [t] else kept) []

/-- Keeps known axes with their known tokens. An axis without a known token is dropped, and so is
everything when the catalog is out of reach. -/
def filter (requested : Axes) : Catalog → Axes
  | .error _ => ∅
  | .ok known =>
    let kept := requested.entries.filterMap fun e =>
      match known.find? e.1 with
      | none => none
      | some allowed =>
        let tokens := knownTokens allowed e.2
        if tokens.isEmpty then none else some (e.1, tokens)
    Keyed.ofList kept

end Axes

end PromptDesk
