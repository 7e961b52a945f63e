import PromptDesk.Proofs.Desk.Lobby

/-! Submissions that end with an error. The slot that was claimed for a submission is given back in
that case. The slot that it claims once more to follow a directive is not: whoever fails there leaves
it behind. -/
namespace PromptDesk

/-- What is left of a task after some turns, at whatever desks it had them. -/
abbrev Task.Leaves : Task → Task → Prop :=
  Relation.ReflTransGen fun t t' => ∃ d d' : Desk, d.turn t = (d', .waiting t')

namespace Request

/-- The task of a request that took the slot under an id. -/
def submitted (q : Request) (r : String) (delegates : Bool) : Task :=
  .request (q.claimed (some r)) (if delegates then .delegate (q.claimed (some r)) true else .conclude)

end Request

/-- An execution that waits has one of some sequels, and there are reasons to fail. -/
def Turn.Within (sequels : Sequel → Prop) (fails : Failure → Prop) : Turn → Prop
  | .waiting (.execution _ sequel) => sequels sequel
  | .waiting _ => False
  | .ended (.failure f) => fails f
  | .ended _ => True

theorem Turn.Within.imp {sequels sequels' : Sequel → Prop} {fails fails' : Failure → Prop} {t : Turn}
    (h : t.Within sequels fails) (hs : ∀ s, sequels s → sequels' s) (hf : ∀ f, fails f → fails' f) :
    t.Within sequels' fails' := by
  cases t with
  | waiting t =>
    cases t with
    | execution e sequel => exact hs sequel h
    | _ => exact h.elim
  | ended e =>
    cases e with
    | failure f => exact hf f h
    | success p | panic message => trivial

namespace Desk

variable {d d' : Desk} {q : Request} {r : String}

end Desk

namespace Request

variable {q : Request} {r : String} {f : Failure} {ended : Desk}

end Request

end PromptDesk
