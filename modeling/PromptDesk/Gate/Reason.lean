import PromptDesk.Failure
import PromptDesk.Text.Blank

/-! Why an attempt was refused: a code for programs and a notice for the user. -/
namespace PromptDesk

inductive DropReason where
  /-- Another request holds the slot. -/
  | inFlight
  /-- Any other code, kept as it is. -/
  | other (code : String)
  deriving DecidableEq, Inhabited, Repr

namespace DropReason

def code : DropReason → String
  | inFlight => "in_flight"
  | other code => code

/-- The notice that the user sees. -/
def message : DropReason → String
  | inFlight => "A request is already running; wait for it to finish or cancel it first."
  | other code =>
    let code := Text.trim code
    "Request blocked; reason=" ++ (if code.isEmpty then "unknown" else code) ++ "."

/-- The reason that a code stands for, blanks around it aside. -/
def ofCode (code : String) : DropReason :=
  let code := Text.trim code
  if code == "in_flight" then inFlight else other code

/-- The slot's own reason stands first, the others by their codes. -/
def isBefore : DropReason → DropReason → Bool
  | inFlight, _ => true
  | other _, inFlight => false
  | other a, other b => decide (a ≤ b)

/-- Distinct reasons in order. -/
def sorted (reasons : List DropReason) : List DropReason :=
  dedup (reasons.mergeSort isBefore)
where
  dedup : List DropReason → List DropReason
    | [] => []
    | r :: rs => if rs.head? = some r then dedup rs else r :: dedup rs

end DropReason

/-- The last refusal, kept for the user to read. -/
structure DropRecord where
  reason : DropReason
  message : String
  source : String
  deriving DecidableEq, Inhabited, Repr

/-- Whether an attempt may start; a claim also names the request that took the slot. -/
inductive Admission where
  | allowed (requestId : Option String)
  | rejected (reason : DropReason) (message : String)
  deriving DecidableEq, Inhabited, Repr

namespace Admission

def isAllowed : Admission → Bool
  | allowed _ => true
  | rejected _ _ => false

def reason? : Admission → Option DropReason
  | allowed _ => none
  | rejected reason _ => some reason

/-- Whether it is allowed, and the code of the reason or nothing. -/
def pair (a : Admission) : Bool × String :=
  (a.isAllowed, (a.reason?.map DropReason.code).getD "")

def result : Admission → Except Failure (Option String)
  | allowed id => .ok id
  | rejected reason message => .error (.rejected reason.code message)

end Admission

end PromptDesk
