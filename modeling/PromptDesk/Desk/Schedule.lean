import PromptDesk.Desk.Turn

/-! Who has the next turn. Jobs have their turns in the order in which they were roused. The clock
stands still while any job can go on, and then it jumps to the next time that somebody waits for;
everybody who waits for that time is roused before anybody has a turn. -/
namespace PromptDesk.Desk

/-- A bound on turns that no work reaches. -/
def turnLimit : Nat := Nat.pow 2 40

/-- Lets jobs have their turns until all of them wait. -/
def drain : Nat → Desk → Desk
  | 0, d => d
  | fuel + 1, d =>
    match d.queue with
    | [] => d
    | i :: rest => drain fuel (turnOfJob { d with queue := rest } i)

/-- All jobs wait, and the clock has not moved. -/
def settleDown (d : Desk) : Desk := d.drain turnLimit

/-- The times in the future that somebody waits for. -/
def dueTimes (d : Desk) (interests : List Interest) : List Nat :=
  (interests ++ d.waits.map Wait.interest).filterMap fun
    | .clock due => if d.clock < due then some due else none
    | _ => none

/-- Moves the clock to the next time that somebody waits for. -/
def tick? (d : Desk) (interests : List Interest) : Option Desk :=
  (d.dueTimes interests).min?.map fun t => rouse { d with clock := t }

/-- Lets jobs and clock go on until one of some interests is met. -/
def waitFor (interests : List Interest) : Nat → Desk → Option Desk
  | 0, _ => none
  | fuel + 1, d =>
    if interests.any d.isMet then some d
    else match d.queue with
      | _ :: _ => waitFor interests fuel d.settleDown
      | [] => (d.tick? interests).bind (waitFor interests fuel)

/-- Does a task in the foreground to its end; nothing if it never ends. -/
def finishTask : Nat → Task → Desk → Desk × Option Ending
  | 0, _, d => (d, none)
  | fuel + 1, task, d =>
    match d.turn task with
    | (d, .ended e) => (d, some e)
    | (d, .waiting task) =>
      match waitFor task.interests turnLimit d.settleDown with
      | some d => finishTask fuel task d
      | none => (d, none)

end PromptDesk.Desk
