import PromptDesk.Proofs.Board.Alike
import PromptDesk.Proofs.Desk.Superseded

/-! Desks that are alike. They differ at most in how responses arrive, in what was seen of them before
and in the order in which work gets its turn. Whatever is done at both of them, they stay alike. -/
namespace PromptDesk

/-- The same state of the slot, whatever was published before. -/
structure Slot.Alike (s t : Slot) : Prop where
  state : t.state = s.state
  issued : t.issued = s.issued
  tokens : t.tokens = s.tokens
  armed : t.armed = s.armed
  closed : t.closed = s.closed

namespace Slot.Alike

variable {s t : Slot}

theorem refl (s : Slot) : Alike s s := ⟨rfl, rfl, rfl, rfl, rfl⟩

theorem isTripped (h : Alike s t) (k : Nat) : t.isTripped k = s.isTripped k := by
  rw [Slot.isTripped, Slot.isTripped, h.tokens]

theorem tokenFor? (h : Alike s t) (id : String) : t.tokenFor? id = s.tokenFor? id := by
  rw [Slot.tokenFor?, Slot.tokenFor?, h.state, h.isTripped, h.armed]

theorem read (h : Alike s t) : t.read = s.read := by
  rw [Slot.read, Slot.read, h.closed, h.state]

theorem apply (h : Alike s t) (e : PhaseEvent) : Alike (s.apply e) (t.apply e) :=
  { h with state := congrArg (PhaseState.next · e) h.state }

theorem applyFor? (h : Alike s t) (id : String) (allowed : PhaseState → Bool) (e : PhaseEvent) :
    Option.Rel Alike (s.applyFor? id allowed e) (t.applyFor? id allowed e) := by
  rw [Slot.applyFor?, Slot.applyFor?, h.state]
  split
  · exact .some (h.apply e)
  · exact .none

theorem issue (h : Alike s t) : Alike s.issue.1 t.issue.1 ∧ t.issue.2 = s.issue.2 :=
  ⟨{ h with issued := congrArg (· + 1) h.issued }, congrArg (fun n => idText (n + 1)) h.issued⟩

theorem issueUnless (h : Alike s t) (id : Option String) :
    Alike (s.issueUnless id).1 (t.issueUnless id).1 ∧
      (t.issueUnless id).2 = (s.issueUnless id).2 := by
  cases id with
  | none => exact h.issue
  | some id => exact ⟨h, rfl⟩

theorem arm (h : Alike s t) : Alike s.arm t.arm :=
  { h with tokens := congrArg (· ++ [false]) h.tokens, armed := congrArg List.length h.tokens }

theorem trip (h : Alike s t) (k : Nat) : Alike (s.trip k) (t.trip k) :=
  { h with tokens := congrArg (·.set k true) h.tokens }

theorem beginSend (h : Alike s t) (id : Option String) :
    Alike (s.beginSend id).1 (t.beginSend id).1 ∧ (t.beginSend id).2 = (s.beginSend id).2 := by
  obtain ⟨hs, hid⟩ := h.issueUnless id
  refine ⟨?_, hid⟩
  rw [Slot.beginSend, Slot.beginSend]
  dsimp only
  rw [hid]
  exact hs.arm.apply _

theorem beginStream (h : Alike s t) (id : Option String) :
    Alike (s.beginStream id).1 (t.beginStream id).1 ∧
      (t.beginStream id).2 = (s.beginStream id).2 := by
  obtain ⟨hs, hid⟩ := h.issueUnless (id <|> s.state.requestId)
  simp only [Slot.beginStream, h.state, hid]
  exact ⟨hs.apply _, trivial⟩

theorem cancel (h : Alike s t) : Alike s.cancel t.cancel := by
  rw [Slot.cancel, Slot.cancel, h.armed]
  exact (h.apply .cancel).trip _

theorem cancelFor? (h : Alike s t) (id : String) :
    Option.Rel Alike (s.cancelFor? id) (t.cancelFor? id) := by
  have ha := h.applyFor? id PhaseState.isInFlight .cancel
  rw [Slot.cancelFor?, Slot.cancelFor?]
  generalize s.applyFor? id _ _ = u at ha
  generalize t.applyFor? id _ _ = v at ha
  cases ha with
  | none => exact .none
  | @some u v hu =>
    refine .some ?_
    change Alike (u.trip u.armed) (v.trip v.armed)
    rw [hu.armed]
    exact hu.trip _

theorem enter (h : Alike s t) (id : Option String) :
    Alike (s.enter id).1 (t.enter id).1 ∧ (t.enter id).2 = (s.enter id).2 := by
  cases id with
  | none =>
    obtain ⟨hs, hid⟩ := h.beginSend none
    exact ⟨hs, congrArg Except.ok hid⟩
  | some id =>
    rw [Slot.enter, Slot.enter, h.state]
    split
    · exact ⟨h, rfl⟩
    · split
      · exact ⟨h, rfl⟩
      · exact ⟨(h.beginSend (some id)).1, congrArg Except.ok (h.beginSend (some id)).2⟩

end Slot.Alike

/-- The setup under which responses arrive chunk by chunk, or whole. -/
def Setup.streamed (s : Setup) (on : Bool) : Setup :=
  { s with settings := { s.settings with streaming := on } }

/-- The same is kept for later commands; watches are for looking only. -/
structure Names.Alike (n m : Names) : Prop where
  tokens : m.tokens = n.tokens
  handles : m.handles = n.handles
  attempts : m.attempts = n.attempts
  drafts : m.drafts = n.drafts

namespace Desk

/-- Takes over a slot that was cancelled; the current attempt takes note if it is for its request. -/
def noteCancelled (d : Desk) (s : Slot) (source : String) : Desk × Bool :=
  let d := d.withSlot s
  match d.board.current with
  | some i =>
    if s.state.isFor (d.board.attempt i).requestId then
      (d.withBoard (d.board.cancelRequested i s.state source d.now).1, true)
    else (d, true)
  | none => (d, true)

/-- Desks that nobody can tell apart who does not look at logs and watches, although the first one
takes responses chunk by chunk, and the second one whole. Both have the same answers to come. -/
structure Alike (rs : List Reply) (d e : Desk) : Prop where
  streams : d.setup.settings.streaming = true
  setup : e.setup = d.setup.streamed false
  slot : d.slot.Alike e.slot
  gate : e.gate = d.gate
  observed : e.observed = d.observed
  board : d.board.Alike e.board
  conversation : e.conversation = d.conversation
  expected : d.replies = rs
  replies : e.replies = rs
  clock : e.clock = d.clock
  released : e.released = d.released
  stopped : e.stopped = d.stopped
  handles : e.handles = d.handles
  jobs : e.jobs = d.jobs
  names : d.names.Alike e.names
  entries : e.entries = d.entries

namespace Alike

variable {rs : List Reply} {d e : Desk}

theorem threadEnabled (h : Alike rs d e) :
    e.setup.settings.threadEnabled = d.setup.settings.threadEnabled := by
  rw [h.setup]
  rfl

theorem delegates (h : Alike rs d e) : e.setup.delegates = d.setup.delegates := by
  rw [h.setup]
  rfl

theorem now (h : Alike rs d e) : e.now = d.now := congrArg Timestamp.ofMillis h.clock

theorem withSlot (h : Alike rs d e) {s t : Slot} (hs : s.Alike t) :
    Alike rs (d.withSlot s) (e.withSlot t) := { h with slot := hs }

theorem withBoard (h : Alike rs d e) {b c : Board} (hb : b.Alike c) :
    Alike rs (d.withBoard b) (e.withBoard c) :=
  { h with
    board := { hb with }
    entries := by rw [entries_withBoard, entries_withBoard, h.entries] }

theorem note (h : Alike rs d e) (i : Nat) (n : Note) : Alike rs (d.note i n) (e.note i n) :=
  h.withBoard (h.board.note i n _ _)

theorem write (h : Alike rs d e) {x y : Effect} (hxy : y.entry? = x.entry?) :
    Alike rs (d.write x) (e.write y) :=
  { h with
    entries := by
      have hw : ∀ (d : Desk) (x : Effect), (d.write x).entries = x.entry?.toList ++ d.entries := by
        intro d x
        simp only [Desk.entries, Desk.write, List.filterMap_cons]
        cases x.entry? <;> rfl
      rw [hw, hw, hxy, h.entries] }

theorem withGate (h : Alike rs d e) (g : Gate) (state : PhaseState) (source : String)
    (a : Admission) : Alike rs (d.withGate g state source a) (e.withGate g state source a) := by
  cases a with
  | allowed id => exact { h with gate := rfl }
  | rejected reason message =>
    have hg : Alike rs { d with gate := g } { e with gate := g } := { h with gate := rfl }
    rw [Desk.withGate, Desk.withGate]
    dsimp only
    by_cases ho : d.observed = true
    · rw [if_pos ho, if_pos (h.observed.trans ho)]
      exact hg.withBoard (h.board.gatingDrop ..)
    · rw [if_neg ho, if_neg (h.observed ▸ ho)]
      exact hg

theorem claim (h : Alike rs d e) (source : String) :
    Alike rs (d.claim source).1 (e.claim source).1 ∧ (e.claim source).2 = (d.claim source).2 := by
  have hg : (d.gate.tryClaim d.slot source).2.1.Alike (e.gate.tryClaim e.slot source).2.1 ∧
      (e.gate.tryClaim e.slot source).1 = (d.gate.tryClaim d.slot source).1 ∧
      (e.gate.tryClaim e.slot source).2.2 = (d.gate.tryClaim d.slot source).2.2 := by
    rw [Gate.tryClaim, Gate.tryClaim, h.gate, h.slot.read]
    split
    · obtain ⟨hs, hid⟩ := h.slot.beginSend none
      exact ⟨hs, rfl, congrArg (fun id => Admission.allowed (some id)) hid⟩
    · exact ⟨h.slot, rfl, rfl⟩
  obtain ⟨hs, hgate, ha⟩ := hg
  refine ⟨?_, ha⟩
  rw [Desk.claim, Desk.claim]
  dsimp only
  rw [hgate, ha, h.slot.state]
  exact (h.withSlot hs).withGate _ _ _ _

theorem noteCancelled (h : Alike rs d e) {s t : Slot} (hs : s.Alike t) (source : String) :
    Alike rs (d.noteCancelled s source).1 (e.noteCancelled t source).1 := by
  have h' := h.withSlot hs
  rw [Desk.noteCancelled, Desk.noteCancelled, h'.board.current]
  split
  · rename_i i _
    rw [(h'.board.attempt i).requestId, hs.state]
    split
    · exact h'.withBoard (h'.board.cancelRequested ..)
    · exact h'
  · exact h'

theorem cancelCurrent (h : Alike rs d e) (source : String) :
    Alike rs (d.cancelCurrent source).1 (e.cancelCurrent source).1 := by
  rw [Desk.cancelCurrent, Desk.cancelCurrent, h.slot.state]
  split
  · exact h
  · cases d.slot.state.requestId with
    | none => exact h.noteCancelled h.slot.cancel source
    | some id =>
      have hc := h.slot.cancelFor? id
      dsimp only
      generalize d.slot.cancelFor? id = x at hc ⊢
      generalize e.slot.cancelFor? id = y at hc ⊢
      cases hc with
      | none => exact h
      | some hs => exact h.noteCancelled hs source

theorem failOwned (h : Alike rs d e) (id : String) (f : Failure) :
    Alike rs (d.failOwned id f) (e.failOwned id f) := by
  have hf := h.slot.applyFor? id PhaseState.isInFlight (.fail f.message)
  rw [Desk.failOwned, Desk.failOwned, Slot.failFor?, Slot.failFor?]
  generalize d.slot.applyFor? id _ _ = x at hf
  generalize e.slot.applyFor? id _ _ = y at hf
  cases hf with
  | none => exact h
  | some hs => exact h.withSlot hs

theorem giveBack (h : Alike rs d e) (id : Option String) (f : Failure) :
    Alike rs (d.giveBack id f) (e.giveBack id f) := by
  cases id with
  | none => exact h.withSlot (h.slot.apply _)
  | some id => exact h.failOwned id f

theorem turnBack (h : Alike rs d e) (id : Option String) (m : Mishap) :
    Alike rs (d.turnBack id m) (e.turnBack id m) := by
  cases m with
  | failure f => exact h.giveBack id f
  | panic payload => exact h

theorem spawn (h : Alike rs d e) (j : Job) : Alike rs (d.spawn j) (e.spawn j) :=
  { h with jobs := congrArg (· ++ [j]) h.jobs }

theorem dispatch (h : Alike rs d e) (id : Option String) (task : Task) (owner : Option String) :
    Alike rs (d.dispatch id task owner).1 (e.dispatch id task owner).1 ∧
      (e.dispatch id task owner).2 = (d.dispatch id task owner).2 := by
  refine ⟨{ h with handles := congrArg (· ++ _) h.handles, jobs := ?_ }, congrArg List.length h.handles⟩
  change e.jobs ++ [_] = d.jobs ++ [_]
  rw [h.jobs, h.handles]

theorem settled (h : Alike rs d e) (p : Product) :
    Alike rs (d.settled p).1 (e.settled p).1 ∧ (e.settled p).2 = (d.settled p).2 :=
  ⟨{ h with handles := congrArg (· ++ _) h.handles }, congrArg List.length h.handles⟩

theorem cancelHandle (h : Alike rs d e) (k : Nat) :
    Alike rs (d.cancelHandle k).1 (e.cancelHandle k).1 := by
  have hk : e.handle k = d.handle k := by rw [handle, h.handles, handle]
  rw [Desk.cancelHandle, Desk.cancelHandle, hk]
  split
  · exact h
  · split
    · exact h.withSlot h.slot.cancel
    · rename_i id _
      have hc := h.slot.cancelFor? id
      generalize d.slot.cancelFor? id = x at hc ⊢
      generalize e.slot.cancelFor? id = y at hc ⊢
      cases hc with
      | none => exact h
      | some hs => exact h.withSlot hs

theorem exportCounts (h : Alike rs d e) : Alike rs d.exportCounts.1 e.exportCounts.1 := by
  have hg : Alike rs { d with gate := d.gate.takeCounts.1 } { e with gate := e.gate.takeCounts.1 } :=
    { h with gate := congrArg (fun g => g.takeCounts.1) h.gate }
  have hc : e.gate.takeCounts.2 = d.gate.takeCounts.2 := by rw [h.gate]
  rw [Desk.exportCounts, Desk.exportCounts]
  dsimp only
  rw [hc, hg.now]
  split
  · exact hg.write rfl
  · exact hg

theorem attempt? (h : Alike rs d e) (name : Option String) : e.attempt? name = d.attempt? name := by
  cases name with
  | none => exact h.board.current
  | some name => exact congrArg (Keyed.find? · name) h.names.attempts

theorem conclude (h : Alike rs d e) (destination : Destination) (r : Response) :
    Alike rs (d.conclude destination r).1 (e.conclude destination r).1 := by
  rw [Desk.conclude, Desk.conclude, h.threadEnabled]
  dsimp only
  split
  · exact { h with conversation := congrArg (Conversation.pushReply · _) h.conversation }
  · exact h

theorem prepare (h : Alike rs d e) (draft : Draft) (prompt : String) (parts : List Part) :
    Alike rs (d.prepare draft prompt parts).1 (e.prepare draft prompt parts).1 ∧
      (e.prepare draft prompt parts).2 = (d.prepare draft prompt parts).2 := by
  have system : e.setup.system = d.setup.system := by
    rw [h.setup]
    rfl
  refine ⟨?_, by simp only [Desk.prepare, h.threadEnabled, h.now, h.conversation, system]⟩
  rw [Desk.prepare, Desk.prepare]
  dsimp only
  rw [h.threadEnabled, h.now]
  split
  · exact { h with conversation := congrArg (Conversation.push · _) h.conversation }
  · exact h

theorem draftFor (h : Alike rs d e) (r : Request) : e.draftFor r = d.draftFor r := by
  have destination : e.setup.settings.defaultDestination = d.setup.settings.defaultDestination := by
    rw [h.setup]
    rfl
  rw [Desk.draftFor, Desk.draftFor, destination]

theorem enter (h : Alike rs d e) (draft : Draft) :
    Alike rs (d.enter draft).1 (e.enter draft).1 ∧ (e.enter draft).2 = (d.enter draft).2 := by
  obtain ⟨hs, hentry⟩ := h.slot.enter (draft.begin false).requestId
  rw [Desk.enter, Desk.enter]
  dsimp only
  rw [hentry]
  split <;> exact ⟨h.withSlot hs, rfl⟩

theorem cancelledBeforeStart (h : Alike rs d e) (id : String) :
    Alike rs (d.cancelledBeforeStart id).1 (e.cancelledBeforeStart id).1 ∧
      (e.cancelledBeforeStart id).2 = (d.cancelledBeforeStart id).2 := by
  obtain ⟨hb, hi⟩ := h.board.begin id
  simp only [Desk.cancelledBeforeStart, hi]
  exact ⟨(h.withBoard hb).note _ _, congrArg (Response.empty id .cancelled) h.now⟩

end Alike

end Desk

end PromptDesk
