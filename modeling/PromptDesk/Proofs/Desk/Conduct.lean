import PromptDesk.Desk.Execution
import PromptDesk.Proofs.Desk.Moves
import PromptDesk.Proofs.Script.Throughout

/-! What callbacks do to a desk. A relation between desks that commands and submissions respect
is respected by whatever sources, the history writer and the transport do while they are asked. -/
namespace PromptDesk

/-- A relation that is respected by all steps of which a property holds. -/
structure Conduct (p : Step → Bool) (R : Desk → Desk → Prop) : Prop where
  refl : ∀ d, R d d
  trans : ∀ {d d' d''}, R d d' → R d' d'' → R d d''
  quiet : ∀ {d d'}, d.Quiet d' → R d d'
  command : ∀ {c}, p (.command c) = true → ∀ d, R d (d.obey c).1
  /-- A submission hands its request over to the background at once. -/
  delegated : ∀ {d d' : Desk} {source : String} {id : Option String} {r : Request},
    d.claim source = (d', .allowed id) → r.id = id → r.all p = true →
      R d (d'.dispatch id (.request r (.delegate r true)) id).1
  /-- A submission asks its sources and sends the request. -/
  sent : ∀ {d d' d'' : Desk} {source : String} {id : Option String} {draft : Draft},
    d.claim source = (d', .allowed id) → R d' d'' → draft.requestId = id →
      R d (d''.sendDraft draft .conclude).1
  /-- A submission comes to nothing because a source did. -/
  returned : ∀ {d d' d'' : Desk} {source : String} {id : Option String},
    d.claim source = (d', .allowed id) → R d' d'' → ∀ m, R d (d''.turnBack id m)
  /-- A request is run without asking the gate. -/
  started : ∀ {d d' : Desk} {q : Request} {under : String} {draft : Draft},
    p (.run q under) = true → R d d' → draft.requestId = q.id →
      R d (d'.sendDraft draft .conclude).1
  dispatched : ∀ items id under, p (.dispatch items id under) = false

/-- The same for a relation that may depend on what is said: a request goes to the thread when it is
prepared, and what is prepared is sent at once. -/
structure Manner (p : Step → Bool) (R : Desk → Desk → Prop) : Prop where
  refl : ∀ d, R d d
  trans : ∀ {d d' d''}, R d d' → R d' d'' → R d d''
  /-- Nothing is said. -/
  hush : ∀ {d d'}, d.Quiet d' → d'.conversation.thread = d.conversation.thread → R d d'
  command : ∀ {c}, p (.command c) = true → ∀ d, R d (d.obey c).1
  delegated : ∀ {d d' : Desk} {source : String} {id : Option String} {r : Request},
    d.claim source = (d', .allowed id) → r.id = id → r.all p = true →
      R d (d'.dispatch id (.request r (.delegate r true)) id).1
  sent : ∀ {d d' d'' : Desk} {source : String} {id : Option String} {r : Request}
    {parts : List Part}, d.claim source = (d', .allowed id) → d'.setup.delegates = false →
      R d' d'' → r.id = id → R d (d''.runInBackground r (.ok parts)).1
  returned : ∀ {d d' d'' : Desk} {source : String} {id : Option String},
    d.claim source = (d', .allowed id) → R d' d'' → ∀ m, R d (d''.turnBack id m)
  started : ∀ {d d' : Desk} {r : Request} {under : String} {parts : List Part},
    p (.run r under) = true → R d d' → R d (d'.runInBackground r (.ok parts)).1
  noted : ∀ {name prompt : String} {sources : List Source},
    p (.prepare name prompt sources) = true → ∀ d parts, R d (d.prepareNamed name prompt parts).1
  dispatched : ∀ items id under, p (.dispatch items id under) = false

namespace Desk

variable {d : Desk}

theorem quiet_prepareNamed (d : Desk) (name prompt : String) (parts : Except Mishap (List Part)) :
    Quiet d (d.prepareNamed name prompt parts).1 := by
  rw [prepareNamed]
  split
  · exact .refl d
  · rename_i draft _
    split
    · exact quiet_keepDraft d _ _
    · exact (quiet_prepare d (draft.begin false) prompt _).trans (quiet_keepDraft _ _ _)

theorem quiet_beginLogEntry (d : Desk) (i : Nat) : Quiet d (d.beginLogEntry i).1 :=
  (quiet_note d i _).trans (quiet_write _ rfl)

theorem quiet_endLogEntry (d : Desk) (i : Nat) (entry : HistoryEntry)
    (result : Except Failure (Option String)) : Quiet d (d.endLogEntry i entry result).1 := by
  cases result <;> exact quiet_note d i _

/-- A claim says nothing. -/
theorem conversation_claim (d : Desk) (source : String) :
    (d.claim source).1.conversation = d.conversation := by
  simp only [claim, withGate]
  split
  · rfl
  · split <;> rfl

theorem conversation_endLogEntry (d : Desk) (i : Nat) (entry : HistoryEntry)
    (result : Except Failure (Option String)) :
    (d.endLogEntry i entry result).1.conversation = d.conversation := by
  cases result <;> rfl

end Desk

/-- What is said does not matter to a relation that is respected by everything quiet. -/
theorem Conduct.manner {p : Step → Bool} {R : Desk → Desk → Prop} (h : Conduct p R) :
    Manner p R where
  refl := h.refl
  trans := h.trans
  hush hq _ := h.quiet hq
  command := h.command
  delegated := h.delegated
  sent {_ _ d'' _ _ r _} hc _ hR hid :=
    h.sent hc (h.trans hR (h.quiet (Desk.quiet_prepare d'' (d''.draftFor r) _ _))) hid
  returned := h.returned
  started {_ d' r _ _} hp hR :=
    h.started hp (h.trans hR (h.quiet (Desk.quiet_prepare d' (d'.draftFor r) _ _))) rfl
  noted _ d parts := h.quiet (Desk.quiet_prepareNamed d _ _ parts)
  dispatched := h.dispatched

namespace Manner

variable {p : Step → Bool} {R : Desk → Desk → Prop}

/-- Relations that are respected are respected together. -/
theorem and {S : Desk → Desk → Prop} (h : Manner p R) (h' : Manner p S) :
    Manner p fun d d' => R d d' ∧ S d d' where
  refl d := ⟨h.refl d, h'.refl d⟩
  trans a b := ⟨h.trans a.1 b.1, h'.trans a.2 b.2⟩
  hush hq ht := ⟨h.hush hq ht, h'.hush hq ht⟩
  command hc d := ⟨h.command hc d, h'.command hc d⟩
  delegated hc hid hr := ⟨h.delegated hc hid hr, h'.delegated hc hid hr⟩
  sent hc hn a hid := ⟨h.sent hc hn a.1 hid, h'.sent hc hn a.2 hid⟩
  returned hc a m := ⟨h.returned hc a.1 m, h'.returned hc a.2 m⟩
  started hp a := ⟨h.started hp a.1, h'.started hp a.2⟩
  noted hp d parts := ⟨h.noted hp d parts, h'.noted hp d parts⟩
  dispatched := h.dispatched

mutual

/-- A step that behaves respects the relation. -/
theorem perform (h : Manner p R) :
    ∀ (s : Step) (d : Desk), s.all p = true → R d (s.perform d).1
  | .command c, d, hs => h.command hs d
  | .submit (.mk prompt sources destination id' axes) source under, d, hs => by
    have hr : Source.allIn p sources = true := by
      simp only [Step.all, Request.all, Bool.and_eq_true] at hs
      exact hs.2
    rw [Step.perform]
    split
    · rename_i hc
      refine h.hush (Desk.claim_rejected hc) ?_
      rw [← Desk.conversation_claim d source, hc]
    · rename_i d' id hc
      dsimp only
      split
      · exact h.trans (h.delegated (r := .mk prompt sources destination id axes) hc rfl hr)
          (h.hush (Desk.quiet_pending _ _ _) rfl)
      · rename_i hdelegates
        have hg := gather h sources d' hr
        generalize PromptDesk.gather sources d' = g at hg ⊢
        obtain ⟨d₁, m | parts⟩ := g
        · exact h.returned hc hg m
        · exact h.trans (h.sent (r := .mk prompt sources destination id axes) hc
            (by simpa using hdelegates) hg rfl) (h.hush (Desk.quiet_pending _ _ _) rfl)
  | .run (.mk prompt sources destination id axes) under, d, hs => by
    simp only [Step.all, Request.all, Bool.and_eq_true] at hs
    have hg := gather h sources d hs.2
    rw [Step.perform]
    generalize PromptDesk.gather sources d = g at hg ⊢
    obtain ⟨d₁, m | parts⟩ := g
    · exact hg
    · exact h.trans (h.started hs.1 hg) (h.hush (Desk.quiet_pending _ _ _) rfl)
  | .dispatch items id under, d, hs => by
    simp [Step.all, h.dispatched] at hs
  | .prepare name prompt sources, d, hs => by
    simp only [Step.all, Bool.and_eq_true] at hs
    rw [Step.perform]
    exact h.trans (gather h sources d hs.2) (h.noted hs.1 _ _)
  | .logEntry attempt (.mk calls result), d, hs => by
    simp only [Step.all, Writer.all, Bool.and_eq_true] at hs
    rw [Step.perform]
    split
    · exact h.refl d
    · exact h.trans (h.hush (Desk.quiet_beginLogEntry d _) rfl)
        (h.trans (performAll h calls _ hs.2) (h.hush (Desk.quiet_endLogEntry _ _ _ _)
          (congrArg _ (Desk.conversation_endLogEntry _ _ _ _))))
  | .logEntry attempt (.panic calls payload), d, hs => by
    simp only [Step.all, Writer.all, Bool.and_eq_true] at hs
    rw [Step.perform]
    split
    · exact h.refl d
    · exact h.trans (h.hush (Desk.quiet_beginLogEntry d _) rfl) (performAll h calls _ hs.2)

theorem performAll (h : Manner p R) :
    ∀ (cs : List Call) (d : Desk), Call.allIn p cs = true → R d (PromptDesk.performAll cs d)
  | [], d, _ => h.refl d
  | .mk label step :: cs, d, hs => by
    simp only [Call.allIn, Call.all, Bool.and_eq_true] at hs
    rw [PromptDesk.performAll]
    exact h.trans (perform h step d hs.1)
      (h.trans (h.hush (Desk.quiet_write _ rfl) rfl) (performAll h cs _ hs.2))

theorem gather (h : Manner p R) :
    ∀ (ss : List Source) (d : Desk), Source.allIn p ss = true → R d (PromptDesk.gather ss d).1
  | [], d, _ => h.refl d
  | .mk (.panic calls payload) later :: ss, d, hs => by
    simp only [Source.allIn, Source.all, Visit.all, Bool.and_eq_true] at hs
    exact performAll h calls d hs.1.1
  | .mk (.mk calls content) later :: ss, d, hs => by
    simp only [Source.allIn, Source.all, Visit.all, Bool.and_eq_true] at hs
    have hc := performAll h calls d hs.1.1
    have hg := gather h ss (PromptDesk.performAll calls d) hs.2
    rw [gather_cons]
    cases content with
    | error f => exact hc
    | ok parts => exact h.trans hc hg

end

theorem recordLogEntry (h : Manner p R) (d : Desk) (i : Nat) {w : Writer} (hw : w.all p = true) :
    R d (d.recordLogEntry i w).1 := by
  have hb : R d (d.beginLogEntry i).1 := h.hush (Desk.quiet_beginLogEntry d i) rfl
  cases w with
  | mk calls result =>
    exact h.trans hb (h.trans (performAll h calls _ hw) (h.hush (Desk.quiet_endLogEntry _ _ _ _)
      (congrArg _ (Desk.conversation_endLogEntry _ _ _ _))))
  | panic calls payload => exact h.trans hb (performAll h calls _ hw)

end Manner

/-- What is still to be played behaves. -/
def Collected.Behaves (p : Step → Bool) : Collected → Prop
  | .waiting playback => Item.allIn p playback.rest = true
  | .text _ | .failed _ | .panicked _ => True

/-- What is still to be read behaves, and is read under the same token. -/
def Drained.Behaves (p : Step → Bool) (attempt : Nat) (token : Option Nat) : Drained → Prop
  | .waiting r => Item.allIn p r.playback.rest = true ∧ r.attempt = attempt ∧ r.token = token
  | .ended _ | .panicked _ => True

namespace Manner

variable {p : Step → Bool} {R : Desk → Desk → Prop}

theorem collectItems (h : Manner p R) (items : List Item) (text : String) (d : Desk)
    (hi : Item.allIn p items = true) :
    R d (Desk.collectItems items text d).1 ∧ (Desk.collectItems items text d).2.Behaves p := by
  induction items generalizing text d with
  | nil => exact ⟨h.refl d, trivial⟩
  | cons item rest ih =>
    simp only [Item.allIn, Bool.and_eq_true] at hi
    cases item with
    | chunk s => exact ih (text ++ s) d hi.2
    | fail f | panic payload => exact ⟨h.refl d, trivial⟩
    | calls calls =>
      obtain ⟨hr, hb⟩ := ih text (PromptDesk.performAll calls d) hi.2
      exact ⟨h.trans (performAll h calls d hi.1) hr, hb⟩
    | delay ms | wait name | hang =>
      simp only [Desk.collectItems]
      split
      · exact ⟨h.refl d, hi.2⟩
      · exact ih text d hi.2

theorem collectWithin (h : Manner p R) (d : Desk) (limit : Option Limit) (playback : Playback)
    (hi : Item.allIn p playback.rest = true) :
    R d (d.collectWithin limit playback).1 ∧ (d.collectWithin limit playback).2.Behaves p := by
  have hc : R d (d.collect playback).1 ∧ (d.collect playback).2.Behaves p := by
    rw [Desk.collect]
    split
    · exact collectItems h _ _ d hi
    · exact ⟨h.refl d, hi⟩
  rw [Desk.collectWithin]
  split
  · rename_i d' playback' he
    rw [he] at hc
    split
    · split
      · exact ⟨hc.1, trivial⟩
      · exact hc
    · exact hc
  · exact hc

theorem halt (h : Manner p R) {d d' : Desk} {attempt : Nat} {token : Option Nat}
    {idle : Option Limit} {outcome : ReadOutcome}
    (hh : d.halt? attempt token idle = some (d', outcome)) : R d d' := by
  unfold Desk.halt? at hh
  split at hh
  · cases hh
    exact h.refl d
  · split at hh
    · split at hh
      · cases hh
        exact h.hush (Desk.quiet_note d _ _) rfl
      · cases hh
    · cases hh

theorem readItems (h : Manner p R) (attempt : Nat) (token : Option Nat) (items : List Item)
    (idle : Option Limit) (d : Desk) (hi : Item.allIn p items = true) :
    R d (Desk.readItems attempt token items idle d).1 ∧
      (Desk.readItems attempt token items idle d).2.Behaves p attempt token := by
  induction items generalizing idle d with
  | nil => exact ⟨h.hush (Desk.quiet_note d _ _) rfl, trivial⟩
  | cons item rest ih =>
    simp only [Item.allIn, Bool.and_eq_true] at hi
    cases item with
    | chunk s =>
      have hq := h.hush (Desk.quiet_note d attempt (.chunk s)) rfl
      rw [Desk.readItems]
      split
      · rename_i hh
        exact ⟨h.trans hq (h.halt hh), trivial⟩
      · obtain ⟨hr, hb⟩ := ih (idle.map (·.restart d.clock)) (d.note attempt (.chunk s)) hi.2
        exact ⟨h.trans hq hr, hb⟩
    | fail f => exact ⟨h.hush (Desk.quiet_note d _ _) rfl, trivial⟩
    | panic payload => exact ⟨h.refl d, trivial⟩
    | calls calls =>
      obtain ⟨hr, hb⟩ := ih idle (PromptDesk.performAll calls d) hi.2
      exact ⟨h.trans (performAll h calls d hi.1) hr, hb⟩
    | delay ms | wait name | hang =>
      simp only [Desk.readItems]
      split
      · exact ⟨h.refl d, hi.2, rfl, rfl⟩
      · exact ih idle d hi.2

theorem read (h : Manner p R) (d : Desk) (r : Reader) (hi : Item.allIn p r.playback.rest = true) :
    R d (d.read r).1 ∧ (d.read r).2.Behaves p r.attempt r.token := by
  rw [Desk.read]
  split
  · rename_i hh
    exact ⟨h.halt hh, trivial⟩
  · split
    · exact readItems h r.attempt r.token _ _ d hi
    · exact ⟨h.refl d, hi, rfl, rfl⟩

end Manner

end PromptDesk
