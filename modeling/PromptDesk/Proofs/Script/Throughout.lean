import Mathlib
import PromptDesk.Desk.Basic

/-! What holds of a script throughout. A property of single steps holds of a script if it holds of
every step that the script makes, in whichever callback it makes it. -/
namespace PromptDesk

mutual

def Call.all (p : Step → Bool) : Call → Bool
  | .mk _ step => step.all p

/-- A property of single steps holds of a step and of all steps that callbacks make in it. -/
def Step.all (p : Step → Bool) : Step → Bool
  | .command c => p (.command c)
  | .submit r source under => p (.submit r source under) && r.all p
  | .run r under => p (.run r under) && r.all p
  | .dispatch items id under => p (.dispatch items id under) && Item.allIn p items
  | .prepare name prompt sources => p (.prepare name prompt sources) && Source.allIn p sources
  | .logEntry attempt w => p (.logEntry attempt w) && w.all p

def Visit.all (p : Step → Bool) : Visit → Bool
  | .mk calls _ | .panic calls _ => Call.allIn p calls

def Source.all (p : Step → Bool) : Source → Bool
  | .mk now later => now.all p && Visit.allIn p later

def Writer.all (p : Step → Bool) : Writer → Bool
  | .mk calls _ | .panic calls _ => Call.allIn p calls

def Item.all (p : Step → Bool) : Item → Bool
  | .calls calls => Call.allIn p calls
  | .chunk _ | .fail _ | .delay _ | .wait _ | .hang | .panic _ => true

def Request.all (p : Step → Bool) : Request → Bool
  | .mk _ sources _ _ _ => Source.allIn p sources

def Call.allIn (p : Step → Bool) : List Call → Bool
  | [] => true
  | c :: cs => c.all p && Call.allIn p cs

def Visit.allIn (p : Step → Bool) : List Visit → Bool
  | [] => true
  | v :: vs => v.all p && Visit.allIn p vs

def Source.allIn (p : Step → Bool) : List Source → Bool
  | [] => true
  | s :: ss => s.all p && Source.allIn p ss

def Item.allIn (p : Step → Bool) : List Item → Bool
  | [] => true
  | i :: is => i.all p && Item.allIn p is

end

variable {p q : Step → Bool}

mutual

theorem Call.all_mono (h : ∀ s, p s = true → q s = true) :
    ∀ c : Call, c.all p = true → c.all q = true
  | .mk _ step, hc => Step.all_mono h step hc

/-- What implies a property implies it throughout. -/
theorem Step.all_mono (h : ∀ s, p s = true → q s = true) :
    ∀ s : Step, s.all p = true → s.all q = true
  | .command _, hs => h _ hs
  | .submit r _ _, hs => by
    simp only [Step.all, Bool.and_eq_true] at hs ⊢
    exact ⟨h _ hs.1, Request.all_mono h r hs.2⟩
  | .run r _, hs => by
    simp only [Step.all, Bool.and_eq_true] at hs ⊢
    exact ⟨h _ hs.1, Request.all_mono h r hs.2⟩
  | .dispatch items _ _, hs => by
    simp only [Step.all, Bool.and_eq_true] at hs ⊢
    exact ⟨h _ hs.1, Item.allIn_mono h items hs.2⟩
  | .prepare _ _ sources, hs => by
    simp only [Step.all, Bool.and_eq_true] at hs ⊢
    exact ⟨h _ hs.1, Source.allIn_mono h sources hs.2⟩
  | .logEntry _ w, hs => by
    simp only [Step.all, Bool.and_eq_true] at hs ⊢
    exact ⟨h _ hs.1, Writer.all_mono h w hs.2⟩

theorem Visit.all_mono (h : ∀ s, p s = true → q s = true) :
    ∀ v : Visit, v.all p = true → v.all q = true
  | .mk calls _, hv | .panic calls _, hv => Call.allIn_mono h calls hv

theorem Source.all_mono (h : ∀ s, p s = true → q s = true) :
    ∀ s : Source, s.all p = true → s.all q = true
  | .mk now later, hs => by
    simp only [Source.all, Bool.and_eq_true] at hs ⊢
    exact ⟨Visit.all_mono h now hs.1, Visit.allIn_mono h later hs.2⟩

theorem Writer.all_mono (h : ∀ s, p s = true → q s = true) :
    ∀ w : Writer, w.all p = true → w.all q = true
  | .mk calls _, hw | .panic calls _, hw => Call.allIn_mono h calls hw

theorem Item.all_mono (h : ∀ s, p s = true → q s = true) :
    ∀ i : Item, i.all p = true → i.all q = true
  | .calls calls, hi => Call.allIn_mono h calls hi
  | .chunk _, _ | .fail _, _ | .delay _, _ | .wait _, _ | .hang, _ | .panic _, _ => rfl

theorem Request.all_mono (h : ∀ s, p s = true → q s = true) :
    ∀ r : Request, r.all p = true → r.all q = true
  | .mk _ sources _ _ _, hr => Source.allIn_mono h sources hr

theorem Call.allIn_mono (h : ∀ s, p s = true → q s = true) :
    ∀ cs : List Call, Call.allIn p cs = true → Call.allIn q cs = true
  | [], _ => rfl
  | c :: cs, hc => by
    simp only [Call.allIn, Bool.and_eq_true] at hc ⊢
    exact ⟨Call.all_mono h c hc.1, Call.allIn_mono h cs hc.2⟩

theorem Visit.allIn_mono (h : ∀ s, p s = true → q s = true) :
    ∀ vs : List Visit, Visit.allIn p vs = true → Visit.allIn q vs = true
  | [], _ => rfl
  | v :: vs, hv => by
    simp only [Visit.allIn, Bool.and_eq_true] at hv ⊢
    exact ⟨Visit.all_mono h v hv.1, Visit.allIn_mono h vs hv.2⟩

theorem Source.allIn_mono (h : ∀ s, p s = true → q s = true) :
    ∀ ss : List Source, Source.allIn p ss = true → Source.allIn q ss = true
  | [], _ => rfl
  | s :: ss, hs => by
    simp only [Source.allIn, Bool.and_eq_true] at hs ⊢
    exact ⟨Source.all_mono h s hs.1, Source.allIn_mono h ss hs.2⟩

theorem Item.allIn_mono (h : ∀ s, p s = true → q s = true) :
    ∀ is : List Item, Item.allIn p is = true → Item.allIn q is = true
  | [], _ => rfl
  | i :: is, hi => by
    simp only [Item.allIn, Bool.and_eq_true] at hi ⊢
    exact ⟨Item.all_mono h i hi.1, Item.allIn_mono h is hi.2⟩

end

mutual

theorem Call.all_of_forall (h : ∀ s, p s = true) : ∀ c : Call, c.all p = true
  | .mk _ step => Step.all_of_forall h step

/-- What holds of all steps holds of each of them throughout. -/
theorem Step.all_of_forall (h : ∀ s, p s = true) : ∀ s : Step, s.all p = true
  | .command _ => h _
  | .submit r _ _ | .run r _ => by
    rw [Step.all, h, Request.all_of_forall h r]
    rfl
  | .dispatch items _ _ => by
    rw [Step.all, h, Item.allIn_of_forall h items]
    rfl
  | .prepare _ _ sources => by
    rw [Step.all, h, Source.allIn_of_forall h sources]
    rfl
  | .logEntry _ w => by
    rw [Step.all, h, Writer.all_of_forall h w]
    rfl

theorem Visit.all_of_forall (h : ∀ s, p s = true) : ∀ v : Visit, v.all p = true
  | .mk calls _ | .panic calls _ => Call.allIn_of_forall h calls

theorem Source.all_of_forall (h : ∀ s, p s = true) : ∀ s : Source, s.all p = true
  | .mk now later => by
    rw [Source.all, Visit.all_of_forall h now, Visit.allIn_of_forall h later]
    rfl

theorem Writer.all_of_forall (h : ∀ s, p s = true) : ∀ w : Writer, w.all p = true
  | .mk calls _ | .panic calls _ => Call.allIn_of_forall h calls

theorem Item.all_of_forall (h : ∀ s, p s = true) : ∀ i : Item, i.all p = true
  | .calls calls => Call.allIn_of_forall h calls
  | .chunk _ | .fail _ | .delay _ | .wait _ | .hang | .panic _ => rfl

theorem Request.all_of_forall (h : ∀ s, p s = true) : ∀ r : Request, r.all p = true
  | .mk _ sources _ _ _ => Source.allIn_of_forall h sources

theorem Call.allIn_of_forall (h : ∀ s, p s = true) : ∀ cs : List Call, Call.allIn p cs = true
  | [] => rfl
  | c :: cs => by
    rw [Call.allIn, Call.all_of_forall h c, Call.allIn_of_forall h cs]
    rfl

theorem Visit.allIn_of_forall (h : ∀ s, p s = true) : ∀ vs : List Visit, Visit.allIn p vs = true
  | [] => rfl
  | v :: vs => by
    rw [Visit.allIn, Visit.all_of_forall h v, Visit.allIn_of_forall h vs]
    rfl

theorem Source.allIn_of_forall (h : ∀ s, p s = true) :
    ∀ ss : List Source, Source.allIn p ss = true
  | [] => rfl
  | s :: ss => by
    rw [Source.allIn, Source.all_of_forall h s, Source.allIn_of_forall h ss]
    rfl

theorem Item.allIn_of_forall (h : ∀ s, p s = true) : ∀ is : List Item, Item.allIn p is = true
  | [] => rfl
  | i :: is => by
    rw [Item.allIn, Item.all_of_forall h i, Item.allIn_of_forall h is]
    rfl

end

/-- What holds of a source throughout holds of the calls of its next visit. -/
theorem Source.allIn_calls {s : Source} (h : s.all p = true) : Call.allIn p s.calls = true := by
  obtain ⟨⟨calls, content⟩ | ⟨calls, payload⟩, later⟩ := s <;>
    exact (Bool.and_eq_true _ _ ▸ h : _ ∧ _).1

/-- What holds of a source throughout holds of it at its next visit. -/
theorem Source.all_next {s : Source} (h : s.all p = true) : s.next.all p = true := by
  obtain ⟨now, later⟩ := s
  cases later with
  | nil => exact h
  | cons v vs =>
    simp only [Source.all, Visit.allIn, Bool.and_eq_true] at h
    simp only [Source.next, Source.all, Bool.and_eq_true]
    exact h.2

theorem Source.allIn_map_next {ss : List Source} (h : Source.allIn p ss = true) :
    Source.allIn p (ss.map Source.next) = true := by
  induction ss with
  | nil => rfl
  | cons s ss ih =>
    simp only [Source.allIn, Bool.and_eq_true] at h
    simp only [List.map_cons, Source.allIn, Bool.and_eq_true]
    exact ⟨Source.all_next h.1, ih h.2⟩

theorem Item.allIn_append {is js : List Item} :
    Item.allIn p (is ++ js) = (Item.allIn p is && Item.allIn p js) := by
  induction is with
  | nil => rfl
  | cons i is ih => simp [Item.allIn, ih, Bool.and_assoc]

theorem Request.all_follow {r : Request} (h : r.all p = true) (prompt : String)
    (destination : Destination) (id : Option String) :
    (r.follow prompt destination id).all p = true := by
  obtain ⟨_, sources, _, _, _⟩ := r
  exact Source.allIn_map_next h

@[simp] theorem Request.all_claimed (r : Request) (id : Option String) :
    (r.claimed id).all p = r.all p := by
  cases r
  rfl

def Reply.all (p : Step → Bool) (r : Reply) : Bool := Item.allIn p r.opening && Item.allIn p r.items

def Stage.all (p : Step → Bool) : Stage → Bool
  | .claimed => true
  | .opening _ _ _ playback items => Item.allIn p playback.rest && Item.allIn p items
  | .collecting _ _ _ playback => Item.allIn p playback.rest
  | .reading r => Item.allIn p r.playback.rest

def Sequel.all (p : Step → Bool) : Sequel → Bool
  | .respond | .conclude => true
  | .delegate r _ => r.all p

/-- A property holds of all steps that are still to be made in a task. -/
def Task.all (p : Step → Bool) : Task → Bool
  | .request r sequel => r.all p && sequel.all p
  | .execution e sequel => e.stage.all p && sequel.all p
  | .collect _ playback => Item.allIn p playback.rest
  | .read r => Item.allIn p r.playback.rest
  | .await _ _ | .sleep _ | .present _ _ | .exports _ _ => true

/-- A property holds of all steps that the transport and the history writer make. -/
structure Desk.Behaves (p : Step → Bool) (d : Desk) : Prop where
  history : ∀ w, d.setup.history = some w → w.all p = true
  replies : ∀ r ∈ d.replies, r.all p = true

/-- The next answer of the transport behaves like all of them. -/
theorem Desk.Behaves.head {d : Desk} (hd : d.Behaves p) :
    (d.replies.head?.getD .standard).all p = true := by
  cases hr : d.replies with
  | nil => rfl
  | cons r rs => exact hd.replies r (by simp [hr])

end PromptDesk
